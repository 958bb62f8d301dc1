import Scaffolding.Number.Basic
import Scaffolding.Text.Split
import Scaffolding.Url.Percent

/-!
# Hosts

The host of a URL: a domain, an address of version 4 or one of version 6. A domain whose last label
is a number has to be an address, which may leave out parts and may write them in base eight or
sixteen. Addresses are written in their usual form, version 6 with the longest run of zeros left out.
-/

set_option autoImplicit false

namespace Scaffolding

/-- Why a text is no URL. -/
inductive Url.Error
  | relative
  | emptyHost
  | invalidPort
  | invalidDomain
  | invalidCharacter
  | invalidIpv4
  | invalidIpv6
  deriving DecidableEq, Repr

/-- The message about a text that is no URL. -/
def Url.Error.message : Url.Error → String
  | relative => "relative URL without a base"
  | emptyHost => "empty host"
  | invalidPort => "invalid port number"
  | invalidDomain => "invalid international domain name"
  | invalidCharacter => "invalid domain character"
  | invalidIpv4 => "invalid IPv4 address"
  | invalidIpv6 => "invalid IPv6 address"

inductive Url.Host
  | domain (name : List Char)
  | ipv4 (address : Nat)
  | ipv6 (pieces : List Nat)
  deriving DecidableEq, Repr

namespace Url

/-! ## Addresses of version 4 -/

/-- The number that digits of a base write. -/
def number? (base : Nat) (cs : List Char) : Option Nat :=
  cs.foldlM (fun n c => (Json.hexValue? c).bind fun d =>
    if d < base then some (n * base + d) else none) 0

/-- The number that one part of an address writes: in base ten, or eight after a zero, or sixteen
after `0x`. Nothing after the mark is zero. -/
def ipv4Number? : List Char → Option Nat
  | [] => none
  | '0' :: 'x' :: rest | '0' :: 'X' :: rest => number? 16 rest
  | '0' :: c :: rest => number? 8 (c :: rest)
  | cs => number? 10 cs

/-- The last label of a domain writes a number; a dot at the end does not count. -/
def endsInNumber (name : List Char) : Bool :=
  let isNumber (label : List Char) : Bool :=
    (!label.isEmpty && label.all Char.isDigit) || (ipv4Number? label).isSome
  match (Text.splitChars '.' name).reverse with
  | [] :: label :: _ => isNumber label
  | [] :: [] => false
  | label :: _ => isNumber label
  | [] => false

/-- The labels of an address, without an empty one at the end. -/
def ipv4Parts (name : List Char) : List (List Char) :=
  let parts := Text.splitChars '.' name
  if parts.getLast? == some [] then parts.dropLast else parts

/-- The address that a domain writes. The last part stands for all bytes that are left. -/
def ipv4? (name : List Char) : Option Nat := do
  let parts := ipv4Parts name
  if 4 < parts.length then none
  let numbers ← parts.mapM ipv4Number?
  let last ← numbers.getLast?
  let front := numbers.dropLast
  if Nat.pow 256 (4 - front.length) ≤ last then none
  if front.any fun n => decide (255 < n) then none
  let high := front.zipIdx.foldl (fun total (n, i) => total + n * Nat.pow 256 (3 - i)) 0
  return high + last

/-- The four parts of an address. -/
def ipv4Chars (address : Nat) : List Char :=
  Text.joinChars '.' ([3, 2, 1, 0].map fun i => natChars (address / Nat.pow 256 i % 256))

/-! ## Addresses of version 6 -/

/-- A piece of an address: one to four hexadecimal digits. -/
def ipv6Piece? (cs : List Char) : Option Nat :=
  if cs.isEmpty || decide (4 < cs.length) then none else number? 16 cs

/-- The part of an address of version 4 at the end of one of version 6: no leading zeros. -/
def ipv4Part? (cs : List Char) : Option Nat := do
  if cs.isEmpty || !cs.all Char.isDigit then none
  if cs.head? == some '0' && decide (1 < cs.length) then none
  let n := digitsValue cs
  if 255 < n then none else return n

/-- The two pieces that an address of version 4 stands for. -/
def ipv4Pieces? (cs : List Char) : Option (List Nat) :=
  match Text.splitChars '.' cs with
  | [a, b, c, d] => do
    let a ← ipv4Part? a
    let b ← ipv4Part? b
    let c ← ipv4Part? c
    let d ← ipv4Part? d
    return [a * 256 + b, c * 256 + d]
  | _ => none

/-- The pieces between colons; the last may be an address of version 4 if `ending` says so. -/
def ipv6Pieces? (ending : Bool) (cs : List Char) : Option (List Nat) :=
  if cs.isEmpty then some []
  else
    let parts := Text.splitChars ':' cs
    match parts.reverse with
    | last :: front =>
      if ending && last.contains '.' then do
        let pieces ← front.reverse.mapM ipv6Piece?
        let tail ← ipv4Pieces? last
        return pieces ++ tail
      else parts.mapM ipv6Piece?
    | [] => none

/-- A text before and after its first two colons in a row. -/
def cutColons : List Char → List Char × Option (List Char)
  | ':' :: ':' :: rest => ([], some rest)
  | c :: rest => let (front, back) := cutColons rest; (c :: front, back)
  | [] => ([], none)

/-- The address that a text writes. Two colons stand for one or more pieces of zero. -/
def ipv6? (cs : List Char) : Option (List Nat) := do
  let (front, back) := cutColons cs
  match back with
  | none =>
    let pieces ← ipv6Pieces? true front
    if pieces.length = 8 then return pieces else none
  | some back =>
    let left ← ipv6Pieces? false front
    let right ← ipv6Pieces? true back
    let known := left.length + right.length
    if known < 8 then return left ++ List.replicate (8 - known) 0 ++ right else none

/-- The length of the run of zeros at the start of some pieces. -/
def zeroRun (pieces : List Nat) : Nat :=
  (pieces.takeWhile (· == 0)).length

/-- The start and the length of the first of the longest runs of zeros, if it is longer than one. -/
def longestZeros? (pieces : List Nat) : Option (Nat × Nat) :=
  let runs := (List.range pieces.length).map fun i => (i, zeroRun (pieces.drop i))
  let best := runs.foldl (fun best run => if best.2 < run.2 then run else best) (0, 0)
  if 1 < best.2 then some best else none

/-- The pieces of an address with colons between them. -/
def piecesChars (pieces : List Nat) : List Char :=
  Text.joinChars ':' (pieces.map (Nat.toDigits 16))

/-- The text of an address of version 6. -/
def ipv6Chars (pieces : List Nat) : List Char :=
  match longestZeros? pieces with
  | none => piecesChars pieces
  | some (start, length) =>
    piecesChars (pieces.take start) ++ ':' :: ':' :: piecesChars (pieces.drop (start + length))

/-! ## Hosts -/

def Host.chars : Host → List Char
  | domain name => name
  | ipv4 address => ipv4Chars address
  | ipv6 pieces => '[' :: (ipv6Chars pieces ++ [']'])

/-- The characters that no domain may hold. -/
def forbiddenInDomain (c : Char) : Bool :=
  c.toNat ≤ 0x20 || c.toNat == 0x7F || c == '#' || c == '/' || c == ':' || c == '<' || c == '>' ||
    c == '?' || c == '@' || c == '[' || c == '\\' || c == ']' || c == '^' || c == '|' || c == '%'

/-- The characters that no host outside the known schemes may hold. -/
def forbiddenInHost (c : Char) : Bool :=
  c.toNat == 0 || c.toNat == 9 || c.toNat == 0xA || c.toNat == 0xD || c == ' ' || c == '#' ||
    c == '/' || c == ':' || c == '<' || c == '>' || c == '?' || c == '@' || c == '[' || c == '\\' ||
    c == ']' || c == '^' || c == '|'

def readBracketed (cs : List Char) : Except Error Host :=
  if cs.getLast? == some ']' then
    match ipv6? (cs.drop 1).dropLast with
    | some pieces => .ok (.ipv6 pieces)
    | none => .error .invalidIpv6
  else .error .invalidIpv6

end Url

end Scaffolding
