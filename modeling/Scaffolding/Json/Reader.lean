import Scaffolding.Json.Basic

/-!
# Reading JSON

A reader for JSON text. Integers that fit 64 bits are read as integers; every other number, and
negative zero, is read as the nearest double. A key that comes twice keeps its first place and its
last value. Each reading step returns the characters it left; nesting is bounded by the length of
the text.
-/

set_option autoImplicit false

namespace Scaffolding.Json

/-- Drops the four characters that may stand between the parts of a JSON text. -/
def skipSpace (cs : List Char) : List Char :=
  cs.dropWhile fun c => c == ' ' || c == '\n' || c == '\r' || c == '\t'

/-- The number of a hexadecimal digit of either case. -/
def hexValue? (c : Char) : Option Nat :=
  if '0' ≤ c ∧ c ≤ '9' then some (c.toNat - '0'.toNat)
  else if 'a' ≤ c ∧ c ≤ 'f' then some (c.toNat - 'a'.toNat + 10)
  else if 'A' ≤ c ∧ c ≤ 'F' then some (c.toNat - 'A'.toNat + 10)
  else none

/-- The number written by four hexadecimal digits. -/
def fourHex? (a b c d : Char) : Option Nat := do
  let a ← hexValue? a
  let b ← hexValue? b
  let c ← hexValue? c
  let d ← hexValue? d
  return ((a * 16 + b) * 16 + c) * 16 + d

/-- The character of a short escape such as `\n`. -/
def shortEscape? (c : Char) : Option Char :=
  match c with
  | '"' => some '"'
  | '\\' => some '\\'
  | '/' => some '/'
  | 'b' => some (Char.ofNat 8)
  | 'f' => some (Char.ofNat 12)
  | 'n' => some '\n'
  | 'r' => some '\r'
  | 't' => some '\t'
  | _ => none

/-- Reads the inside of a string up to its closing quote, `acc` holding what was read in reverse.
Two escapes that form a surrogate pair give one character. -/
def readString (acc : List Char) : List Char → Option (String × List Char)
  | '"' :: rest => some (String.ofList acc.reverse, rest)
  | '\\' :: 'u' :: a :: b :: c :: d :: '\\' :: 'u' :: e :: f :: g :: h :: rest => do
    let high ← fourHex? a b c d
    if 0xD800 ≤ high ∧ high < 0xDC00 then
      let low ← fourHex? e f g h
      if 0xDC00 ≤ low ∧ low < 0xE000 then
        readString (Char.ofNat (0x10000 + (high - 0xD800) * 0x400 + (low - 0xDC00)) :: acc) rest
      else none
    else if 0xDC00 ≤ high ∧ high < 0xE000 then none
    else readString (Char.ofNat high :: acc) ('\\' :: 'u' :: e :: f :: g :: h :: rest)
  | '\\' :: 'u' :: a :: b :: c :: d :: rest => do
    let code ← fourHex? a b c d
    if 0xD800 ≤ code ∧ code < 0xE000 then none
    else readString (Char.ofNat code :: acc) rest
  | '\\' :: c :: rest => do
    let d ← shortEscape? c
    readString (d :: acc) rest
  | '\\' :: [] => none
  | c :: rest => if c.toNat < 32 then none else readString (c :: acc) rest
  | [] => none

def readUnsigned (negative : Bool) (cs : List Char) : Option (Number × List Char) := do
  let whole := cs.takeWhile Char.isDigit
  let rest := cs.dropWhile Char.isDigit
  if whole.isEmpty then none
  let (fraction, rest, hasPoint) :=
    match rest with
    | '.' :: more => (more.takeWhile Char.isDigit, more.dropWhile Char.isDigit, true)
    | _ => ([], rest, false)
  if hasPoint ∧ fraction.isEmpty then none
  let (marked, minus, more) :=
    match rest with
    | 'e' :: '+' :: more | 'E' :: '+' :: more => (true, false, more)
    | 'e' :: '-' :: more | 'E' :: '-' :: more => (true, true, more)
    | 'e' :: more | 'E' :: more => (true, false, more)
    | _ => (false, false, rest)
  let exponent := if marked then more.takeWhile Char.isDigit else []
  let rest := if marked then more.dropWhile Char.isDigit else rest
  if marked ∧ exponent.isEmpty then none
  let digits := digitsValue (whole ++ fraction)
  let plain := !hasPoint && !marked
  let whole? := if plain && !(negative && digits == 0) then
    Number.ofInt? (if negative then -(digits : Int) else digits) else none
  match whole? with
  | some n => some (n, rest)
  | none =>
    let shift : Int := if minus then -(digitsValue exponent : Int) else digitsValue exponent
    let d ← Double.ofDecimal? negative digits (shift - fraction.length)
    some (.double d, rest)

def readNumber : List Char → Option (Number × List Char)
  | '-' :: rest => readUnsigned true rest
  | cs => readUnsigned false cs

mutual

/-- Reads a value, `fuel` bounding the nesting and the number of parts. -/
def readValue (fuel : Nat) (cs : List Char) : Option (Json × List Char) :=
  match fuel with
  | 0 => none
  | fuel + 1 =>
    match skipSpace cs with
    | 'n' :: 'u' :: 'l' :: 'l' :: rest => some (.null, rest)
    | 't' :: 'r' :: 'u' :: 'e' :: rest => some (.bool true, rest)
    | 'f' :: 'a' :: 'l' :: 's' :: 'e' :: rest => some (.bool false, rest)
    | '"' :: rest => (readString [] rest).map fun (s, rest) => (.string s, rest)
    | '[' :: rest =>
      match skipSpace rest with
      | ']' :: rest => some (.array [], rest)
      | rest => readItems fuel [] rest
    | '\x7b' :: rest =>
      match skipSpace rest with
      | '\x7d' :: rest => some (.object [], rest)
      | rest => readMembers fuel [] rest
    | rest => (readNumber rest).map fun (n, rest) => (.number n, rest)

/-- Reads the items of an array after those in `done`, which are in reverse. -/
def readItems (fuel : Nat) (done : List Json) (cs : List Char) : Option (Json × List Char) :=
  match fuel with
  | 0 => none
  | fuel + 1 =>
    match readValue fuel cs with
    | none => none
    | some (v, rest) =>
      match skipSpace rest with
      | ',' :: rest => readItems fuel (v :: done) rest
      | ']' :: rest => some (.array (v :: done).reverse, rest)
      | _ => none

/-- Reads the members of an object after those in `done`. -/
def readMembers (fuel : Nat) (done : Members) (cs : List Char) : Option (Json × List Char) :=
  match fuel with
  | 0 => none
  | fuel + 1 =>
    match skipSpace cs with
    | '"' :: rest =>
      match readString [] rest with
      | none => none
      | some (key, rest) =>
        match skipSpace rest with
        | ':' :: rest =>
          match readValue fuel rest with
          | none => none
          | some (v, rest) =>
            match skipSpace rest with
            | ',' :: rest => readMembers fuel (done.put key v) rest
            | '\x7d' :: rest => some (.object (done.put key v), rest)
            | _ => none
        | _ => none
    | _ => none

end

/-- Reads a whole text as one JSON value. -/
def parse? (s : String) : Option Json :=
  let cs := s.toList
  match readValue (2 * cs.length + 2) cs with
  | some (v, rest) => if (skipSpace rest).isEmpty then some v else none
  | none => none

end Scaffolding.Json
