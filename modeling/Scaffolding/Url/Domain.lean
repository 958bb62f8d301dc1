import Scaffolding.Text.Hidden
import Scaffolding.Url.Host

/-!
# Domains

A domain is read from its percent escapes and written in ASCII: letters become small, and a label
with other characters is written in Punycode after the mark `xn--`.
-/

set_option autoImplicit false

namespace Scaffolding.Url

/-! ## Punycode -/

/-- The digit of Punycode for a number below thirty-six: the letters, then the digits. -/
def punycodeDigit (n : Nat) : Char :=
  if n < 26 then Char.ofNat ('a'.toNat + n) else Char.ofNat ('0'.toNat + (n - 26))

/-- Divides a delta until it is small, counting the divisions; `fuel` bounds them. -/
def shrinkDelta : Nat → Nat → Nat → Nat
  | 0, _, k => k
  | fuel + 1, delta, k =>
    if 455 < delta then shrinkDelta fuel (delta / 35) (k + 36) else k + 36 * delta / (delta + 38)

/-- The next bias after a delta, for a number of characters written. -/
def adaptBias (delta written : Nat) (first : Bool) : Nat :=
  let delta := if first then delta / 700 else delta / 2
  shrinkDelta 20 (delta + delta / written) 0

/-- A delta in digits of varying base; `fuel` bounds their number. -/
def deltaDigits (bias : Nat) : Nat → Nat → Nat → List Char
  | 0, _, _ => []
  | fuel + 1, q, k =>
    let t := if k ≤ bias then 1 else if bias + 26 ≤ k then 26 else k - bias
    if q < t then [punycodeDigit q]
    else punycodeDigit (t + (q - t) % (36 - t)) :: deltaDigits bias fuel ((q - t) / (36 - t)) (k + 36)

/-- The state of writing a label in Punycode. -/
structure Punycode where
  written : Nat
  delta : Nat
  bias : Nat
  text : List Char

/-- Goes over the label once for the code point `n`: lower ones count, equal ones are written. -/
def punycodePass (n basic : Nat) (label : List Char) (s : Punycode) : Punycode :=
  label.foldl (fun s c =>
    if c.toNat < n then { s with delta := s.delta + 1 }
    else if c.toNat = n then
      { written := s.written + 1, delta := 0,
        bias := adaptBias s.delta (s.written + 1) (s.written == basic),
        text := s.text ++ deltaDigits s.bias 64 s.delta 36 }
    else s) s

/-- Writes the characters of a label from the code point `n` upwards. -/
def punycodeLoop (basic : Nat) (label : List Char) : Nat → Nat → Punycode → Punycode
  | 0, _, s => s
  | fuel + 1, n, s =>
    match ((label.map Char.toNat).filter (n ≤ ·)).min? with
    | none => s
    | some m =>
      let s := punycodePass m basic label { s with delta := s.delta + (m - n) * (s.written + 1) }
      punycodeLoop basic label fuel (m + 1) { s with delta := s.delta + 1 }

def punycode (label : List Char) : List Char :=
  let plain := label.filter fun c => decide (c.toNat < 0x80)
  let start := if plain.isEmpty then [] else plain ++ ['-']
  (punycodeLoop plain.length label label.length 0x80 ⟨plain.length, 0, 72, start⟩).text

/-! ## Domains -/

/-- The small letter for a capital letter of the Latin, Greek and Cyrillic alphabets. -/
def domainLetter (c : Char) : Char :=
  let n := c.toNat
  if n < 0x80 then c.toLower
  else if (0xC0 ≤ n ∧ n ≤ 0xDE ∧ n ≠ 0xD7) ∨ (0x391 ≤ n ∧ n ≤ 0x3A9) ∨ (0x410 ≤ n ∧ n ≤ 0x42F) then
    Char.ofNat (n + 32)
  else if 0x400 ≤ n ∧ n ≤ 0x40F then Char.ofNat (n + 80)
  else if 0xFF01 ≤ n ∧ n ≤ 0xFF5E then (Char.ofNat (n - 0xFEE0)).toLower
  else if n = 0x3002 ∨ n = 0xFF61 then '.'
  else c

def asciiLabel (label : List Char) : List Char :=
  if label.all fun c => decide (c.toNat < 0x80) then label
  else 'x' :: 'n' :: '-' :: '-' :: punycode label

/-- The characters that do not count in a domain: the soft hyphen, marks without a width, and the
selectors of variants. -/
def isIgnoredInDomain (c : Char) : Bool :=
  let n := c.toNat
  n == 0xAD || n == 0x200B || n == 0x2060 || n == 0x2064 || n == 0xFEFF ||
    (decide (0xFE00 ≤ n) && decide (n ≤ 0xFE0F))

/-- A domain in ASCII. Characters that do not count are dropped, and others that do not show are
refused. -/
def asciiDomain? (name : List Char) : Option (List Char) :=
  let letters := (name.filter fun c => !isIgnoredInDomain c).map domainLetter
  if letters.any fun c => decide (0x80 ≤ c.toNat) && Text.isHidden c then none
  else
    let ascii := Text.joinChars '.' ((Text.splitChars '.' letters).map asciiLabel)
    if ascii.any forbiddenInDomain then none else some ascii

/-- Reads a host of one of the known schemes. -/
def readHost (cs : List Char) : Except Error Host :=
  if cs.head? == some '[' then readBracketed cs
  else
    match (Text.decode? (decodeBytes cs)).bind asciiDomain? with
    | none => .error .invalidDomain
    | some name =>
      if name.isEmpty then .error .emptyHost
      else if endsInNumber name then
        match ipv4? name with
        | some address => .ok (.ipv4 address)
        | none => .error .invalidIpv4
      else .ok (.domain name)

/-- Reads a host of any other scheme, which is kept as it is written. -/
def readOtherHost (cs : List Char) : Except Error Host :=
  if cs.head? == some '[' then readBracketed cs
  else if cs.any forbiddenInHost then .error .invalidCharacter
  else .ok (.domain (encode plainInOther cs))

end Scaffolding.Url
