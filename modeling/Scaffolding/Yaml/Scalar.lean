import Scaffolding.Json.Reader
import Scaffolding.Yaml.Cursor
import Scaffolding.Yaml.Node
import Scaffolding.Yaml.Value

/-!
# The meaning of scalars

A plain scalar without a tag means null, a boolean or a number when it is written as one, and a text
otherwise. Integers are decimal, or have one of the marks `0x`, `0o` and `0b`; digits after a leading
zero are a text. A decimal number with a point or an exponent is a double, and so is an integer that
is too large, but an integer between 64 and 128 bits is refused.
-/

set_option autoImplicit false

namespace Scaffolding.Yaml

def isNullWord (s : String) : Bool :=
  s == "null" || s == "Null" || s == "NULL" || s == "~"

/-- The boolean that a word means. -/
def boolWord? (s : String) : Option Bool :=
  if s == "true" || s == "True" || s == "TRUE" then some true
  else if s == "false" || s == "False" || s == "FALSE" then some false
  else none

/-- The number written by digits of a base, of which there must be one at least. -/
def digitsIn? (base : Nat) (cs : List Char) : Option Nat :=
  if cs.isEmpty then none
  else cs.foldlM (fun n c => (Json.hexValue? c).bind fun d =>
    if d < base then some (n * base + d) else none) 0

/-- The number written by digits after the mark of their base. -/
def marked? : List Char → Option Nat
  | '0' :: 'x' :: rest => digitsIn? 16 rest
  | '0' :: 'o' :: rest => digitsIn? 8 rest
  | '0' :: 'b' :: rest => digitsIn? 2 rest
  | _ => none

/-- Digits of which the first of several is zero, perhaps after a sign. -/
def hasLeadingZero (cs : List Char) : Bool :=
  let digits := match cs with
    | '-' :: rest | '+' :: rest => rest
    | _ => cs
  digits.head? == some '0' && decide (1 < digits.length) && digits.all Char.isDigit

/-- The number written by decimal digits or by digits with a mark. -/
def magnitude? (cs : List Char) : Option Nat :=
  if hasLeadingZero cs then none else (marked? cs).or (digitsIn? 10 cs)

/-- The integer that a text writes, of any size. A text with two signs writes none. -/
def integer? (cs : List Char) : Option Int :=
  match cs with
  | '-' :: rest => (magnitude? rest).map fun n => -(n : Int)
  | '+' :: rest => (magnitude? rest).map fun n => (n : Int)
  | _ => (magnitude? cs).map fun n => (n : Int)

/-- The decimal that a text writes: digits, perhaps with a point before, in or after them, and
perhaps an exponent. Gives the digits as one number and the power of ten. -/
def decimal? (cs : List Char) : Option (Nat × Int) := do
  let whole := cs.takeWhile Char.isDigit
  let rest := cs.dropWhile Char.isDigit
  let (fraction, rest) := match rest with
    | '.' :: more => (more.takeWhile Char.isDigit, more.dropWhile Char.isDigit)
    | _ => ([], rest)
  if whole.isEmpty ∧ fraction.isEmpty then none
  let digits := digitsValue (whole ++ fraction)
  let places : Int := fraction.length
  match rest with
  | [] => some (digits, -places)
  | e :: more =>
    if e != 'e' && e != 'E' then none
    let (minus, exponent) := match more with
      | '-' :: more => (true, more)
      | '+' :: more => (false, more)
      | _ => (false, more)
    if exponent.isEmpty || !exponent.all Char.isDigit then none
    let power : Int := digitsValue exponent
    some (digits, (if minus then -power else power) - places)

/-- The double that a text writes. A decimal too large for a finite double writes none. -/
def double? (cs : List Char) : Option Double :=
  match cs with
  | '-' :: rest => (decimal? rest).bind fun (n, p) => Double.ofDecimal? true n p
  | '+' :: rest => (decimal? rest).bind fun (n, p) => Double.ofDecimal? false n p
  | _ => (decimal? cs).bind fun (n, p) => Double.ofDecimal? false n p

/-- The words for the infinities and for what is no number. -/
def specialNumber? (s : String) : Option Numeral :=
  if s == ".inf" || s == ".Inf" || s == ".INF" || s == "+.inf" || s == "+.Inf" || s == "+.INF" then
    some (.infinity false)
  else if s == "-.inf" || s == "-.Inf" || s == "-.INF" then some (.infinity true)
  else if s == ".nan" || s == ".NaN" || s == ".NAN" then some .notANumber
  else none

/-- The number other than an integer that a text writes. -/
def fractional? (s : String) : Option Numeral :=
  (specialNumber? s).or ((double? s.toList).map fun d => .finite (.double d))

/-- The integer that a text writes, if it writes one of at most 128 bits; then one of more than 64
bits is an error. -/
def integerValue? (s : String) : Option (Except Error Value) :=
  match integer? s.toList with
  | none => none
  | some n =>
    match Number.ofInt? n with
    | some number => some (.ok (.number (.finite number)))
    | none =>
      if -(Nat.pow 2 127 : Int) ≤ n ∧ n < (Nat.pow 2 128 : Int) then some (.error .integerRange)
      else none

def plainValue (s : String) : Except Error Value :=
  if s.isEmpty || isNullWord s then .ok .null
  else
    match boolWord? s with
    | some b => .ok (.bool b)
    | none =>
      match integerValue? s with
      | some result => result
      | none =>
        if hasLeadingZero s.toList then .ok (.string s)
        else
          match fractional? s with
          | some n => .ok (.number n)
          | none => .ok (.string s)

/-- A tag of the standard set, by its name. -/
def Tag.isStandard (tag : Tag) (name : String) : Bool :=
  tag.bytes == ("tag:yaml.org,2002:" ++ name).toUTF8.toList

/-- A tag that starts with an exclamation mark. -/
def Tag.isLocal (tag : Tag) : Bool :=
  tag.bytes.head? == some '!'.toNat.toUInt8

/-- The name of a local tag without its mark; a mark alone is its own name. -/
def Tag.localName? (tag : Tag) : Option String :=
  if tag.isLocal then
    let name := if tag.bytes.length = 1 then tag.bytes else tag.bytes.drop 1
    String.fromUTF8? ⟨name.toArray⟩
  else none

/-- The meaning of a scalar with a tag that counts. -/
def taggedScalar (tag : Tag) (style : Style) (s : String) : Except Error Value :=
  if tag.isStandard "bool" then (boolWord? s).elim (.error .wrongShape) fun b => .ok (.bool b)
  else if tag.isStandard "int" then (integerValue? s).getD (.error .wrongShape)
  else if tag.isStandard "float" then
    (fractional? s).elim (.error .wrongShape) fun n => .ok (.number n)
  else if tag.isStandard "null" then
    if isNullWord s then .ok .null else .error .wrongShape
  else if tag.isLocal ∧ style = .plain then plainValue s
  else .ok (.string s)

/-- The meaning of a scalar; `tag` is the tag that counts. -/
def scalarValue (tag : Option Tag) (style : Style) (s : String) : Except Error Value :=
  match tag with
  | some tag => taggedScalar tag style s
  | none => if style = .plain then plainValue s else .ok (.string s)

end Scaffolding.Yaml
