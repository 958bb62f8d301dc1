import Scaffolding.Number.Double

/-!
# Numbers of documents and values

A number is an integer that fits 64 bits, signed or unsigned, or a finite double. An integer and a
double are different numbers even when they are equal in size, since they are written differently.
-/

set_option autoImplicit false

namespace Scaffolding

/-!
## The shortest decimal of a double

Of all decimals that round to a given double, `Double.shortest` takes one with the fewest digits,
and of those the one nearest to the double. The search goes through the grids of one, two, … up to
seventeen digits and looks at the two grid points next to the double: when any point of a grid
rounds to the double, one of these two does.

How the digits are laid out is a decision of the format that prints them, kept in one `Layout`.
-/

/-- A decimal `digits * 10 ^ power`. -/
structure Decimal where
  digits : Nat
  power : Int
  deriving DecidableEq, Repr

namespace Double

/-- Four times the coefficient, and the distances, in quarters of a unit, to the two ends of the
interval of reals that round to the double. Below a power of two the neighbour is half as far. -/
def interval (d : Double) : Nat × Nat × Nat :=
  let v := 4 * d.coefficient
  let below := if d.coefficient = Nat.pow 2 52 ∧ d.exponent ≠ -1074 then 1 else 2
  (v, v - below, v + 2)

/-- `num / den` compared on a grid of step `10 ^ power`: numerator and denominator of the quotient
`num / den / 10 ^ power`. -/
def scaleDecimal (num den : Nat) (power : Int) : Nat × Nat :=
  if 0 ≤ power then (num, den * Nat.pow 10 power.toNat)
  else (num * Nat.pow 10 (-power).toNat, den)

/-- How many times, at most `fuel`, a fraction below one is multiplied by ten until it is not. -/
def leadingZeros : Nat → Nat → Nat → Nat
  | 0, _, _ => 0
  | fuel + 1, num, den => if num * 10 < den then 1 + leadingZeros fuel (num * 10) den else 0

/-- The number of digits of `num / den` before the point; zero or less when it is below one tenth. -/
def magnitude (num den : Nat) : Int :=
  if den ≤ num then (digitCount (num / den) : Int) else -(leadingZeros 400 num den : Int)

/-- A point `p` of the grid of step `10 ^ power` rounds to the double `d`. The ends of the interval
belong to the doubles with an even coefficient. -/
def hits (d : Double) (power : Int) (p : Nat) : Bool :=
  let (_, low, high) := d.interval
  -- compare p * 10 ^ power with low and high, in units of 2 ^ (exponent - 2)
  let unit : Int := d.exponent - 2
  let (pn, pd) :=
    if 0 ≤ power then (p * Nat.pow 10 power.toNat, 1) else (p, Nat.pow 10 (-power).toNat)
  let (un, ud) := if 0 ≤ unit then (Nat.pow 2 unit.toNat, 1) else (1, Nat.pow 2 (-unit).toNat)
  let point := pn * ud
  let lowEnd := low * un * pd
  let highEnd := high * un * pd
  if d.coefficient % 2 = 0 then decide (lowEnd ≤ point) && decide (point ≤ highEnd)
  else decide (lowEnd < point) && decide (point < highEnd)

/-- The value of a double without its sign, as a fraction. -/
def fraction (d : Double) : Nat × Nat :=
  if 0 ≤ d.exponent then (d.coefficient * Nat.pow 2 d.exponent.toNat, 1)
  else (d.coefficient, Nat.pow 2 (-d.exponent).toNat)

/-- The point of the grid of `count` digits that rounds to the double, the nearer one of two. The
point after the last is a power of ten and has one digit. -/
def onGrid (d : Double) (count : Nat) : Option Decimal :=
  let (num, den) := d.fraction
  let power : Int := magnitude num den - count
  let (n, k) := scaleDecimal num den power
  let floor := n / k
  let rest := n % k
  let low := d.hits power floor
  let high := d.hits power (floor + 1)
  let takeLow := low && (!high || 2 * rest < k || (2 * rest == k && floor % 2 == 0))
  if takeLow then some ⟨floor, power⟩
  else if high then
    some (if floor + 1 = Nat.pow 10 count then ⟨1, power + count⟩ else ⟨floor + 1, power⟩)
  else none

/-- The first hit on the grids of `count`, `count + 1`, … digits, `fuel` grids at most. -/
def searchGrids (d : Double) : Nat → Nat → Option Decimal
  | 0, _ => none
  | fuel + 1, count =>
    match d.onGrid count with
    | some found => some found
    | none => searchGrids d fuel (count + 1)

/-- The shortest decimal that rounds to the double, without its sign. Seventeen digits always
suffice; a double whose search failed would be given by its exact integer part. -/
def shortest (d : Double) : Decimal :=
  if d.isZero then ⟨0, 0⟩
  else (searchGrids d 17 1).getD ⟨d.fraction.1 / d.fraction.2, 0⟩

end Double

/-- What a format decides about the text of a double. -/
structure Layout where
  /-- A point is written for numbers with at most this many digits before it. -/
  maxPlain : Int
  /-- A point is written for numbers with fewer zeros than this after it. -/
  maxZeros : Int
  /-- Whether an exponent that is not negative has a plus sign. -/
  plusSign : Bool

/-- The digits of a natural number in base ten. -/
def natChars (n : Nat) : List Char :=
  Nat.toDigits 10 n

/-- The number written by a list of decimal digits. -/
def digitsValue (digits : List Char) : Nat :=
  digits.foldl (fun n c => n * 10 + (c.toNat - '0'.toNat)) 0

/-- The text of an integer: a minus sign if it is negative, and its digits. -/
def intChars : Int → List Char
  | .ofNat n => natChars n
  | .negSucc n => '-' :: natChars (n + 1)

namespace Layout

def exponentChars (l : Layout) (e : Int) : List Char :=
  if 0 ≤ e ∧ l.plusSign = true then '+' :: intChars e else intChars e

/-- The text of a decimal that is not negative: with a point and at least one digit on either side
of it where the layout allows, with an exponent otherwise. -/
def decimalChars (l : Layout) (d : Decimal) : List Char :=
  let digits := natChars d.digits
  let length : Int := digits.length
  let before : Int := length + d.power
  if 0 ≤ d.power ∧ before ≤ l.maxPlain then
    digits ++ List.replicate d.power.toNat '0' ++ ['.', '0']
  else if 0 < before ∧ before ≤ l.maxPlain then
    digits.take before.toNat ++ '.' :: digits.drop before.toNat
  else if -l.maxZeros < before ∧ before ≤ 0 then
    '0' :: '.' :: (List.replicate (-before).toNat '0' ++ digits)
  else
    match digits with
    | [] => []
    | [c] => c :: 'e' :: l.exponentChars (before - 1)
    | c :: more => c :: '.' :: (more ++ 'e' :: l.exponentChars (before - 1))

def doubleChars (l : Layout) (d : Double) : List Char :=
  if d.negative then '-' :: l.decimalChars d.shortest else l.decimalChars d.shortest

end Layout

/-! ## Numbers -/

/-- An integer fits when a signed or an unsigned word of 64 bits holds it. -/
def Number.Fits (n : Int) : Prop :=
  -(Nat.pow 2 63 : Int) ≤ n ∧ n < (Nat.pow 2 64 : Int)

instance (n : Int) : Decidable (Number.Fits n) := by
  unfold Number.Fits; infer_instance

/-- A number: an integer of 64 bits or a finite double. -/
inductive Number
  | integer (value : Int) (fits : Number.Fits value)
  | double (value : Double)
  deriving DecidableEq

namespace Number

/-- The integer as a number, if it fits. -/
def ofInt? (n : Int) : Option Number :=
  if h : Fits n then some (.integer n h) else none

/-- The text of a number. Only the layout of doubles is a choice of the format. -/
def chars (layout : Layout) : Number → List Char
  | .integer n _ => intChars n
  | .double d => layout.doubleChars d

/-- The same number, as numbers are compared: the two zeros among the doubles are one number. -/
def sameValue : Number → Number → Bool
  | .integer a _, .integer b _ => a == b
  | .double a, .double b => a.sameValue b
  | _, _ => false

/-- A number is negative in writing when its text starts with a minus sign. -/
def isNegative : Number → Bool
  | .integer n _ => n < 0
  | .double d => d.negative

end Number

end Scaffolding
