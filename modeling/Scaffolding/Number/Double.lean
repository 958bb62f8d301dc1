/-!
# Finite doubles

A finite binary floating-point number of double precision is a sign, a coefficient below `2^53` and
a power of two. Every number has exactly one such form, so equality of the structure is equality of
the bit patterns: zero and negative zero differ.

`Double.ofDecimal?` rounds a decimal to the nearest double, a tie going to the even coefficient, in
exact arithmetic on natural numbers. It gives nothing when the decimal is too large for a finite
double.
-/

set_option autoImplicit false

namespace Scaffolding

/-- The forms a coefficient and an exponent may have: full precision, or the least exponent. -/
def Double.Normal (coefficient : Nat) (exponent : Int) : Prop :=
  coefficient < Nat.pow 2 53 ∧ -1074 ≤ exponent ∧ exponent ≤ 971 ∧
    (coefficient < Nat.pow 2 52 → exponent = -1074)

instance (coefficient : Nat) (exponent : Int) : Decidable (Double.Normal coefficient exponent) := by
  unfold Double.Normal; infer_instance

/-- The finite double `± coefficient * 2 ^ exponent`. -/
structure Double where
  negative : Bool
  coefficient : Nat
  exponent : Int
  normal : Double.Normal coefficient exponent
  deriving DecidableEq

namespace Double

def zero (negative : Bool) : Double :=
  ⟨negative, 0, -1074, by decide⟩

instance : Inhabited Double := ⟨zero false⟩

/-- The double with these parts, if they are a form a double has. -/
def ofParts? (negative : Bool) (coefficient : Nat) (exponent : Int) : Option Double :=
  if h : Normal coefficient exponent then some ⟨negative, coefficient, exponent, h⟩ else none

/-- Zero and negative zero are the two doubles with coefficient zero. -/
def isZero (d : Double) : Bool :=
  d.coefficient == 0

/-- The same number, as numbers are compared: the two zeros are one number. -/
def sameValue (a b : Double) : Bool :=
  a == b || (a.isZero && b.isZero)

/-- `num / den` rounded to the nearest natural number, a half going to the even neighbour. -/
def roundDiv (num den : Nat) : Nat :=
  let q := num / den
  let r := num % den
  if 2 * r < den then q
  else if den < 2 * r then q + 1
  else if q % 2 = 0 then q else q + 1

/-- `num / den * 2 ^ (-shift)` as a fraction of natural numbers. -/
def scaleBinary (num den : Nat) (shift : Int) : Nat × Nat :=
  if 0 ≤ shift then (num, den * Nat.pow 2 shift.toNat)
  else (num * Nat.pow 2 (-shift).toNat, den)

/-- The exponent of the double next to `num / den`: the one that gives the quotient 53 binary
digits, but never one below the least. -/
def exponentOf (num den : Nat) : Int :=
  let guess : Int := (num.log2 : Int) - (den.log2 : Int) - 52
  let (n, d) := scaleBinary num den guess
  let exact : Int := if n / d < Nat.pow 2 52 then guess - 1 else guess
  if exact < -1074 then -1074 else exact

/-- The double nearest to the fraction `num / den`, ties to even; nothing above the finite range. -/
def ofFraction? (negative : Bool) (num den : Nat) : Option Double :=
  if num = 0 then some (zero negative)
  else
    let e := exponentOf num den
    let (n, d) := scaleBinary num den e
    let m := roundDiv n d
    if m = Nat.pow 2 53 then ofParts? negative (Nat.pow 2 52) (e + 1) else ofParts? negative m e

/-- The number of decimal digits of a natural number; zero has one. -/
def digitCount (n : Nat) : Nat :=
  (Nat.toDigits 10 n).length

/-- The double nearest to `± digits * 10 ^ power`. A power that puts the number far outside the
range of doubles is settled without computing it. -/
def ofDecimal? (negative : Bool) (digits : Nat) (power : Int) : Option Double :=
  if digits = 0 then some (zero negative)
  else
    let magnitude : Int := power + digitCount digits
    if 400 < magnitude then none
    else if magnitude < -400 then some (zero negative)
    else if 0 ≤ power then ofFraction? negative (digits * Nat.pow 10 power.toNat) 1
    else ofFraction? negative digits (Nat.pow 10 (-power).toNat)

end Double

end Scaffolding
