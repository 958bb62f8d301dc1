import Mathlib.Algebra.Order.Field.Power
import Mathlib.Data.Rat.Cast.Order
import Mathlib.Tactic.FieldSimp
import Mathlib.Tactic.Linarith
import Mathlib.Tactic.Positivity
import Mathlib.Tactic.Ring
import Scaffolding.Proofs.Number.Digits

/-!
# Shortest decimals round back

The numbers that round to a double are an interval around it, and the intervals of two doubles do not
meet: where one ends as the next one starts, only one of the two has an even coefficient, and to that
one the end belongs. A number therefore rounds to one double only.

The shortest decimal of a double is a point of the first grid that has one in its interval. On the
grid of seventeen digits the points next to the double are closer together than the ends of the
interval, so one of them is in it and the search ends. Hence the shortest decimal rounds to its
double, and doubles of one sign with the same shortest decimal are the same.
-/

set_option autoImplicit false

namespace Scaffolding

/-- The value of a decimal. -/
def Decimal.value (x : Decimal) : ℚ :=
  x.digits * 10 ^ x.power

/-- A number times a power, as a fraction that has the power in the denominator if its exponent is
negative. -/
theorem scaled_eq {base : ℕ} (hbase : 0 < base) (x : ℕ) (e : ℤ) {q : ℕ × ℕ}
    (hq : q = if 0 ≤ e then (x * Nat.pow base e.toNat, 1) else (x, Nat.pow base (-e).toNat)) :
    0 < q.2 ∧ (q.1 : ℚ) = x * (base : ℚ) ^ e * q.2 := by
  subst hq
  split
  · next he =>
    obtain ⟨n, rfl⟩ := Int.eq_ofNat_of_zero_le he
    simp
  · next he =>
    obtain ⟨n, hn⟩ := Int.eq_ofNat_of_zero_le (show 0 ≤ -e by omega)
    have hpow : 0 < base ^ n := Nat.pow_pos hbase
    rw [hn, show e = -(n : ℤ) by omega]
    refine ⟨hpow, ?_⟩
    rw [zpow_neg, zpow_natCast]
    have hne : (base : ℚ) ^ n ≠ 0 := by positivity
    simp [hne]

namespace Double

/-- The value of a double without its sign. -/
def size (d : Double) : ℚ :=
  d.coefficient * 2 ^ d.exponent

/-- The lower end of the interval of the numbers that round to a double. -/
def low (d : Double) : ℚ :=
  d.interval.2.1 * 2 ^ (d.exponent - 2)

def high (d : Double) : ℚ :=
  d.interval.2.2 * 2 ^ (d.exponent - 2)

/-- A number rounds to a double, signs aside. The ends of the interval belong to the doubles with an
even coefficient. -/
def Rounds (x : ℚ) (d : Double) : Prop :=
  (d.low < x ∨ d.coefficient % 2 = 0 ∧ d.low = x) ∧
    (x < d.high ∨ d.coefficient % 2 = 0 ∧ x = d.high)

/-- A grid point that hits a double is one that rounds to it. -/
theorem hits_iff (d : Double) (power : ℤ) (p : ℕ) :
    d.hits power p = true ↔ Rounds (p * 10 ^ power) d := by
  unfold hits Rounds low high
  dsimp only
  have hunit : (if 0 ≤ d.exponent - 2 then (Nat.pow 2 (d.exponent - 2).toNat, 1)
      else (1, Nat.pow 2 (-(d.exponent - 2)).toNat)) =
        if 0 ≤ d.exponent - 2 then (1 * Nat.pow 2 (d.exponent - 2).toNat, 1)
          else (1, Nat.pow 2 (-(d.exponent - 2)).toNat) := by
    rw [Nat.one_mul]
  rw [hunit]
  generalize hu : (if 0 ≤ d.exponent - 2 then (1 * Nat.pow 2 (d.exponent - 2).toNat, 1)
    else (1, Nat.pow 2 (-(d.exponent - 2)).toNat)) = u
  generalize hq : (if 0 ≤ power then (p * Nat.pow 10 power.toNat, 1)
    else (p, Nat.pow 10 (-power).toNat)) = q
  obtain ⟨hu0, hu⟩ := scaled_eq (by decide) 1 (d.exponent - 2) hu.symm
  obtain ⟨hq0, hq⟩ := scaled_eq (by decide) p power hq.symm
  push_cast at hu hq
  rw [one_mul] at hu
  -- both sides are compared in units of the common denominator
  have hden : (0 : ℚ) < u.2 * q.2 := by positivity
  have hpoint : ((q.1 * u.2 : ℕ) : ℚ) = p * 10 ^ power * (u.2 * q.2) := by
    push_cast
    rw [hq]
    ring
  have hend (a : ℕ) : ((a * u.1 * q.2 : ℕ) : ℚ) = a * 2 ^ (d.exponent - 2) * (u.2 * q.2) := by
    push_cast
    rw [hu]
    ring
  split
  · next heven =>
    rw [Bool.and_eq_true, decide_eq_true_eq, decide_eq_true_eq, ← @Nat.cast_le ℚ,
      ← @Nat.cast_le ℚ, hpoint, hend, hend, mul_le_mul_iff_left₀ hden, mul_le_mul_iff_left₀ hden]
    simp only [heven, true_and, le_iff_lt_or_eq]
  · next hodd =>
    rw [Bool.and_eq_true, decide_eq_true_eq, decide_eq_true_eq, ← @Nat.cast_lt ℚ,
      ← @Nat.cast_lt ℚ, hpoint, hend, hend, mul_lt_mul_iff_left₀ hden, mul_lt_mul_iff_left₀ hden]
    simp only [hodd, false_and, or_false]

/-! ## Intervals do not meet -/

/-- The interval of a double ends where that of a greater one starts, or before. Where they meet, one
of the two does not have the end. -/
theorem interval_le {a b : Double} {k : ℕ} (hk : b.exponent = a.exponent + k)
    (hlt : k = 0 → a.coefficient < b.coefficient) :
    a.interval.2.2 ≤ b.interval.2.1 * 2 ^ k ∧
      (a.interval.2.2 = b.interval.2.1 * 2 ^ k →
        ¬ (a.coefficient % 2 = 0 ∧ b.coefficient % 2 = 0)) := by
  obtain ⟨ha, hleast, -, -⟩ := a.normal
  obtain ⟨-, -, -, hfull⟩ := b.normal
  rw [show Nat.pow 2 53 = 9007199254740992 from rfl] at ha
  rw [show Nat.pow 2 52 = 4503599627370496 from rfl] at hfull
  change 4 * a.coefficient + 2 ≤ _ ∧ (4 * a.coefficient + 2 = _ → _)
  generalize hlow : b.interval.2.1 = low
  change (4 * b.coefficient -
    if b.coefficient = 4503599627370496 ∧ b.exponent ≠ -1074 then 1 else 2) = low at hlow
  rcases Nat.eq_zero_or_pos k with rfl | hpos
  · have hnext := hlt rfl
    split at hlow <;> omega
  · -- the greater double has full precision, so that its interval starts at the power of two at least
    have hstart : 18014398509481983 ≤ low := by
      have hprecise : 4503599627370496 ≤ b.coefficient := by
        by_contra hsmall
        have hexponent := hfull (by omega)
        omega
      split at hlow <;> omega
    have hdouble : low * 2 ≤ low * 2 ^ k :=
      Nat.mul_le_mul_left low (Nat.pow_le_pow_right (by decide) hpos : 2 ^ 1 ≤ 2 ^ k)
    generalize low * 2 ^ k = start at hdouble ⊢
    omega

/-- Of two doubles, the smaller one has its interval before that of the other. -/
theorem not_rounds_of_lt {x : ℚ} {a b : Double} {k : ℕ} (hk : b.exponent = a.exponent + k)
    (hlt : k = 0 → a.coefficient < b.coefficient) (ha : Rounds x a) : ¬ Rounds x b := by
  intro hb
  obtain ⟨hle, hmeet⟩ := interval_le hk hlt
  have hunit : (0 : ℚ) < 2 ^ (a.exponent - 2) := by positivity
  have hstart : b.low = (b.interval.2.1 * 2 ^ k : ℕ) * 2 ^ (a.exponent - 2) := by
    rw [low, hk, show a.exponent + (k : ℤ) - 2 = k + (a.exponent - 2) by ring,
      zpow_add₀ (by norm_num), zpow_natCast]
    push_cast
    ring
  have hends : a.high ≤ b.low := by
    rw [hstart, high]
    exact mul_le_mul_of_nonneg_right (by exact_mod_cast hle) hunit.le
  -- a number in both intervals is the end of the one and the start of the other
  have hupper := ha.2
  have hlower := hb.1
  rcases hupper with hupper | ⟨heven, hupper⟩
  · rcases hlower with hlower | ⟨-, hlower⟩ <;> linarith
  · rcases hlower with hlower | ⟨heven', hlower⟩
    · linarith
    · refine hmeet ?_ ⟨heven, heven'⟩
      have heq : a.high = b.low := hupper.symm.trans hlower.symm
      rw [hstart, high] at heq
      exact_mod_cast mul_right_cancel₀ hunit.ne' heq

/-- A number rounds to one double only. -/
theorem Rounds.unique {x : ℚ} {a b : Double} (ha : Rounds x a) (hb : Rounds x b) :
    a.coefficient = b.coefficient ∧ a.exponent = b.exponent := by
  rcases lt_trichotomy a.exponent b.exponent with hlt | heq | hlt
  · obtain ⟨k, hk⟩ := Int.eq_ofNat_of_zero_le (show 0 ≤ b.exponent - a.exponent by omega)
    exact absurd hb (not_rounds_of_lt (k := k) (by omega) (by omega) ha)
  · refine ⟨?_, heq⟩
    rcases lt_trichotomy a.coefficient b.coefficient with hlt | heq' | hlt
    · exact absurd hb (not_rounds_of_lt (k := 0) (by simp [heq]) (fun _ => hlt) ha)
    · exact heq'
    · exact absurd ha (not_rounds_of_lt (k := 0) (by simp [heq]) (fun _ => hlt) hb)
  · obtain ⟨k, hk⟩ := Int.eq_ofNat_of_zero_le (show 0 ≤ a.exponent - b.exponent by omega)
    exact absurd ha (not_rounds_of_lt (k := k) (by omega) (by omega) hb)

/-! ## The search ends -/

/-- A number is at least as great as the power of ten with as many digits. -/
theorem pow_digitCount_le {n : ℕ} (hn : n ≠ 0) : 10 ^ (digitCount n - 1) ≤ n := by
  have hlength := @Nat.length_toDigits_le_iff 10 n (digitCount n - 1) (by decide)
  unfold digitCount at hlength ⊢
  rcases Nat.eq_zero_or_pos ((Nat.toDigits 10 n).length - 1) with hone | hmore
  · rw [hone]
    omega
  · have hle := (hlength hmore).not.mp (by omega)
    omega

/-- Multiplying a fraction below one by ten until it is not leaves no more zeros than there are. -/
theorem le_pow_leadingZeros {fuel num den : ℕ} (hfuel : den ≤ num * 10 ^ (fuel + 1)) :
    den ≤ num * 10 ^ (leadingZeros fuel num den + 1) := by
  induction fuel generalizing num with
  | zero => exact hfuel
  | succ fuel ih =>
    unfold leadingZeros
    split
    · have hnext := @ih (num * 10) (by rw [mul_assoc, ← pow_succ']; exact hfuel)
      rw [mul_assoc, ← pow_succ'] at hnext
      rwa [Nat.add_comm 1]
    · next hlarge =>
      rw [zero_add, pow_one]
      omega

/-- The magnitude of a fraction is not too large: its first digit is not zero. -/
theorem pow_magnitude_le {num den : ℕ} (hden : 0 < den)
    (hsmall : den ≤ num * 10 ^ (400 + 1)) : (10 : ℚ) ^ (magnitude num den - 1) * den ≤ num := by
  unfold magnitude
  split
  · next hle =>
    have hquotient : num / den ≠ 0 := (Nat.div_pos hle hden).ne'
    have hdigits : 0 < digitCount (num / den) := Nat.length_toDigits_pos
    have hpow : 10 ^ (digitCount (num / den) - 1) * den ≤ num :=
      calc 10 ^ (digitCount (num / den) - 1) * den
          ≤ num / den * den := Nat.mul_le_mul_right den (pow_digitCount_le hquotient)
        _ ≤ num := Nat.div_mul_le_self num den
    rw [show (digitCount (num / den) : ℤ) - 1 = (digitCount (num / den) - 1 : ℕ) by omega,
      zpow_natCast]
    exact_mod_cast hpow
  · have hzeros := le_pow_leadingZeros hsmall
    rw [show -(leadingZeros 400 num den : ℤ) - 1 = -((leadingZeros 400 num den + 1 : ℕ) : ℤ) by
      push_cast; ring, zpow_neg, zpow_natCast]
    have hpow : (0 : ℚ) < 10 ^ (leadingZeros 400 num den + 1) := by positivity
    rw [inv_mul_le_iff₀ hpow, mul_comm]
    exact_mod_cast hzeros

/-- The size of a double is a fraction of natural numbers. -/
theorem fraction_eq (d : Double) :
    0 < d.fraction.2 ∧ (d.fraction.1 : ℚ) = d.size * d.fraction.2 := by
  have hscaled := scaled_eq (by decide) d.coefficient d.exponent (q := d.fraction) rfl
  exact_mod_cast hscaled

/-- A fraction is compared on a grid as its quotient by the step. -/
theorem scaleDecimal_eq {num den : ℕ} (hden : 0 < den) (power : ℤ) :
    0 < (scaleDecimal num den power).2 ∧
      ((scaleDecimal num den power).1 : ℚ) * 10 ^ power * den =
        num * (scaleDecimal num den power).2 := by
  unfold scaleDecimal
  split
  · next hpower =>
    obtain ⟨n, rfl⟩ := Int.eq_ofNat_of_zero_le hpower
    refine ⟨Nat.mul_pos hden (Nat.pow_pos (by decide)), ?_⟩
    simp
    ring
  · next hpower =>
    obtain ⟨n, hn⟩ := Int.eq_ofNat_of_zero_le (show 0 ≤ -power by omega)
    refine ⟨hden, ?_⟩
    rw [hn, show power = -(n : ℤ) by omega, zpow_neg, zpow_natCast]
    have hne : (10 : ℚ) ^ n ≠ 0 := by positivity
    simp [hne]

/-- The least double is not too small for the search. -/
theorem fraction_small {d : Double} (h : d.coefficient ≠ 0) :
    d.fraction.2 ≤ d.fraction.1 * 10 ^ (400 + 1) := by
  have hone : 1 ≤ d.coefficient := by omega
  obtain ⟨-, hleast, -, -⟩ := d.normal
  unfold fraction
  split
  · exact Nat.mul_pos (Nat.mul_pos hone (Nat.pow_pos (by decide))) (by positivity)
  · have hden (n : ℕ) (hn : (-d.exponent).toNat ≤ n) : Nat.pow 2 (-d.exponent).toNat ≤ 2 ^ n :=
      Nat.pow_le_pow_right (by decide) hn
    have hpow : 2 ^ 1074 ≤ 10 ^ (400 + 1) := by decide +kernel
    calc Nat.pow 2 (-d.exponent).toNat
        ≤ 1 * 10 ^ (400 + 1) := by
          rw [one_mul]
          exact (hden 1074 (by omega)).trans hpow
      _ ≤ d.coefficient * 10 ^ (400 + 1) := Nat.mul_le_mul_right _ hone

/-- The interval of a double around its size: a quarter of a unit or half a unit below, and half a
unit above. -/
theorem ends_eq {d : Double} (h : d.coefficient ≠ 0) :
    d.size = 4 * d.coefficient * 2 ^ (d.exponent - 2) ∧
      d.high = d.size + 2 * 2 ^ (d.exponent - 2) ∧
      (d.coefficient = 4503599627370496 ∧ d.low = d.size - 2 ^ (d.exponent - 2) ∨
        d.low = d.size - 2 * 2 ^ (d.exponent - 2)) := by
  have hsize : d.size = 4 * d.coefficient * 2 ^ (d.exponent - 2) := by
    rw [size, show d.exponent = d.exponent - 2 + 2 by ring, zpow_add₀ (by norm_num)]
    norm_num
    ring
  refine ⟨hsize, ?_, ?_⟩
  · rw [high, hsize]
    unfold interval
    push_cast
    ring
  · rw [low, hsize]
    unfold interval
    dsimp only
    split
    · next hpower =>
      refine .inl ⟨hpower.1, ?_⟩
      rw [Nat.cast_sub (by omega)]
      push_cast
      ring
    · refine .inr ?_
      rw [Nat.cast_sub (by omega)]
      push_cast
      ring

/-- On the grid of seventeen digits one of the two points next to a double rounds to it, since the
points are less than a unit apart. -/
theorem rounds_floor_or_next {d : Double} (h : d.coefficient ≠ 0) {power : ℤ} {floor : ℕ}
    (hstep : (10 : ℚ) ^ (power + 16) ≤ d.size) (hfloor : floor * (10 : ℚ) ^ power ≤ d.size)
    (hnext : d.size < (floor + 1 : ℕ) * (10 : ℚ) ^ power) :
    Rounds (floor * 10 ^ power) d ∨ Rounds ((floor + 1 : ℕ) * 10 ^ power) d := by
  obtain ⟨hlarge, -, -, -⟩ := d.normal
  rw [show Nat.pow 2 53 = 9007199254740992 from rfl] at hlarge
  have hlarge : (d.coefficient : ℚ) ≤ 9007199254740991 := by exact_mod_cast Nat.le_of_lt_succ hlarge
  have hpow : (10 : ℚ) ^ (power + 16) = 10 ^ power * 10000000000000000 := by
    rw [zpow_add₀ (by norm_num)]
    norm_num
  obtain ⟨hsize, hhigh, hlow⟩ := ends_eq h
  have hquarter : (0 : ℚ) < 2 ^ (d.exponent - 2) := by positivity
  have hbound : (10 : ℚ) ^ power * 10000000000000000 ≤ 4 * d.coefficient * 2 ^ (d.exponent - 2) := by
    rw [← hpow, ← hsize]
    exact hstep
  unfold Rounds
  push_cast at hnext ⊢
  rw [add_mul, one_mul] at hnext ⊢
  generalize (10 : ℚ) ^ power = step at hfloor hnext hbound ⊢
  generalize (2 : ℚ) ^ (d.exponent - 2) = quarter at hhigh hlow hquarter hbound
  rcases hlow with ⟨hcoefficient, hlow⟩ | hlow
  · -- at a power of two the next point is near enough from above
    rw [hcoefficient] at hbound
    push_cast at hbound
    exact .inr ⟨.inl (by linarith), .inl (by linarith)⟩
  · have hcoefficient : 4 * (d.coefficient : ℚ) * quarter ≤ 4 * 9007199254740991 * quarter := by
      gcongr
    by_cases hnear : d.size - floor * step < 2 * quarter
    · exact .inl ⟨.inl (by linarith), .inl (by linarith)⟩
    · exact .inr ⟨.inl (by linarith), .inl (by linarith)⟩

/-- The power of ten by which the points of a grid count. -/
def gridPower (d : Double) (count : ℕ) : ℤ :=
  magnitude d.fraction.1 d.fraction.2 - count

/-- The last point of a grid that is not above the double. -/
def gridFloor (d : Double) (count : ℕ) : ℕ :=
  (scaleDecimal d.fraction.1 d.fraction.2 (d.gridPower count)).1 /
    (scaleDecimal d.fraction.1 d.fraction.2 (d.gridPower count)).2

/-- A grid takes its last point or the one after it, whichever rounds to the double. Which of them is
nearer only matters if both do. -/
theorem onGrid_eq (d : Double) (count : ℕ) : ∃ nearer tie : Bool,
    d.onGrid count =
      if (d.hits (d.gridPower count) (d.gridFloor count) &&
          (!d.hits (d.gridPower count) (d.gridFloor count + 1) || nearer || tie)) = true then
        some ⟨d.gridFloor count, d.gridPower count⟩
      else if d.hits (d.gridPower count) (d.gridFloor count + 1) = true then
        some (if d.gridFloor count + 1 = Nat.pow 10 count then ⟨1, d.gridPower count + count⟩
          else ⟨d.gridFloor count + 1, d.gridPower count⟩)
      else none :=
  ⟨_, _, rfl⟩

/-- What a grid gives rounds to the double. -/
theorem rounds_of_onGrid {d : Double} {count : ℕ} {found : Decimal}
    (h : d.onGrid count = some found) : Rounds found.value d := by
  obtain ⟨nearer, tie, hgrid⟩ := d.onGrid_eq count
  rw [hgrid] at h
  split at h
  · next hlow =>
    cases h
    rw [Bool.and_eq_true] at hlow
    exact (hits_iff d _ _).mp hlow.1
  · split at h
    · next hhigh =>
      have hrounds := (hits_iff d _ _).mp hhigh
      split at h
      · next hpower =>
        -- the point after the last one is a power of ten
        cases h
        rw [hpower] at hrounds
        convert hrounds using 1
        simp only [Decimal.value, Nat.pow_eq]
        push_cast
        rw [one_mul, zpow_add₀ (by norm_num), mul_comm, zpow_natCast]
      · cases h
        exact hrounds
    · cases h

/-- Where a grid has no point for a double, the two points next to the double miss it. -/
theorem not_hits_of_onGrid {d : Double} {count : ℕ} (h : d.onGrid count = none) :
    d.hits (d.gridPower count) (d.gridFloor count) = false ∧
      d.hits (d.gridPower count) (d.gridFloor count + 1) = false := by
  obtain ⟨nearer, tie, hgrid⟩ := d.onGrid_eq count
  rw [hgrid] at h
  split at h
  · cases h
  · next hlow =>
    split at h
    · cases h
    · next hhigh =>
      rw [Bool.not_eq_true] at hhigh
      refine ⟨?_, hhigh⟩
      simpa [hhigh] using hlow

/-- The search ends at a decimal that rounds to the double, or no grid that it looked at has one. -/
theorem searchGrids_cases {d : Double} {fuel count : ℕ} :
    (∃ found, d.searchGrids fuel count = some found ∧ Rounds found.value d) ∨
      ∀ n, count ≤ n → n < count + fuel → d.onGrid n = none := by
  induction fuel generalizing count with
  | zero => exact .inr fun n hle hlt => absurd hlt (by omega)
  | succ fuel ih =>
    unfold searchGrids
    cases hgrid : d.onGrid count with
    | some found => exact .inl ⟨found, rfl, rounds_of_onGrid hgrid⟩
    | none =>
      refine (@ih (count + 1)).imp id fun hrest n hle hlt => ?_
      rcases Nat.eq_or_lt_of_le hle with rfl | hlater
      · exact hgrid
      · exact hrest n hlater (by omega)

/-- A double lies between two points of a grid. -/
theorem between_points (d : Double) (count : ℕ) :
    d.gridFloor count * (10 : ℚ) ^ d.gridPower count ≤ d.size ∧
      d.size < (d.gridFloor count + 1 : ℕ) * (10 : ℚ) ^ d.gridPower count := by
  obtain ⟨hden, hfraction⟩ := fraction_eq d
  obtain ⟨hk, hscale⟩ := @scaleDecimal_eq d.fraction.1 d.fraction.2 hden (d.gridPower count)
  unfold gridFloor
  generalize scaleDecimal d.fraction.1 d.fraction.2 (d.gridPower count) = q at hk hscale ⊢
  have hden' : (0 : ℚ) < d.fraction.2 := by exact_mod_cast hden
  have hk' : (0 : ℚ) < q.2 := by exact_mod_cast hk
  have hpower : (0 : ℚ) < 10 ^ d.gridPower count := by positivity
  have hsize : (q.1 : ℚ) * 10 ^ d.gridPower count = d.size * q.2 := by
    rw [hfraction, mul_right_comm d.size] at hscale
    exact mul_right_cancel₀ hden'.ne' hscale
  have hfloor : ((q.1 / q.2 : ℕ) : ℚ) * q.2 ≤ q.1 := by
    exact_mod_cast Nat.div_mul_le_self q.1 q.2
  have hnext : (q.1 : ℚ) < (q.1 / q.2 + 1 : ℕ) * q.2 := by
    rw [mul_comm]
    exact_mod_cast Nat.lt_mul_div_succ q.1 hk
  constructor
  · refine le_of_mul_le_mul_right ?_ hk'
    rw [← hsize, mul_right_comm]
    exact mul_le_mul_of_nonneg_right hfloor hpower.le
  · refine lt_of_mul_lt_mul_right ?_ hk'.le
    rw [← hsize, mul_right_comm]
    exact mul_lt_mul_of_pos_right hnext hpower

/-- Seventeen digits are enough for every double but zero. -/
theorem onGrid_seventeen {d : Double} (h : d.coefficient ≠ 0) : d.onGrid 17 ≠ none := by
  intro hnone
  obtain ⟨hlow, hhigh⟩ := not_hits_of_onGrid hnone
  rw [← Bool.not_eq_true, hits_iff] at hlow hhigh
  -- the first of the seventeen digits is not zero
  have hstep : (10 : ℚ) ^ (d.gridPower 17 + 16) ≤ d.size := by
    obtain ⟨hden, hfraction⟩ := fraction_eq d
    have hmagnitude := pow_magnitude_le hden (fraction_small h)
    rw [hfraction, mul_le_mul_iff_left₀ (by exact_mod_cast hden)] at hmagnitude
    rwa [show d.gridPower 17 + 16 = magnitude d.fraction.1 d.fraction.2 - 1 by
      unfold gridPower; omega]
  obtain ⟨hfloor, hnext⟩ := d.between_points 17
  exact (rounds_floor_or_next h hstep hfloor hnext).elim hlow hhigh

/-- The shortest decimal of a double rounds to it. -/
theorem rounds_shortest (d : Double) : Rounds d.shortest.value d := by
  unfold shortest
  by_cases hzero : d.isZero = true
  · rw [if_pos hzero]
    have hcoefficient : d.coefficient = 0 := by simpa [isZero] using hzero
    have hhigh : (0 : ℚ) < 2 ^ (d.exponent - 2) := by positivity
    refine ⟨.inr ⟨?_, ?_⟩, .inl ?_⟩
    · simp [hcoefficient]
    · simp [low, interval, Decimal.value, hcoefficient]
    · simpa [high, interval, Decimal.value, hcoefficient] using hhigh
  · rw [if_neg hzero]
    have hcoefficient : d.coefficient ≠ 0 := by simpa [isZero] using hzero
    rcases @searchGrids_cases d 17 1 with ⟨found, hfound, hrounds⟩ | hnone
    · rwa [hfound, Option.getD_some]
    · exact absurd (hnone 17 (by decide) (by decide)) (onGrid_seventeen hcoefficient)

/-- The shortest decimal tells doubles of one sign apart. -/
theorem shortest_inj {a b : Double} (hsign : a.negative = b.negative)
    (h : a.shortest.value = b.shortest.value) : a = b := by
  have ha := rounds_shortest a
  rw [h] at ha
  obtain ⟨hcoefficient, hexponent⟩ := ha.unique (rounds_shortest b)
  cases a
  cases b
  simp_all

end Double

end Scaffolding
