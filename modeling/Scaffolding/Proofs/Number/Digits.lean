import Scaffolding.Proofs.Number.Form

/-!
# Digits of numbers

The text of a natural number is the only row of digits with its value that does not start with an
extra zero. It starts with a zero only if the number is zero.

The shortest decimal of a double has digits other than zero, unless it is zero itself. No grid gives a
zero to a double that is not one, since zero does not round to it.
-/

set_option autoImplicit false

namespace Scaffolding

/-- The code of a digit lies between those of zero and nine. -/
theorem toNat_of_isDigit {c : Char} (h : c.isDigit = true) : 48 ≤ c.toNat ∧ c.toNat ≤ 57 :=
  Char.isDigit_iff_toNat.mp h

/-- A digit is the one for its value. -/
theorem digitChar_toNat {c : Char} (h : c.isDigit = true) : Nat.digitChar (c.toNat - 48) = c := by
  have hc := toNat_of_isDigit h
  have hlt : c.toNat - 48 < 10 := by omega
  apply Char.toNat_inj.mp
  rw [Nat.toNat_digitChar_of_lt_ten hlt]
  omega

/-- Digits behind the text of a positive number make the text of a greater one. -/
theorem natChars_append {n : Nat} (hn : 0 < n) {cs : List Char}
    (h : ∀ c ∈ cs, c.isDigit = true) : natChars n ++ cs = natChars (Nat.ofDigitChars 10 cs n) := by
  induction cs generalizing n with
  | nil => simp
  | cons c cs ih =>
    have hc : c.isDigit = true := h c List.mem_cons_self
    have hlt : c.toNat - 48 < 10 := by
      have hrange := toNat_of_isDigit hc
      omega
    have hfirst : natChars n ++ [c] = natChars (10 * n + (c.toNat - 48)) := by
      have happend := Nat.toDigits_append_toDigits (by decide : 1 < 10) hn hlt
      rw [Nat.toDigits_of_lt_base hlt, digitChar_toNat hc] at happend
      exact happend
    calc natChars n ++ c :: cs
        = (natChars n ++ [c]) ++ cs := by simp
      _ = natChars (10 * n + (c.toNat - 48)) ++ cs := by rw [hfirst]
      _ = natChars (Nat.ofDigitChars 10 (c :: cs) n) := by
        rw [Nat.ofDigitChars_cons]
        exact ih (by omega) fun d hd => h d (List.mem_cons_of_mem c hd)

/-- Digits without an extra zero are the text of their value. -/
theorem natChars_ofDigitChars {cs : List Char} (h : Digits cs)
    (hzero : cs.head? = some '0' → cs = ['0']) : natChars (Nat.ofDigitChars 10 cs 0) = cs := by
  cases cs with
  | nil => exact absurd rfl h.1
  | cons c cs =>
    have hc : c.isDigit = true := h.2 c List.mem_cons_self
    have hrange := toNat_of_isDigit hc
    by_cases hfirst : c = '0'
    · rw [hzero (by rw [hfirst]; rfl)]
      rfl
    · have hpos : 0 < c.toNat - 48 := by
        have hne : c.toNat ≠ 48 := fun heq => hfirst (Char.toNat_inj.mp heq)
        omega
      have hone : natChars (c.toNat - 48) = [c] := by
        rw [natChars, Nat.toDigits_of_lt_base (by omega), digitChar_toNat hc]
      have hvalue : Nat.ofDigitChars 10 (c :: cs) 0 = Nat.ofDigitChars 10 cs (c.toNat - 48) := by
        rw [Nat.ofDigitChars_cons]
        simp
      rw [hvalue, ← natChars_append hpos fun d hd => h.2 d (List.mem_cons_of_mem c hd), hone]
      rfl

/-- The digits of a number have the number as their value. -/
theorem ofDigitChars_natChars (n : Nat) : Nat.ofDigitChars 10 (natChars n) 0 = n :=
  Nat.ofDigitChars_ten_toDigits

/-- The value of digits, as the library has it. -/
theorem digitsValue_eq (cs : List Char) : digitsValue cs = Nat.ofDigitChars 10 cs 0 := by
  have hstep : (fun (n : Nat) (c : Char) => n * 10 + (c.toNat - '0'.toNat)) =
      fun n c => 10 * n + (c.toNat - '0'.toNat) := by
    funext n c
    rw [Nat.mul_comm]
  rw [digitsValue, hstep, Nat.ofDigitChars_eq_foldl]

/-- The text of a number has the number as its value. -/
theorem digitsValue_natChars (n : Nat) : digitsValue (natChars n) = n := by
  rw [digitsValue_eq, ofDigitChars_natChars]

/-- Different numbers have different texts. -/
theorem natChars_inj {m n : Nat} (h : natChars m = natChars n) : m = n := by
  rw [← ofDigitChars_natChars m, h, ofDigitChars_natChars]

/-- Only the text of zero starts with a zero. -/
theorem eq_zero_of_head_natChars {n : Nat} (h : (natChars n).head? = some '0') : n = 0 := by
  induction n using Nat.strongRecOn with
  | ind n ih =>
    rw [natChars, Nat.toDigits_eq_if (by decide)] at h
    split at h
    · simpa using h
    · next hge =>
      have hquotient : (natChars (n / 10)).head? = some '0' := by
        obtain ⟨c, rest, hcs⟩ := List.exists_cons_of_ne_nil (digits_natChars (n / 10)).1
        rw [show Nat.toDigits 10 (n / 10) = c :: rest from hcs] at h
        rw [hcs]
        exact h
      have hzero := ih (n / 10) (by omega) hquotient
      omega

/-- The digits of a number other than zero start with a digit other than zero. -/
theorem first_natChars {n : Nat} (hn : n ≠ 0) {c : Char} {rest : List Char}
    (h : natChars n = c :: rest) : '1' ≤ c ∧ c ≤ '9' := by
  have hdigit : c.isDigit = true := (digits_natChars n).2 c (by rw [h]; exact List.mem_cons_self)
  have hrange := toNat_of_isDigit hdigit
  have hzero : c ≠ '0' := by
    rintro rfl
    exact hn (eq_zero_of_head_natChars (by rw [h]; rfl))
  have hne : c.toNat ≠ 48 := fun heq => hzero (Char.toNat_inj.mp heq)
  constructor
  · change 49 ≤ c.toNat
    omega
  · exact hrange.2

/-- One digit is enough for the numbers below ten alone. -/
theorem length_natChars_eq_one_iff {n : Nat} : (natChars n).length = 1 ↔ n < 10 := by
  rw [natChars, Nat.toDigits_eq_if (by decide)]
  split
  · next hlt => simp [hlt]
  · next hge =>
    have hpos : 0 < (Nat.toDigits 10 (n / 10)).length :=
      List.length_pos_iff.2 (digits_natChars (n / 10)).1
    rw [List.length_append, List.length_singleton]
    omega

/-! ## Shortest decimals -/

namespace Double

/-- Zero rounds to no double but the two zeros. -/
theorem not_hits_zero {d : Double} (h : d.coefficient ≠ 0) (power : Int) :
    d.hits power 0 = false := by
  have hlow : 0 < 4 * d.coefficient -
      (if d.coefficient = Nat.pow 2 52 ∧ d.exponent ≠ -1074 then 1 else 2) := by
    split <;> omega
  have hpoint : ∃ pd, 0 < pd ∧ (if 0 ≤ power then (0 * Nat.pow 10 power.toNat, 1)
      else (0, Nat.pow 10 (-power).toNat)) = (0, pd) := by
    split
    · exact ⟨1, Nat.one_pos, by rw [Nat.zero_mul]⟩
    · exact ⟨_, Nat.pow_pos (by decide), rfl⟩
  have hunit : ∃ un ud, 0 < un ∧ (if 0 ≤ d.exponent - 2 then (Nat.pow 2 (d.exponent - 2).toNat, 1)
      else (1, Nat.pow 2 (-(d.exponent - 2)).toNat)) = (un, ud) := by
    split
    · exact ⟨_, 1, Nat.pow_pos (by decide), rfl⟩
    · exact ⟨1, _, Nat.one_pos, rfl⟩
  obtain ⟨pd, hpd, hpoint⟩ := hpoint
  obtain ⟨un, ud, hun, hunit⟩ := hunit
  -- the lower end of the interval is positive, on the scale of the point too
  have hend := Nat.mul_pos (Nat.mul_pos hlow hun) hpd
  unfold hits interval
  dsimp only
  rw [hpoint, hunit]
  dsimp only
  rw [Nat.zero_mul, decide_eq_false (Nat.not_le.mpr hend),
    decide_eq_false (Nat.not_lt.mpr (Nat.zero_le _)), Bool.false_and, Bool.false_and, ite_self]

/-- A double that is not zero has no grid point of zero. -/
theorem onGrid_digits_ne_zero {d : Double} (h : d.coefficient ≠ 0) {count : Nat} {found : Decimal}
    (hfound : d.onGrid count = some found) : found.digits ≠ 0 := by
  unfold onGrid at hfound
  dsimp only at hfound
  split at hfound
  · next hlow =>
    -- the floor is taken only if it rounds to the double, which zero does not
    cases hfound
    intro hzero
    dsimp only at hzero
    rw [hzero, not_hits_zero h] at hlow
    simp at hlow
  · split at hfound
    · cases hfound
      split <;> simp
    · cases hfound

/-- Nor does the search for the shortest decimal end at zero. -/
theorem searchGrids_digits_ne_zero {d : Double} (h : d.coefficient ≠ 0) {found : Decimal} :
    ∀ {fuel count : Nat}, d.searchGrids fuel count = some found → found.digits ≠ 0
  | 0, _, hfound => by simp [searchGrids] at hfound
  | fuel + 1, count, hfound => by
    unfold searchGrids at hfound
    split at hfound
    · next hgrid =>
      cases hfound
      exact onGrid_digits_ne_zero h hgrid
    · exact searchGrids_digits_ne_zero h hfound

/-- A shortest decimal without digits is zero itself. -/
theorem shortest_power {d : Double} (h : d.shortest.digits = 0) : d.shortest.power = 0 := by
  unfold shortest at h ⊢
  split at h
  · next hzero => rw [if_pos hzero]
  · next hzero =>
    rw [if_neg hzero]
    have hcoefficient : d.coefficient ≠ 0 := by
      simpa [isZero] using hzero
    cases hsearch : d.searchGrids 17 1 with
    | none => rfl
    | some found =>
      rw [hsearch] at h
      exact absurd h (searchGrids_digits_ne_zero hcoefficient hsearch)

end Double

end Scaffolding
