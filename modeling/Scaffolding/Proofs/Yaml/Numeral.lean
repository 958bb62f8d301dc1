import Scaffolding.Proofs.Number.Rounding
import Scaffolding.Yaml.Scalar

/-!
# Texts of numbers tell them apart

A decimal in any layout reads back as its own value: the point and the exponent move each other, and
the zeros that fill the gap between the digits and the point do not count. So doubles with the same
text have shortest decimals of the same value, and are the same.

An integer is never written like a double, which always has a point or an exponent, nor a number like
one of the words for the infinities and for what is no number.
-/

set_option autoImplicit false

namespace Scaffolding

namespace Yaml

/-- The integer that an exponent writes. -/
inductive ExponentValue : List Char → Int → Prop
  | plain {digits : List Char} (h : Digits digits) :
      ExponentValue digits (digitsValue digits)
  | plus {digits : List Char} (h : Digits digits) :
      ExponentValue ('+' :: digits) (digitsValue digits)
  | minus {digits : List Char} (h : Digits digits) :
      ExponentValue ('-' :: digits) (-(digitsValue digits : Int))

/-- The written exponent of a number has its value. -/
theorem exponentValue_exponentChars (l : Layout) (e : Int) :
    ExponentValue (l.exponentChars e) e := by
  unfold Layout.exponentChars
  cases e with
  | ofNat n =>
    split
    · simpa [digitsValue_natChars, intChars] using ExponentValue.plus (digits_natChars n)
    · simpa [digitsValue_natChars, intChars] using ExponentValue.plain (digits_natChars n)
  | negSucc n =>
    rw [if_neg (by omega)]
    simpa [digitsValue_natChars, intChars, Int.negSucc_eq] using ExponentValue.minus (digits_natChars (n + 1))

/-- A decimal with a point is read as its digits, with as many places as there are behind the point. -/
theorem decimal?_point {whole fraction : List Char} (hw : Digits whole)
    (hf : ∀ c ∈ fraction, c.isDigit = true) :
    decimal? (whole ++ '.' :: fraction) =
      some (digitsValue (whole ++ fraction), -(fraction.length : Int)) := by
  have hstop : ∀ c ∈ ('.' :: fraction).head?, c.isDigit = false := by simp
  have hne (b : Bool) : ¬ (whole.isEmpty = true ∧ b = true) := by simp [hw.1]
  have htake := @takeWhile_run Char.isDigit fraction [] hf (by simp)
  have hdrop := @dropWhile_run Char.isDigit fraction [] hf (by simp)
  rw [List.append_nil] at htake hdrop
  unfold decimal?
  simp only [takeWhile_run hw.2 hstop, dropWhile_run hw.2 hstop, htake, hdrop, if_neg (hne _)]

/-- An exponent moves the point, which may be missing. -/
theorem decimal?_exponent {whole fraction exponent : List Char} {e : Int} (hw : Digits whole)
    (hf : ∀ c ∈ fraction, c.isDigit = true) (he : ExponentValue exponent e) :
    decimal? (whole ++ '.' :: (fraction ++ 'e' :: exponent)) =
        some (digitsValue (whole ++ fraction), e - fraction.length) ∧
      decimal? (whole ++ 'e' :: exponent) = some (digitsValue whole, e) := by
  have hpoint (rest : List Char) : ∀ c ∈ ('.' :: rest).head?, c.isDigit = false := by simp
  have hmark (rest : List Char) : ∀ c ∈ ('e' :: rest).head?, c.isDigit = false := by simp
  have hne (b : Bool) : ¬ (whole.isEmpty = true ∧ b = true) := by simp [hw.1]
  constructor
  all_goals
    unfold decimal?
    simp only [takeWhile_run hw.2 (hpoint _), dropWhile_run hw.2 (hpoint _),
      takeWhile_run hw.2 (hmark _), dropWhile_run hw.2 (hmark _), takeWhile_run hf (hmark _),
      dropWhile_run hf (hmark _), if_neg (hne _)]
    cases he with
    | plain h =>
      -- without a sign the exponent starts with a digit, which is no sign
      obtain ⟨c, rest, rfl⟩ := List.exists_cons_of_ne_nil h.1
      have hminus : c ≠ '-' := by
        rintro rfl
        exact absurd (h.2 '-' List.mem_cons_self) (by decide)
      have hplus : c ≠ '+' := by
        rintro rfl
        exact absurd (h.2 '+' List.mem_cons_self) (by decide)
      simpa [hminus, hplus, h.2 c] using fun x hx => h.2 x (List.mem_cons_of_mem c hx)
    | plus h => simpa [Digits] using h
    | minus h => simpa [Digits] using h

/-- Zeros behind digits multiply their number by a power of ten. -/
theorem digitsValue_append_zeros (cs : List Char) (n : ℕ) :
    digitsValue (cs ++ List.replicate n '0') = 10 ^ n * digitsValue cs := by
  rw [digitsValue_eq, digitsValue_eq, Nat.ofDigitChars_append,
    Nat.ofDigitChars_replicate_zero]

/-- Zeros in front of digits do not change their value. -/
theorem digitsValue_zeros_append (cs : List Char) (n : ℕ) :
    digitsValue (List.replicate n '0' ++ cs) = digitsValue cs := by
  rw [digitsValue_eq, digitsValue_eq, Nat.ofDigitChars_append,
    Nat.ofDigitChars_replicate_zero, Nat.mul_zero]

/-! ## Ways of writing a decimal -/

/-- A text is read as a decimal of this value. -/
def ReadsAs (cs : List Char) (value : ℚ) : Prop :=
  ∃ digits power, decimal? cs = some (digits, power) ∧ (digits : ℚ) * 10 ^ power = value

/-- A decimal that was read has the value of its digits at its exponent. -/
theorem readsAs_of_eq {cs : List Char} {digits : ℕ} {p q : ℤ} (h : decimal? cs = some (digits, p))
    (hpower : p = q) : ReadsAs cs (digits * 10 ^ q) :=
  ⟨digits, p, h, by rw [hpower]⟩

/-- Zeros fill the gap up to the point, and one more stands behind it. -/
theorem readsAs_filled (m n : ℕ) :
    ReadsAs (natChars m ++ List.replicate n '0' ++ ['.', '0']) (m * 10 ^ (n : ℤ)) := by
  have hzero : Digits (List.replicate 1 '0') := digits_natChars 0
  have hwhole := (digits_natChars m).append fun c hc => @isDigit_of_mem_zeros n c hc
  have hread := decimal?_point hwhole hzero.2
  rw [List.append_assoc, List.append_assoc, List.replicate_append_replicate,
    digitsValue_append_zeros, digitsValue_natChars] at hread
  refine ⟨_, _, by simpa using hread, ?_⟩
  push_cast
  rw [pow_succ]
  simp
  ring

/-- The point stands among the digits. -/
theorem readsAs_parted {m n : ℕ} {p : ℤ} (hn : 0 < n) (hlength : n ≤ (natChars m).length)
    (hp : (natChars m).length + p = n) :
    ReadsAs ((natChars m).take n ++ '.' :: (natChars m).drop n) (m * 10 ^ p) := by
  have hd := digits_natChars m
  have hwhole : Digits ((natChars m).take n) := by
    refine ⟨?_, fun c hc => hd.2 c (List.mem_of_mem_take hc)⟩
    rw [← List.length_pos_iff, List.length_take]
    omega
  have hfraction : ∀ c ∈ (natChars m).drop n, c.isDigit = true :=
    fun c hc => hd.2 c (List.mem_of_mem_drop hc)
  have hread := decimal?_point hwhole hfraction
  rw [List.take_append_drop, digitsValue_natChars, List.length_drop] at hread
  exact readsAs_of_eq hread (by omega)

/-- Zeros stand between the point and the digits. -/
theorem readsAs_small {m n : ℕ} {p : ℤ} (hp : (natChars m).length + p = -n) :
    ReadsAs ('0' :: '.' :: (List.replicate n '0' ++ natChars m)) (m * 10 ^ p) := by
  have hzero : Digits (List.replicate 1 '0') := digits_natChars 0
  have hread := decimal?_point hzero ((digits_natChars m).zeros_append n).2
  rw [digitsValue_zeros_append, digitsValue_zeros_append, digitsValue_natChars, List.length_append,
    List.length_replicate] at hread
  exact readsAs_of_eq hread (by omega)

/-- An only digit is followed by the exponent. -/
theorem readsAs_single {l : Layout} {m : ℕ} {c : Char} (h : natChars m = [c]) (p : ℤ) :
    ReadsAs (c :: 'e' :: l.exponentChars p) (m * 10 ^ p) := by
  have hd := digits_natChars m
  have hread := (decimal?_exponent hd hd.2 (exponentValue_exponentChars l p)).2
  rw [digitsValue_natChars, h] at hread
  exact readsAs_of_eq hread rfl

/-- The point stands behind the first of several digits. -/
theorem readsAs_scientific {l : Layout} {m : ℕ} {c : Char} {more : List Char}
    (h : natChars m = c :: more) {e p : ℤ} (he : e = more.length + p) :
    ReadsAs (c :: '.' :: (more ++ 'e' :: l.exponentChars e)) (m * 10 ^ p) := by
  have hd := digits_natChars m
  rw [h] at hd
  have hfirst : Digits [c] := by
    refine ⟨List.cons_ne_nil c [], fun y hy => ?_⟩
    rw [List.mem_singleton.1 hy]
    exact hd.2 c List.mem_cons_self
  have hread := (decimal?_exponent hfirst (fun y hy => hd.2 y (List.mem_cons_of_mem c hy))
    (exponentValue_exponentChars l e)).1
  rw [List.singleton_append, List.singleton_append, ← h, digitsValue_natChars] at hread
  exact readsAs_of_eq hread (by omega)

/-- A decimal reads back as its own value, however it is laid out. -/
theorem readsAs_decimalChars (l : Layout) (x : Decimal) : ReadsAs (l.decimalChars x) x.value := by
  have hbefore : ((natChars x.digits).length : Int) + x.power = x.before := rfl
  unfold Layout.decimalChars Decimal.value
  dsimp only
  rw [hbefore]
  split
  · next hwhole =>
    obtain ⟨n, hn⟩ := Int.eq_ofNat_of_zero_le hwhole.1
    rw [hn]
    exact readsAs_filled x.digits n
  split
  · -- the power is negative here, or the digits would have been filled
    next hwhole hparted =>
    exact readsAs_parted (by omega) (by omega) (by omega)
  split
  · next hsmall =>
    exact readsAs_small (by omega)
  split
  · next h => exact absurd h (digits_natChars x.digits).1
  · next c h =>
    have hpower : x.before - 1 = x.power := by
      rw [← hbefore, h, List.length_singleton]
      omega
    rw [hpower]
    exact readsAs_single h x.power
  · next c more hmore h =>
    refine readsAs_scientific h ?_
    rw [← hbefore, h, List.length_cons]
    omega

/-! ## Numbers -/

/-- Decimals with the same text have the same value. -/
theorem value_eq_of_decimalChars {l : Layout} {x y : Decimal}
    (h : l.decimalChars x = l.decimalChars y) : x.value = y.value := by
  obtain ⟨digits, power, hx, hvalue⟩ := readsAs_decimalChars l x
  obtain ⟨digits', power', hy, hvalue'⟩ := readsAs_decimalChars l y
  rw [h, hy, Option.some.injEq, Prod.mk.injEq] at hx
  rw [← hvalue, ← hvalue', hx.1, hx.2]

/-- A decimal has a point or an exponent in writing. -/
theorem not_digits_decimalChars (l : Layout) (x : Decimal) : ¬ Digits (l.decimalChars x) := by
  have hwritten := l.written_decimalChars x
  generalize l.decimalChars x = cs at hwritten
  have hmark : '.' ∈ cs ∨ 'e' ∈ cs := by
    cases hwritten <;> simp
  intro hd
  rcases hmark with hmark | hmark <;> exact absurd (hd.2 _ hmark) (by decide)

/-- Without its sign, a number starts with a digit. -/
theorem isDigit_head_of_form {cs : List Char} (h : UnsignedForm cs) :
    ∃ c rest, cs = c :: rest ∧ c.isDigit = true := by
  obtain ⟨hw, -, -⟩ := h
  obtain ⟨c, rest, rfl⟩ := List.exists_cons_of_ne_nil hw.1
  exact ⟨c, _, rfl, hw.2 c List.mem_cons_self⟩

/-- Two numbers with one sign are printed alike only if they are equal. -/
theorem unsignedChars_inj {l : Layout} {a b : Number} (hsign : a.isNegative = b.isNegative)
    (h : a.unsignedChars l = b.unsignedChars l) : a = b := by
  cases a with
  | integer m hm =>
    cases b with
    | integer n hn =>
      have habs : m.natAbs = n.natAbs := natChars_inj h
      have hneg : m < 0 ↔ n < 0 := by simpa [Number.isNegative] using hsign
      have heq : m = n := by omega
      subst heq
      rfl
    | double y =>
      have hd := digits_natChars m.natAbs
      rw [show natChars m.natAbs = l.decimalChars y.shortest from h] at hd
      exact absurd hd (not_digits_decimalChars l y.shortest)
  | double x =>
    cases b with
    | integer n hn =>
      have hd := digits_natChars n.natAbs
      rw [← show l.decimalChars x.shortest = natChars n.natAbs from h] at hd
      exact absurd hd (not_digits_decimalChars l x.shortest)
    | double y => rw [Double.shortest_inj hsign (value_eq_of_decimalChars h)]

/-- The text of a number tells it apart, in every layout. -/
theorem chars_inj {l : Layout} {a b : Number} (h : a.chars l = b.chars l) : a = b := by
  obtain ⟨c, rest, ha, hc⟩ := isDigit_head_of_form (a.unsignedForm_unsignedChars l)
  obtain ⟨d, more, hb, hd⟩ := isDigit_head_of_form (b.unsignedForm_unsignedChars l)
  rw [a.chars_eq, b.chars_eq] at h
  have hminus : ('-' : Char).isDigit = false := rfl
  cases hsign : a.isNegative <;> cases hsign' : b.isNegative <;>
    simp only [hsign, hsign', if_true, Bool.false_eq_true, if_false, List.cons.injEq, true_and] at h
  · exact unsignedChars_inj (hsign.trans hsign'.symm) h
  · rw [ha] at h
    cases h
    rw [hminus] at hc
    cases hc
  · rw [hb] at h
    cases h
    rw [hminus] at hd
    cases hd
  · exact unsignedChars_inj (hsign.trans hsign'.symm) h

namespace Numeral

/-- The word for an infinity or for what is no number starts with a point, after its sign. -/
theorem finite_chars_ne (n : Number) {word : Numeral} (h : ∀ m, word ≠ .finite m) :
    (finite n).chars ≠ word.chars := by
  obtain ⟨c, rest, hn, hc⟩ := isDigit_head_of_form (n.unsignedForm_unsignedChars layout)
  have hpoint : c ≠ '.' := by
    rintro rfl
    exact absurd hc (by decide)
  have hminus : c ≠ '-' := by
    rintro rfl
    exact absurd hc (by decide)
  rw [chars, n.chars_eq, hn]
  cases word with
  | finite m => exact absurd rfl (h m)
  | infinity negative => cases negative <;> cases n.isNegative <;> simp [chars, hpoint, hminus]
  | notANumber => cases n.isNegative <;> simp [chars, hpoint]

/-- Two numerals are printed alike only if they are equal. -/
theorem chars_inj {a b : Numeral} (h : a.chars = b.chars) : a = b := by
  cases a with
  | finite m =>
    cases b with
    | finite n => rw [Yaml.chars_inj h]
    | infinity negative => exact absurd h (finite_chars_ne m (by simp))
    | notANumber => exact absurd h (finite_chars_ne m (by simp))
  | infinity negative =>
    cases b with
    | finite n => exact absurd h.symm (finite_chars_ne n (by simp))
    | infinity other =>
      revert h
      cases negative <;> cases other <;> decide
    | notANumber =>
      revert h
      cases negative <;> decide
  | notANumber =>
    cases b with
    | finite n => exact absurd h.symm (finite_chars_ne n (by simp))
    | infinity other =>
      revert h
      cases other <;> decide
    | notANumber => rfl

/-- The text of a number tells it apart from every other. -/
theorem text_inj {a b : Numeral} (h : a.text = b.text) : a = b :=
  chars_inj (String.ofList_injective h)

/-- A printed numeral starts with a digit, a sign or a point. -/
theorem head_chars (n : Numeral) :
    ∃ c rest, n.chars = c :: rest ∧ (c.isDigit = true ∨ c = '-' ∨ c = '.') := by
  cases n with
  | finite number =>
    obtain ⟨c, rest, hnumber, hc⟩ := isDigit_head_of_form (number.unsignedForm_unsignedChars layout)
    rw [chars, number.chars_eq, hnumber]
    split
    · exact ⟨_, _, rfl, .inr (.inl rfl)⟩
    · exact ⟨_, _, rfl, .inl hc⟩
  | infinity negative => cases negative <;> exact ⟨_, _, rfl, by decide⟩
  | notANumber => exact ⟨_, _, rfl, by decide⟩

/-- No number is written as a boolean is. -/
theorem text_ne_bool (n : Numeral) (b : Bool) :
    n.text ≠ if b then "true" else "false" := by
  obtain ⟨c, rest, hn, hc⟩ := n.head_chars
  intro h
  have hchars := congrArg String.toList h
  rw [text, String.toList_ofList, hn] at hchars
  cases b
  · obtain ⟨rfl, -⟩ := List.cons.inj hchars
    revert hc
    decide
  · obtain ⟨rfl, -⟩ := List.cons.inj hchars
    revert hc
    decide

end Numeral

end Yaml

end Scaffolding
