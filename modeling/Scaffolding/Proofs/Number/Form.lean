import Scaffolding.Number.Basic

/-!
# The form of numbers in writing

Whatever the layout, a number is written as an optional minus sign, digits, an optional fraction and
an optional exponent, with at least one digit in each of these parts. The minus sign is there exactly
for the numbers that count as negative. `Layout.Written` tells the ways in which a layout puts these
parts together.
-/

set_option autoImplicit false

namespace Scaffolding

def Digits (cs : List Char) : Prop :=
  cs ≠ [] ∧ ∀ c ∈ cs, c.isDigit = true

/-- Nothing, or a point with digits after it. -/
inductive FractionForm : List Char → Prop
  | none : FractionForm []
  | some {digits : List Char} (h : Digits digits) : FractionForm ('.' :: digits)

/-- Nothing, or a mark with digits after it and perhaps a sign between. -/
inductive ExponentForm : List Char → Prop
  | none : ExponentForm []
  | plain {digits : List Char} (h : Digits digits) : ExponentForm ('e' :: digits)
  | plus {digits : List Char} (h : Digits digits) : ExponentForm ('e' :: '+' :: digits)
  | minus {digits : List Char} (h : Digits digits) : ExponentForm ('e' :: '-' :: digits)

/-- A number in writing without its sign. -/
inductive UnsignedForm : List Char → Prop
  | parts {whole fraction exponent : List Char} (hw : Digits whole) (hf : FractionForm fraction)
      (he : ExponentForm exponent) : UnsignedForm (whole ++ (fraction ++ exponent))

/-- Digits with more digits behind them are digits. -/
theorem Digits.append {xs ys : List Char} (hx : Digits xs) (hy : ∀ c ∈ ys, c.isDigit = true) :
    Digits (xs ++ ys) := by
  refine ⟨by simp [hx.1], ?_⟩
  intro c hc
  rcases List.mem_append.1 hc with hc | hc
  · exact hx.2 c hc
  · exact hy c hc

/-- Digits alone are a number without a sign. -/
theorem Digits.unsignedForm {cs : List Char} (h : Digits cs) : UnsignedForm cs := by
  simpa using UnsignedForm.parts h .none .none

/-- The text of a natural number consists of digits. -/
theorem digits_natChars (n : Nat) : Digits (natChars n) :=
  ⟨Nat.toDigits_ne_nil, fun _ hc => Nat.isDigit_of_mem_toDigits (by decide) (by decide) hc⟩

/-- Zeros are digits. -/
theorem isDigit_of_mem_zeros {n : Nat} {c : Char} (hc : c ∈ List.replicate n '0') :
    c.isDigit = true := by
  rw [List.eq_of_mem_replicate hc]
  decide

/-- Digits with zeros before them are digits. -/
theorem Digits.zeros_append {cs : List Char} (h : Digits cs) (n : Nat) :
    Digits (List.replicate n '0' ++ cs) := by
  refine ⟨by simp [h.1], fun c hc => ?_⟩
  rcases List.mem_append.1 hc with hc | hc
  · exact isDigit_of_mem_zeros hc
  · exact h.2 c hc

/-- An exponent is written in the form of exponents. -/
theorem exponentForm_exponentChars (l : Layout) (e : Int) :
    ExponentForm ('e' :: l.exponentChars e) := by
  unfold Layout.exponentChars
  cases e with
  | ofNat n =>
    split
    · exact .plus (digits_natChars n)
    · exact .plain (digits_natChars n)
  | negSucc n =>
    have hneg : ¬ (0 ≤ Int.negSucc n ∧ l.plusSign = true) := by
      intro h
      exact absurd h.1 (by omega)
    rw [if_neg hneg]
    exact .minus (digits_natChars (n + 1))

/-- The number of digits before the point; none if it is not positive. -/
def Decimal.before (d : Decimal) : Int :=
  (natChars d.digits).length + d.power

namespace Layout

/-- The decimals that a layout writes without an exponent. -/
def Plain (l : Layout) (d : Decimal) : Prop :=
  (0 < d.before ∧ d.before ≤ l.maxPlain) ∨ (-l.maxZeros < d.before ∧ d.before ≤ 0)

/-- The ways of writing a decimal. Without an exponent, zeros fill the gap between the digits and the
point, or the point stands among the digits. -/
inductive Written (l : Layout) (d : Decimal) : List Char → Prop
  | whole (hplain : l.Plain d) :
      Written l d (natChars d.digits ++ List.replicate d.power.toNat '0' ++ ['.', '0'])
  | parted {whole fraction : List Char} (hplain : l.Plain d)
      (hdigits : natChars d.digits = whole ++ fraction) (hw : Digits whole) (hf : Digits fraction) :
      Written l d (whole ++ '.' :: fraction)
  | small (n : Nat) (hplain : l.Plain d) :
      Written l d ('0' :: '.' :: (List.replicate n '0' ++ natChars d.digits))
  | single {c : Char} {exponent : List Char} (hplain : ¬ l.Plain d)
      (hdigits : natChars d.digits = [c]) (he : ExponentForm ('e' :: exponent)) :
      Written l d (c :: 'e' :: exponent)
  | scientific {c : Char} {more exponent : List Char} (hplain : ¬ l.Plain d)
      (hdigits : natChars d.digits = c :: more) (hmore : more ≠ [])
      (he : ExponentForm ('e' :: exponent)) :
      Written l d (c :: '.' :: (more ++ 'e' :: exponent))

/-- A decimal is written as its layout says. -/
theorem written_decimalChars (l : Layout) (d : Decimal) : l.Written d (l.decimalChars d) := by
  have hd := digits_natChars d.digits
  have hpos : 0 < (natChars d.digits).length := List.length_pos_iff.2 hd.1
  have hbefore : ((natChars d.digits).length : Int) + d.power = d.before := rfl
  unfold decimalChars
  dsimp only
  rw [hbefore]
  by_cases hwhole : 0 ≤ d.power ∧ d.before ≤ l.maxPlain
  · rw [if_pos hwhole]
    exact .whole (.inl ⟨by omega, hwhole.2⟩)
  rw [if_neg hwhole]
  by_cases hpoint : 0 < d.before ∧ d.before ≤ l.maxPlain
  · -- the point stands among the digits, since the power is negative here
    rw [if_pos hpoint]
    have hpower : d.power < 0 := by
      have hle := hpoint.2
      omega
    refine .parted (.inl hpoint) (List.take_append_drop _ _).symm ⟨?_, ?_⟩ ⟨?_, ?_⟩
    · rw [← List.length_pos_iff, List.length_take]
      omega
    · exact fun c hc => hd.2 c (List.mem_of_mem_take hc)
    · rw [← List.length_pos_iff, List.length_drop]
      omega
    · exact fun c hc => hd.2 c (List.mem_of_mem_drop hc)
  rw [if_neg hpoint]
  by_cases hzeros : -l.maxZeros < d.before ∧ d.before ≤ 0
  · rw [if_pos hzeros]
    exact .small _ (.inr hzeros)
  rw [if_neg hzeros]
  have hplain : ¬ l.Plain d := fun h => h.elim hpoint hzeros
  split
  · next h => exact absurd h hd.1
  · next h => exact .single hplain h (exponentForm_exponentChars l _)
  · next c more hmore h =>
    exact .scientific hplain h (by rintro rfl; exact hmore rfl) (exponentForm_exponentChars l _)

end Layout

/-- The text of a decimal has the form of a number, in whichever way it is written. -/
theorem unsignedForm_decimalChars (l : Layout) (d : Decimal) : UnsignedForm (l.decimalChars d) := by
  have hd := digits_natChars d.digits
  have hzero : Digits ['0'] := digits_natChars 0
  have hwritten := l.written_decimalChars d
  generalize l.decimalChars d = cs at hwritten ⊢
  cases hwritten with
  | whole =>
    have hw : Digits (natChars d.digits ++ List.replicate d.power.toNat '0') :=
      hd.append fun _ hc => isDigit_of_mem_zeros hc
    simpa using UnsignedForm.parts hw (.some hzero) .none
  | parted _ _ hw hf => simpa using UnsignedForm.parts hw (.some hf) .none
  | small n => simpa using UnsignedForm.parts hzero (.some (hd.zeros_append n)) .none
  | single _ hdigits he =>
    rw [hdigits] at hd
    simpa using UnsignedForm.parts hd .none he
  | scientific _ hdigits hmore he =>
    rw [hdigits] at hd
    have hc := hd.2 _ List.mem_cons_self
    have hfirst : Digits [_] := ⟨List.cons_ne_nil _ [], fun x hx => by rwa [List.mem_singleton.1 hx]⟩
    have hrest : Digits _ := ⟨hmore, fun x hx => hd.2 x (List.mem_cons_of_mem _ hx)⟩
    simpa using UnsignedForm.parts hfirst (.some hrest) he

/-- The text of a number without its sign. -/
def Number.unsignedChars (l : Layout) : Number → List Char
  | .integer n _ => natChars n.natAbs
  | .double d => l.decimalChars d.shortest

/-- A number has the form of numbers when its sign is left out. -/
theorem Number.unsignedForm_unsignedChars (l : Layout) (n : Number) :
    UnsignedForm (n.unsignedChars l) := by
  cases n with
  | integer value fits => exact (digits_natChars value.natAbs).unsignedForm
  | double d => exact unsignedForm_decimalChars l d.shortest

/-- A number is its sign, if it is negative, and what is left of it then. -/
theorem Number.chars_eq (l : Layout) (n : Number) :
    n.chars l = if n.isNegative then '-' :: n.unsignedChars l else n.unsignedChars l := by
  cases n with
  | integer value fits =>
    cases value with
    | ofNat k => simp [chars, isNegative, unsignedChars, intChars]
    | negSucc k =>
      have hneg : Int.negSucc k < 0 := Int.negSucc_lt_zero k
      simp [chars, isNegative, unsignedChars, intChars, hneg, Int.natAbs_negSucc]
  | double d => cases h : d.negative <;> simp [chars, isNegative, unsignedChars, Layout.doubleChars, h]

/-- A number is written with a minus sign when it counts as negative, and without any other sign. -/
theorem Number.chars_form (l : Layout) (n : Number) :
    ∃ cs, UnsignedForm cs ∧ n.chars l = if n.isNegative then '-' :: cs else cs :=
  ⟨n.unsignedChars l, n.unsignedForm_unsignedChars l, n.chars_eq l⟩

/-! ## Runs of characters -/

/-- A run of characters is taken whole when what follows does not go on with it. -/
theorem takeWhile_run {p : Char → Bool} {run rest : List Char} (hr : ∀ c ∈ run, p c = true)
    (hs : ∀ c ∈ rest.head?, p c = false) : (run ++ rest).takeWhile p = run := by
  rw [List.takeWhile_append_of_pos hr]
  cases rest with
  | nil => simp
  | cons c rest => simp [hs c (by simp)]

/-- A run of characters is dropped up to the first one that does not belong to it. -/
theorem dropWhile_run {p : Char → Bool} {run rest : List Char} (hr : ∀ c ∈ run, p c = true)
    (hs : ∀ c ∈ rest.head?, p c = false) : (run ++ rest).dropWhile p = rest := by
  rw [List.dropWhile_append_of_pos hr]
  cases rest with
  | nil => simp
  | cons c rest => simp [hs c (by simp)]

end Scaffolding
