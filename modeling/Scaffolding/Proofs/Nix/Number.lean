import Scaffolding.Proofs.Nix.Token
import Scaffolding.Proofs.Number.Digits

/-!
# Numbers that are literals

The tokens of Nix for numbers are narrower than the numbers of JSON. A whole number is a row of digits
up to the greatest signed word, and its sign is no part of it; a number with an exponent has a point.
So a number of a document is written as a literal unless it is an integer of too great a size or a
double of one digit that is written with an exponent, and that is exactly when it is not.
-/

set_option autoImplicit false

namespace Scaffolding.Nix

/-! ## Tokens -/

/-- Nothing, or an exponent: a mark, perhaps a sign, and digits. -/
inductive ExponentToken : List Char → Prop
  | none : ExponentToken []
  | plain {mark : Char} {digits : List Char} (hmark : mark = 'e' ∨ mark = 'E') (h : Digits digits) :
      ExponentToken (mark :: digits)
  | signed {mark sign : Char} {digits : List Char} (hmark : mark = 'e' ∨ mark = 'E')
      (hsign : sign = '+' ∨ sign = '-') (h : Digits digits) : ExponentToken (mark :: sign :: digits)

/-- A number as one token. Digits that do not start with a zero may stand before a point, or a single
zero or nothing if digits stand behind it. -/
inductive NumberToken : List Char → Prop
  | integer {digits : List Char} (h : Digits digits)
      (hfits : Nat.ofDigitChars 10 digits 0 ≤ Nat.pow 2 63 - 1) : NumberToken digits
  | led {first : Char} {whole fraction exponent : List Char} (hfirst : '1' ≤ first ∧ first ≤ '9')
      (hwhole : ∀ c ∈ whole, c.isDigit = true) (hfraction : ∀ c ∈ fraction, c.isDigit = true)
      (he : ExponentToken exponent) :
      NumberToken (first :: (whole ++ '.' :: (fraction ++ exponent)))
  | bare {zero fraction exponent : List Char} (hzero : zero = [] ∨ zero = ['0'])
      (hfraction : Digits fraction) (he : ExponentToken exponent) :
      NumberToken (zero ++ '.' :: (fraction ++ exponent))

/-- A number as an expression: a token, perhaps with a minus sign in front. -/
inductive NumberLiteral : List Char → Prop
  | plain {token : List Char} (h : NumberToken token) : NumberLiteral token
  | minus {token : List Char} (h : NumberToken token) : NumberLiteral ('-' :: token)

/-- The written form of an exponent is an exponent of a token. -/
theorem exponentToken_of_form {cs : List Char} (h : ExponentForm cs) : ExponentToken cs := by
  cases h with
  | none => exact .none
  | plain h => exact .plain (.inl rfl) h
  | plus h => exact .signed (.inl rfl) (.inl rfl) h
  | minus h => exact .signed (.inl rfl) (.inr rfl) h

/-- A token without a point is a row of digits. -/
theorem NumberToken.integer_of_no_point {cs : List Char} (h : NumberToken cs) (hpoint : '.' ∉ cs) :
    Digits cs ∧ Nat.ofDigitChars 10 cs 0 ≤ Nat.pow 2 63 - 1 := by
  cases h with
  | integer h hfits => exact ⟨h, hfits⟩
  | led => exact absurd (by simp) hpoint
  | bare => exact absurd (by simp) hpoint

/-- No token of a number starts with a minus sign. -/
theorem not_numberToken_minus (cs : List Char) : ¬ NumberToken ('-' :: cs) := by
  generalize htext : '-' :: cs = text
  rintro (⟨h, -⟩ | hfirst | hzero)
  · subst htext
    exact absurd (h.2 '-' List.mem_cons_self) (by decide)
  · cases htext
    exact absurd hfirst (by decide)
  · rcases hzero with rfl | rfl <;> cases htext

/-- A literal with a minus sign is the sign and a token. -/
theorem numberLiteral_minus {cs : List Char} : NumberLiteral ('-' :: cs) ↔ NumberToken cs := by
  constructor
  · intro h
    generalize htext : '-' :: cs = text at h
    cases h with
    | plain h =>
      subst htext
      exact absurd h (not_numberToken_minus cs)
    | minus h =>
      cases htext
      exact h
  · exact .minus

/-- A number in writing without its sign is an expression only as a token. -/
theorem numberLiteral_of_form {text : List Char} (h : UnsignedForm text) :
    NumberLiteral text ↔ NumberToken text := by
  constructor
  · intro hliteral
    cases hliteral with
    | plain htoken => exact htoken
    | @minus token =>
      generalize hminus : '-' :: token = signed at h
      obtain ⟨hw, -, -⟩ := h
      obtain ⟨c, rest, rfl⟩ := List.exists_cons_of_ne_nil hw.1
      cases hminus
      exact absurd (hw.2 '-' List.mem_cons_self) (by decide)
  · exact .plain

/-! ## Integers -/

/-- An integer that is not negative is a token if it fits 63 bits. -/
theorem numberToken_natChars {n : Nat} : NumberToken (natChars n) ↔ n ≤ Nat.pow 2 63 - 1 := by
  have hd := digits_natChars n
  constructor
  · intro h
    have hpoint : '.' ∉ natChars n := fun hin => absurd (hd.2 _ hin) (by decide)
    have hfits := (h.integer_of_no_point hpoint).2
    rwa [ofDigitChars_natChars] at hfits
  · intro h
    exact .integer hd (by rwa [ofDigitChars_natChars])

/-! ## Doubles -/

/-- An exponent has no point. -/
theorem not_mem_point_of_form {cs : List Char} (h : ExponentForm cs) : '.' ∉ cs := by
  have hdigits : ∀ {digits : List Char}, Digits digits → '.' ∉ digits := fun hd hin =>
    absurd (hd.2 _ hin) (by decide)
  cases h with
  | none => simp
  | plain h => simpa using hdigits h
  | plus h => simpa using hdigits h
  | minus h => simpa using hdigits h

/-- A text of digits has more than one of them from ten on. -/
theorem more_ne_nil_iff {n : Nat} {c : Char} {more : List Char} (h : natChars n = c :: more) :
    more ≠ [] ↔ 10 ≤ n := by
  have hlength : (natChars n).length = 1 ↔ n < 10 := length_natChars_eq_one_iff
  rw [h, List.length_cons] at hlength
  rw [← List.length_pos_iff]
  omega

/-- Without an exponent a decimal is written as a token: the digits before the point are a single zero
or do not start with one. -/
theorem numberToken_of_plain {l : Layout} {d : Decimal} (hzero : d.digits = 0 → d.power = 0)
    (hplain : l.Plain d) : NumberToken (l.decimalChars d) := by
  have hd := digits_natChars d.digits
  have hwritten := l.written_decimalChars d
  generalize l.decimalChars d = cs at hwritten ⊢
  cases hwritten with
  | whole =>
    by_cases hdigits : d.digits = 0
    · rw [hzero hdigits, hdigits]
      exact .bare (.inr rfl) (digits_natChars 0) .none
    · obtain ⟨c, rest, hc⟩ := List.exists_cons_of_ne_nil hd.1
      have hwhole : ∀ x ∈ rest ++ List.replicate d.power.toNat '0', x.isDigit = true := by
        intro x hx
        rcases List.mem_append.1 hx with hx | hx
        · exact hd.2 x (by rw [hc]; exact List.mem_cons_of_mem c hx)
        · exact isDigit_of_mem_zeros hx
      have hfraction : ∀ x ∈ ['0'], x.isDigit = true := (digits_natChars 0).2
      have htoken := NumberToken.led (first_natChars hdigits hc) hwhole hfraction .none
      simpa [hc] using htoken
  | parted _ hdigits hw hf =>
    obtain ⟨c, rest, rfl⟩ := List.exists_cons_of_ne_nil hw.1
    have hne : d.digits ≠ 0 := by
      have hten := (more_ne_nil_iff hdigits).mp (by simp [hf.1])
      omega
    have htoken := NumberToken.led (first_natChars hne hdigits)
      (fun x hx => hw.2 x (List.mem_cons_of_mem c hx)) hf.2 .none
    simpa using htoken
  | small n => simpa using NumberToken.bare (.inr rfl) (hd.zeros_append n) .none
  | single hexponent => exact absurd hplain hexponent
  | scientific hexponent => exact absurd hplain hexponent

/-- With an exponent a decimal is written as a token only if it has more digits than one, since a
single digit has no point behind it. -/
theorem numberToken_of_not_plain {l : Layout} {d : Decimal} (hplain : ¬ l.Plain d) :
    NumberToken (l.decimalChars d) ↔ 10 ≤ d.digits := by
  have hd := digits_natChars d.digits
  have hwritten := l.written_decimalChars d
  generalize l.decimalChars d = cs at hwritten ⊢
  cases hwritten with
  | whole h => exact absurd h hplain
  | parted h => exact absurd h hplain
  | small _ h => exact absurd h hplain
  | @single c exponent _ hdigits he =>
    refine iff_of_false (fun htoken => ?_) fun hten => (more_ne_nil_iff hdigits).mpr hten rfl
    have hpoint : '.' ∉ c :: 'e' :: exponent := by
      rw [List.mem_cons, not_or]
      refine ⟨?_, not_mem_point_of_form he⟩
      rintro rfl
      exact absurd (hd.2 '.' (by simp [hdigits])) (by decide)
    have hmark := (htoken.integer_of_no_point hpoint).1.2 'e' (by simp)
    exact absurd hmark (by decide)
  | @scientific c more exponent _ hdigits hmore he =>
    have hten := (more_ne_nil_iff hdigits).mp hmore
    have hfraction : ∀ x ∈ more, x.isDigit = true := fun x hx =>
      hd.2 x (by rw [hdigits]; exact List.mem_cons_of_mem c hx)
    have hwhole : ∀ x ∈ ([] : List Char), x.isDigit = true := by simp
    refine iff_of_true ?_ hten
    exact .led (first_natChars (by omega) hdigits) hwhole hfraction (exponentToken_of_form he)

/-- A decimal is a token exactly if it is written with a point. -/
theorem numberToken_decimalChars {l : Layout} {d : Decimal} (hzero : d.digits = 0 → d.power = 0) :
    NumberToken (l.decimalChars d) ↔ l.Plain d ∨ 10 ≤ d.digits := by
  by_cases hplain : l.Plain d
  · exact iff_of_true (numberToken_of_plain hzero hplain) (.inl hplain)
  · rw [numberToken_of_not_plain hplain, or_iff_right hplain]

/-- One digit is written with a point within the bounds of the layout. -/
theorem plain_iff_of_digit {d : Decimal} (h : d.digits < 10) :
    Json.layout.Plain d ↔ -6 < d.power ∧ d.power < 16 := by
  have hlength := length_natChars_eq_one_iff.mpr h
  have hbefore : d.before = 1 + d.power := by
    rw [Decimal.before, hlength]
    rfl
  change (0 < d.before ∧ d.before ≤ 16) ∨ (-5 < d.before ∧ d.before ≤ 0) ↔ _
  rw [hbefore]
  omega

/-! ## Numbers -/

/-- The numbers that Nix has a literal for in the way they are written: integers whose size a signed
word holds, and doubles whose shortest decimal has two digits or more, or a single one that is written
without an exponent. -/
def HasLiteral : Number → Prop
  | .integer n _ => n.natAbs ≤ Nat.pow 2 63 - 1
  | .double d => 10 ≤ d.shortest.digits ∨ -6 < d.shortest.power ∧ d.shortest.power < 16

instance : DecidablePred HasLiteral
  | .integer n _ => inferInstanceAs (Decidable (n.natAbs ≤ Nat.pow 2 63 - 1))
  | .double d => inferInstanceAs
      (Decidable (10 ≤ d.shortest.digits ∨ -6 < d.shortest.power ∧ d.shortest.power < 16))

/-- An integer is a literal exactly if its size fits 63 bits. -/
theorem numberLiteral_intChars {n : Int} :
    NumberLiteral (intChars n) ↔ n.natAbs ≤ Nat.pow 2 63 - 1 := by
  cases n with
  | ofNat k => exact (numberLiteral_of_form (digits_natChars k).unsignedForm).trans numberToken_natChars
  | negSucc k => exact numberLiteral_minus.trans numberToken_natChars

/-- A double is a literal exactly if its shortest decimal has two digits or a small exponent. -/
theorem numberLiteral_doubleChars {d : Double} :
    NumberLiteral (Json.layout.doubleChars d) ↔
      10 ≤ d.shortest.digits ∨ -6 < d.shortest.power ∧ d.shortest.power < 16 := by
  have hsigned : NumberLiteral (Json.layout.doubleChars d) ↔
      NumberToken (Json.layout.decimalChars d.shortest) := by
    unfold Layout.doubleChars
    split
    · exact numberLiteral_minus
    · exact numberLiteral_of_form (unsignedForm_decimalChars Json.layout d.shortest)
  rw [hsigned, numberToken_decimalChars Double.shortest_power]
  by_cases hten : 10 ≤ d.shortest.digits
  · simp [hten]
  · rw [plain_iff_of_digit (by omega)]
    exact or_comm

/-- The numbers with a literal are those that were described. -/
theorem numberLiteral_numberChars (n : Number) : NumberLiteral (numberChars n) ↔ HasLiteral n := by
  cases n with
  | integer n fits => exact numberLiteral_intChars
  | double d => exact numberLiteral_doubleChars

/-- A number starts with a minus sign exactly if it counts as negative. -/
theorem head?_numberChars (n : Number) :
    (numberChars n).head? = some '-' ↔ n.isNegative = true := by
  obtain ⟨c, rest, htext, hc⟩ := head_numberChars n
  rw [htext, List.head?_cons, Option.some.injEq]
  cases hnegative : n.isNegative with
  | true =>
    rw [hnegative] at hc
    exact iff_of_true hc rfl
  | false =>
    rw [hnegative] at hc
    refine iff_of_false ?_ (by simp)
    rintro rfl
    exact absurd hc (by decide)

/-- A number is written in one way as the value of an attribute and as an item of a list, but for the
parentheses of an item that starts with a minus sign. What is written is a literal exactly for the
numbers that Nix has one for. -/
theorem number_literal_iff (n : Number) :
    ∃ text : List Char,
      (∀ depth key rest, membersChars depth ((key, .number n) :: rest) =
        indent depth ++ nameChars key ++ " = ".toList ++ text ++ ";\n".toList ++
          membersChars depth rest) ∧
      (∀ depth rest, itemsChars depth (.number n :: rest) =
        ' ' :: (if text.head? = some '-' then '(' :: (text ++ [')']) else text) ++
          itemsChars depth rest) ∧
      (NumberLiteral text ↔ HasLiteral n) := by
  refine ⟨numberChars n, ?_, ?_, numberLiteral_numberChars n⟩
  · intro depth key rest
    simp [membersChars, valueChars]
  · intro depth rest
    rw [itemsChars]
    simp only [head?_numberChars]
    split <;> rfl

/-- The double 1e16. -/
def tenQuadrillion : Double :=
  ⟨false, 5000000000000000, 1, by decide⟩

/-- Three numbers that are not written as literals: a power of ten, the least integer that no signed
word holds, and the least signed word, of which the sign is no part of the token. -/
theorem numbers_without_literal :
    attrSet [("n", .number (.double tenQuadrillion))] = "\x7b\n  n = 1e+16;\n\x7d" ∧
      ¬ NumberLiteral "1e+16".toList ∧
      ¬ NumberLiteral (numberChars (.integer (Nat.pow 2 63) (by decide))) ∧
      ¬ NumberLiteral (numberChars (.integer (-Nat.pow 2 63) (by decide))) := by
  have hchars : numberChars (.double tenQuadrillion) = "1e+16".toList := by decide +kernel
  refine ⟨by decide +kernel, ?_, ?_, ?_⟩
  · rw [← hchars, numberLiteral_numberChars]
    decide +kernel
  · rw [numberLiteral_numberChars]
    decide
  · rw [numberLiteral_numberChars]
    decide

end Scaffolding.Nix
