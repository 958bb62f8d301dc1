import Mathlib.Order.Defs.LinearOrder
import Scaffolding.Proofs.Version.Reading
import Scaffolding.Version.Notice

/-!
# Precedence

The order of versions as a relation, told by the rules of Semantic Versioning 2.0.0 and not by the
functions that compare. Precedence looks at the three numbers and the pre-release. Versions of one
precedence are alike, and the order goes on with their build metadata.

Comparing decides this order, and it is a total one: two versions that compare as equal are equal.
-/

set_option autoImplicit false

namespace Scaffolding.Version

/-! ## The order told by its rules -/

/-- A number, that is, digits only. -/
def IsNumber (id : List Char) : Prop :=
  ∀ c ∈ id, c.isDigit = true

/-- An identifier comes before another one: numbers by their size and before words, words by their
characters. Build metadata may write one number with more zeros or fewer. -/
inductive IdentifierBefore (a b : List Char) : Prop
  | smaller (ha : IsNumber a) (hb : IsNumber b)
      (h : Nat.ofDigitChars 10 a 0 < Nat.ofDigitChars 10 b 0)
  | fewerZeros (ha : IsNumber a) (hb : IsNumber b)
      (hvalue : Nat.ofDigitChars 10 a 0 = Nat.ofDigitChars 10 b 0) (h : a.length < b.length)
  | numberFirst (ha : IsNumber a) (hb : ¬ IsNumber b)
  | words (ha : ¬ IsNumber a) (hb : ¬ IsNumber b) (h : a < b)

/-- Rows of identifiers, by the first difference; a row that ends first comes first. -/
def IdentifiersBefore : List (List Char) → List (List Char) → Prop :=
  List.Lex IdentifierBefore

/-- Pre-releases come before the release itself. -/
inductive PreReleaseBefore : List (List Char) → List (List Char) → Prop
  | release {ids : List (List Char)} (hids : ids ≠ []) : PreReleaseBefore ids []
  | identifiers {as bs : List (List Char)} (has : as ≠ []) (hbs : bs ≠ [])
      (h : IdentifiersBefore as bs) : PreReleaseBefore as bs

/-- A version has a lower precedence than another one. Build metadata has no say in this. -/
inductive Precedes (a b : Version) : Prop
  | major (h : a.major < b.major)
  | minor (hmajor : a.major = b.major) (h : a.minor < b.minor)
  | patch (hmajor : a.major = b.major) (hminor : a.minor = b.minor) (h : a.patch < b.patch)
  | preRelease (hmajor : a.major = b.major) (hminor : a.minor = b.minor)
      (hpatch : a.patch = b.patch) (h : PreReleaseBefore a.preRelease b.preRelease)

/-- Versions of one precedence, which differ in their build metadata at most. -/
structure Alike (a b : Version) : Prop where
  major : a.major = b.major
  minor : a.minor = b.minor
  patch : a.patch = b.patch
  preRelease : a.preRelease = b.preRelease

/-- A version comes before another one in the order of all versions. -/
inductive Before (a b : Version) : Prop
  | precedence (h : a.Precedes b)
  | build (halike : a.Alike b) (h : IdentifiersBefore a.build b.build)

/-! ## Comparing identifiers -/

/-- An identifier consists of digits if it is a number. -/
theorem all_isDigit_iff {id : List Char} : id.all Char.isDigit = true ↔ IsNumber id :=
  List.all_eq_true

/-- An identifier is a word if some sign of it is no digit. -/
theorem all_isDigit_eq_false_iff {id : List Char} :
    id.all Char.isDigit = false ↔ ¬ IsNumber id := by
  rw [← all_isDigit_iff, Bool.not_eq_true]

/-- Rows of elements are compared by the first difference, as the elements are compared. -/
theorem compareLex_eq_lt_iff {α : Type} {cmp : α → α → Ordering} [Std.LawfulEqCmp cmp]
    {before : α → α → Prop} (h : ∀ a b, cmp a b = .lt ↔ before a b) {as bs : List α} :
    List.compareLex cmp as bs = .lt ↔ List.Lex before as bs := by
  induction as generalizing bs with
  | nil =>
    cases bs with
    | nil => simp [List.compareLex_nil_nil]
    | cons b bs => simp [List.compareLex_nil_cons]
  | cons a as ih =>
    cases bs with
    | nil => simp [List.compareLex_cons_nil]
    | cons b bs =>
      rw [List.compareLex_cons_cons, Ordering.then_eq_lt, h, ih,
        Std.LawfulEqCmp.compare_eq_iff_eq, List.cons_lex_cons_iff]

instance : Std.LawfulEqCmp (compareOn Char.toNat) where
  compare_self := Std.ReflCmp.compare_self
  eq_of_compare h := Char.toNat_inj.mp (Std.LawfulEqCmp.eq_of_compare h)

/-- Words are compared sign by sign. -/
theorem compareWords_eq : compareWords = List.compareLex (compareOn Char.toNat) := by
  funext a b
  induction a generalizing b with
  | nil => cases b <;> rfl
  | cons c a ih =>
    cases b with
    | nil => rfl
    | cons d b =>
      rw [compareWords, ih, List.compareLex_cons_cons]
      rfl

instance : Std.TransCmp compareWords := by
  rw [compareWords_eq]
  infer_instance

instance : Std.LawfulEqCmp compareWords := by
  rw [compareWords_eq]
  infer_instance

/-- A word is less than another exactly in the order of texts. -/
theorem compareWords_eq_lt_iff {a b : List Char} : compareWords a b = .lt ↔ a < b := by
  have hchar : ∀ c d : Char, compareOn Char.toNat c d = .lt ↔ c < d := fun c d =>
    Nat.compare_eq_lt
  rw [compareWords_eq, compareLex_eq_lt_iff hchar]
  exact List.lex_lt

/-- Digits are known by their number and their value. -/
theorem eq_of_ofDigitChars_eq {a b : List Char} (ha : IsNumber a) (hb : IsNumber b)
    (hlength : a.length = b.length) (h : Nat.ofDigitChars 10 a 0 = Nat.ofDigitChars 10 b 0) :
    a = b := by
  have hone : natChars 1 ++ a = natChars 1 ++ b := by
    rw [natChars_append (by decide) ha, natChars_append (by decide) hb,
      Nat.ofDigitChars_eq_ofDigitChars_zero, hlength, h, ← Nat.ofDigitChars_eq_ofDigitChars_zero]
  exact List.append_cancel_left hone

instance : Std.TransCmp compareDigits :=
  inferInstanceAs (Std.TransCmp (compareLex (compareOn digitsValue) (compareOn List.length)))

/-- Of two numbers the one with the smaller value is less, then the one with fewer digits. -/
theorem compareDigits_eq_lt_iff {a b : List Char} :
    compareDigits a b = .lt ↔ Nat.ofDigitChars 10 a 0 < Nat.ofDigitChars 10 b 0 ∨
      Nat.ofDigitChars 10 a 0 = Nat.ofDigitChars 10 b 0 ∧ a.length < b.length := by
  rw [compareDigits, Ordering.then_eq_lt, Nat.compare_eq_lt, Nat.compare_eq_eq, Nat.compare_eq_lt,
    digitsValue_eq, digitsValue_eq]

/-- Numbers are equal if they have the same value and the same length. -/
theorem compareDigits_eq_eq_iff {a b : List Char} :
    compareDigits a b = .eq ↔ Nat.ofDigitChars 10 a 0 = Nat.ofDigitChars 10 b 0 ∧
      a.length = b.length := by
  rw [compareDigits, Ordering.then_eq_eq, Nat.compare_eq_eq, Nat.compare_eq_eq, digitsValue_eq,
    digitsValue_eq]

variable {a b : List Char}

/-- Two numbers are compared by their digits. -/
theorem compareIdentifier_of_numbers (ha : IsNumber a) (hb : IsNumber b) :
    compareIdentifier a b = compareDigits a b := by
  rw [compareIdentifier, all_isDigit_iff.mpr ha, all_isDigit_iff.mpr hb]

/-- A number is less than a word. -/
theorem compareIdentifier_of_number_word (ha : IsNumber a) (hb : ¬ IsNumber b) :
    compareIdentifier a b = .lt := by
  rw [compareIdentifier, all_isDigit_iff.mpr ha, all_isDigit_eq_false_iff.mpr hb]

/-- A word is greater than a number. -/
theorem compareIdentifier_of_word_number (ha : ¬ IsNumber a) (hb : IsNumber b) :
    compareIdentifier a b = .gt := by
  rw [compareIdentifier, all_isDigit_eq_false_iff.mpr ha, all_isDigit_iff.mpr hb]

/-- Two words are compared as words. -/
theorem compareIdentifier_of_words (ha : ¬ IsNumber a) (hb : ¬ IsNumber b) :
    compareIdentifier a b = compareWords a b := by
  rw [compareIdentifier, all_isDigit_eq_false_iff.mpr ha, all_isDigit_eq_false_iff.mpr hb]

instance : Std.TransCmp compareIdentifier where
  eq_swap {a b} := by
    by_cases ha : IsNumber a <;> by_cases hb : IsNumber b
    · rw [compareIdentifier_of_numbers ha hb, compareIdentifier_of_numbers hb ha]
      exact Std.OrientedCmp.eq_swap
    · rw [compareIdentifier_of_number_word ha hb, compareIdentifier_of_word_number hb ha]
      rfl
    · rw [compareIdentifier_of_word_number ha hb, compareIdentifier_of_number_word hb ha]
      rfl
    · rw [compareIdentifier_of_words ha hb, compareIdentifier_of_words hb ha]
      exact Std.OrientedCmp.eq_swap
  isLE_trans {a b c} hab hbc := by
    by_cases ha : IsNumber a <;> by_cases hc : IsNumber c
    · -- a word between two numbers would come after the second one
      have hb : IsNumber b := by
        by_contra hb
        rw [compareIdentifier_of_word_number hb hc] at hbc
        cases hbc
      rw [compareIdentifier_of_numbers ha hb] at hab
      rw [compareIdentifier_of_numbers hb hc] at hbc
      rw [compareIdentifier_of_numbers ha hc]
      exact Std.TransCmp.isLE_trans hab hbc
    · rw [compareIdentifier_of_number_word ha hc]
      rfl
    · by_cases hb : IsNumber b
      · rw [compareIdentifier_of_word_number ha hb] at hab
        cases hab
      · rw [compareIdentifier_of_word_number hb hc] at hbc
        cases hbc
    · have hb : ¬ IsNumber b := by
        intro hb
        rw [compareIdentifier_of_word_number ha hb] at hab
        cases hab
      rw [compareIdentifier_of_words ha hb] at hab
      rw [compareIdentifier_of_words hb hc] at hbc
      rw [compareIdentifier_of_words ha hc]
      exact Std.TransCmp.isLE_trans hab hbc

instance : Std.LawfulEqCmp compareIdentifier where
  eq_of_compare {a b} h := by
    by_cases ha : IsNumber a <;> by_cases hb : IsNumber b
    · rw [compareIdentifier_of_numbers ha hb, compareDigits_eq_eq_iff] at h
      exact eq_of_ofDigitChars_eq ha hb h.2 h.1
    · rw [compareIdentifier_of_number_word ha hb] at h
      cases h
    · rw [compareIdentifier_of_word_number ha hb] at h
      cases h
    · rw [compareIdentifier_of_words ha hb] at h
      exact Std.LawfulEqCmp.eq_of_compare h

/-- The comparison of identifiers decides which comes before the other. -/
theorem compareIdentifier_eq_lt_iff : compareIdentifier a b = .lt ↔ IdentifierBefore a b := by
  constructor
  · intro h
    by_cases ha : IsNumber a <;> by_cases hb : IsNumber b
    · rw [compareIdentifier_of_numbers ha hb, compareDigits_eq_lt_iff] at h
      rcases h with h | ⟨hvalue, h⟩
      · exact .smaller ha hb h
      · exact .fewerZeros ha hb hvalue h
    · exact .numberFirst ha hb
    · rw [compareIdentifier_of_word_number ha hb] at h
      cases h
    · rw [compareIdentifier_of_words ha hb, compareWords_eq_lt_iff] at h
      exact .words ha hb h
  · intro h
    cases h with
    | smaller ha hb h =>
      rw [compareIdentifier_of_numbers ha hb, compareDigits_eq_lt_iff]
      exact .inl h
    | fewerZeros ha hb hvalue h =>
      rw [compareIdentifier_of_numbers ha hb, compareDigits_eq_lt_iff]
      exact .inr ⟨hvalue, h⟩
    | numberFirst ha hb => exact compareIdentifier_of_number_word ha hb
    | words ha hb h => rwa [compareIdentifier_of_words ha hb, compareWords_eq_lt_iff]

/-! ## Comparing rows of identifiers -/

/-- Lists of identifiers are compared as lists are. -/
theorem compareIdentifiers_eq : compareIdentifiers = List.compareLex compareIdentifier := by
  funext as bs
  induction as generalizing bs with
  | nil => cases bs <;> rfl
  | cons a as ih =>
    cases bs with
    | nil => rfl
    | cons b bs => rw [compareIdentifiers, ih, List.compareLex_cons_cons]

instance : Std.TransCmp compareIdentifiers := by
  rw [compareIdentifiers_eq]
  infer_instance

instance : Std.LawfulEqCmp compareIdentifiers := by
  rw [compareIdentifiers_eq]
  infer_instance

/-- The comparison of lists of identifiers decides which comes before the other. -/
theorem compareIdentifiers_eq_lt_iff {as bs : List (List Char)} :
    compareIdentifiers as bs = .lt ↔ IdentifiersBefore as bs := by
  rw [compareIdentifiers_eq]
  exact compareLex_eq_lt_iff fun _ _ => compareIdentifier_eq_lt_iff

/-- Pre-releases that are not empty are compared as lists of identifiers. -/
theorem comparePreRelease_cons_cons {a b : List Char} {as bs : List (List Char)} :
    comparePreRelease (a :: as) (b :: bs) = compareIdentifiers (a :: as) (b :: bs) :=
  rfl

instance : Std.TransCmp comparePreRelease where
  eq_swap {as bs} := by
    cases as with
    | nil => cases bs <;> rfl
    | cons a as =>
      cases bs with
      | nil => rfl
      | cons b bs =>
        rw [comparePreRelease_cons_cons, comparePreRelease_cons_cons]
        exact Std.OrientedCmp.eq_swap
  isLE_trans {as bs cs} hab hbc := by
    cases cs with
    | nil => cases as <;> rfl
    | cons c cs =>
      -- the release is the last one, so none of the three is the release
      cases bs with
      | nil => cases hbc
      | cons b bs =>
        cases as with
        | nil => cases hab
        | cons a as =>
          rw [comparePreRelease_cons_cons] at hab hbc ⊢
          exact Std.TransCmp.isLE_trans hab hbc

instance : Std.LawfulEqCmp comparePreRelease where
  eq_of_compare {as bs} h := by
    cases as with
    | nil =>
      cases bs with
      | nil => rfl
      | cons b bs => cases h
    | cons a as =>
      cases bs with
      | nil => cases h
      | cons b bs =>
        rw [comparePreRelease_cons_cons] at h
        exact Std.LawfulEqCmp.eq_of_compare h

/-- The comparison of pre-releases decides which comes before the other. -/
theorem comparePreRelease_eq_lt_iff {as bs : List (List Char)} :
    comparePreRelease as bs = .lt ↔ PreReleaseBefore as bs := by
  have hnil : ∀ {ids}, ¬ PreReleaseBefore [] ids := by
    rintro ids (hids | ⟨has, _, _⟩)
    · exact hids rfl
    · exact has rfl
  cases as with
  | nil => cases bs <;> simp [comparePreRelease, hnil]
  | cons a as =>
    cases bs with
    | nil => exact ⟨fun _ => .release (by simp), fun _ => rfl⟩
    | cons b bs =>
      rw [comparePreRelease_cons_cons, compareIdentifiers_eq_lt_iff]
      refine ⟨.identifiers (by simp) (by simp), fun h => ?_⟩
      cases h with
      | identifiers _ _ h => exact h

/-! ## Comparing versions -/

instance : Std.TransCmp compare :=
  inferInstanceAs (Std.TransCmp (compareLex (compareOn major) (compareLex (compareOn minor)
    (compareLex (compareOn patch) (compareLex (Ordering.byKey preRelease comparePreRelease)
      (Ordering.byKey build compareIdentifiers))))))

/-- Only a version itself is equal to it in the order. -/
theorem compare_eq_eq_iff {a b : Version} : compare a b = .eq ↔ a = b := by
  simp only [compare, Ordering.then_eq_eq, Std.LawfulEqCmp.compare_eq_iff_eq]
  cases a
  cases b
  simp

instance : Std.LawfulEqCmp compare where
  eq_of_compare := compare_eq_eq_iff.mp

/-- The comparison of versions decides which comes before the other. -/
theorem compare_eq_lt_iff {a b : Version} : compare a b = .lt ↔ a.Before b := by
  simp only [compare, Ordering.then_eq_lt, Nat.compare_eq_lt, comparePreRelease_eq_lt_iff,
    Std.LawfulEqCmp.compare_eq_iff_eq, compareIdentifiers_eq_lt_iff]
  constructor
  · rintro (h | ⟨hmajor, h | ⟨hminor, h | ⟨hpatch, h | ⟨hpre, h⟩⟩⟩⟩)
    · exact .precedence (.major h)
    · exact .precedence (.minor hmajor h)
    · exact .precedence (.patch hmajor hminor h)
    · exact .precedence (.preRelease hmajor hminor hpatch h)
    · exact .build ⟨hmajor, hminor, hpatch, hpre⟩ h
  · rintro ((h | ⟨hmajor, h⟩ | ⟨hmajor, hminor, h⟩ | ⟨hmajor, hminor, hpatch, h⟩) |
      ⟨⟨hmajor, hminor, hpatch, hpre⟩, h⟩)
    · exact .inl h
    · exact .inr ⟨hmajor, .inl h⟩
    · exact .inr ⟨hmajor, .inr ⟨hminor, .inl h⟩⟩
    · exact .inr ⟨hmajor, .inr ⟨hminor, .inr ⟨hpatch, .inl h⟩⟩⟩
    · exact .inr ⟨hmajor, .inr ⟨hminor, .inr ⟨hpatch, .inr ⟨hpre, h⟩⟩⟩⟩

/-- What is greater than a version is what it comes before. -/
theorem compare_eq_gt_iff {a b : Version} : compare a b = .gt ↔ b.Before a :=
  Std.OrientedCmp.gt_iff_lt.trans compare_eq_lt_iff

/-! ## A total order -/

/-- No version comes before itself. -/
theorem not_before_self (a : Version) : ¬ a.Before a := by
  rw [← compare_eq_lt_iff, compare_eq_eq_iff.mpr rfl]
  decide

/-- The order of versions is transitive. -/
theorem Before.trans {a b c : Version} (hab : a.Before b) (hbc : b.Before c) : a.Before c := by
  rw [← compare_eq_lt_iff] at hab hbc ⊢
  exact Std.TransCmp.lt_trans hab hbc

/-- Of two different versions one comes before the other. -/
theorem before_trichotomy (a b : Version) : a.Before b ∨ a = b ∨ b.Before a := by
  rw [← compare_eq_lt_iff, ← compare_eq_eq_iff, ← compare_eq_gt_iff]
  cases compare a b <;> simp

/-- A version does not come before one with a smaller major number. -/
theorem Before.major_le {a b : Version} (h : a.Before b) : a.major ≤ b.major := by
  rcases h with (h | ⟨hmajor, _⟩ | ⟨hmajor, _, _⟩ | ⟨hmajor, _, _, _⟩) | ⟨halike, _⟩
  · exact h.le
  · exact hmajor.le
  · exact hmajor.le
  · exact hmajor.le
  · exact halike.major.le

/-! ## Versions of one precedence -/

/-- To differ in the build only is symmetric. -/
theorem Alike.symm {a b : Version} (h : a.Alike b) : b.Alike a :=
  ⟨h.major.symm, h.minor.symm, h.patch.symm, h.preRelease.symm⟩

/-- To differ in the build only is transitive. -/
theorem Alike.trans {a b c : Version} (hab : a.Alike b) (hbc : b.Alike c) : a.Alike c :=
  ⟨hab.major.trans hbc.major, hab.minor.trans hbc.minor, hab.patch.trans hbc.patch,
    hab.preRelease.trans hbc.preRelease⟩

/-- Versions that differ in their builds only have the same predecessors in precedence. -/
theorem Alike.precedes {a b c : Version} (h : b.Alike c) (hab : a.Precedes b) : a.Precedes c := by
  cases hab with
  | major hlt => exact .major (h.major ▸ hlt)
  | minor hmajor hlt => exact .minor (hmajor.trans h.major) (h.minor ▸ hlt)
  | patch hmajor hminor hlt =>
    exact .patch (hmajor.trans h.major) (hminor.trans h.minor) (h.patch ▸ hlt)
  | preRelease hmajor hminor hpatch hbefore =>
    exact .preRelease (hmajor.trans h.major) (hminor.trans h.minor) (hpatch.trans h.patch)
      (h.preRelease ▸ hbefore)

/-- Between versions of one precedence, the build metadata decides. -/
theorem Alike.before_iff {a b : Version} (h : a.Alike b) :
    a.Before b ↔ IdentifiersBefore a.build b.build := by
  constructor
  · rintro (hprecedes | ⟨_, hbuild⟩)
    · exact absurd (.precedence (h.symm.precedes hprecedes)) (not_before_self a)
    · exact hbuild
  · exact .build h

/-- Unless versions differ in their builds only, their order is that of precedence. -/
theorem before_iff_precedes {a b : Version} (h : ¬ a.Alike b) : a.Before b ↔ a.Precedes b := by
  constructor
  · rintro (hprecedes | ⟨halike, _⟩)
    · exact hprecedes
    · exact absurd halike h
  · exact .precedence

end Scaffolding.Version
