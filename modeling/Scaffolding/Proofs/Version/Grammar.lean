import Scaffolding.Proofs.Number.Digits
import Scaffolding.Version.Basic

/-!
# The grammar of versions

Semantic Versioning 2.0.0 as a relation between texts and versions, told by its own productions and not
by the functions that read or print. A version has one text in full, which is the one that is printed,
and it has one only if its numbers fit 64 bits and its identifiers are allowed.

The short forms leave out the last numbers.
-/

set_option autoImplicit false

namespace Scaffolding.Version

/-! ## Productions -/

/-- A number with its value: zero, or digits of which the first one is not zero. -/
inductive Numeral : List Char → Nat → Prop
  | zero : Numeral ['0'] 0
  | positive {first : Char} {more : List Char} (hfirst : '1' ≤ first ∧ first ≤ '9')
      (hmore : ∀ c ∈ more, '0' ≤ c ∧ c ≤ '9') :
      Numeral (first :: more) (Nat.ofDigitChars 10 (first :: more) 0)

/-- One of the three numbers of a version, which has to fit 64 bits. -/
def Component (cs : List Char) (n : Nat) : Prop :=
  Numeral cs n ∧ n < Nat.pow 2 64

def IdentifierChar (c : Char) : Prop :=
  'a' ≤ c ∧ c ≤ 'z' ∨ 'A' ≤ c ∧ c ≤ 'Z' ∨ '0' ≤ c ∧ c ≤ '9' ∨ c = '-'

/-- A number, or characters of which one is no digit. -/
inductive PreReleaseIdentifier : List Char → Prop
  | numeric {cs : List Char} {n : Nat} (h : Numeral cs n) : PreReleaseIdentifier cs
  | alphanumeric {cs : List Char} (hchars : ∀ c ∈ cs, IdentifierChar c)
      (hword : ∃ c ∈ cs, ¬ ('0' ≤ c ∧ c ≤ '9')) : PreReleaseIdentifier cs

def BuildIdentifier (cs : List Char) : Prop :=
  cs ≠ [] ∧ ∀ c ∈ cs, IdentifierChar c

/-- Identifiers with dots between them. -/
inductive Dotted (allowed : List Char → Prop) : List Char → List (List Char) → Prop
  | one {id : List Char} (h : allowed id) : Dotted allowed id [id]
  | more {id cs : List Char} {ids : List (List Char)} (h : allowed id)
      (hrest : Dotted allowed cs ids) : Dotted allowed (id ++ '.' :: cs) (id :: ids)

/-- Identifiers behind a sign, or neither. -/
inductive Signed (sign : Char) (allowed : List Char → Prop) :
    List Char → List (List Char) → Prop
  | absent : Signed sign allowed [] []
  | present {cs : List Char} {ids : List (List Char)} (h : Dotted allowed cs ids) :
      Signed sign allowed (sign :: cs) ids

/-- A version in full. -/
inductive Full : List Char → Version → Prop
  | mk {a b c p q : List Char} {v : Version} (hmajor : Component a v.major)
      (hminor : Component b v.minor) (hpatch : Component c v.patch)
      (hpre : Signed '-' PreReleaseIdentifier p v.preRelease)
      (hbuild : Signed '+' BuildIdentifier q v.build) :
      Full (a ++ '.' :: (b ++ '.' :: (c ++ (p ++ q)))) v

/-- A release without its last number, or without its last two. -/
inductive Short : List Char → Version → Prop
  | major {a : List Char} {m : Nat} (hmajor : Component a m) : Short a ⟨m, 0, 0, [], []⟩
  | minor {a b : List Char} {m n : Nat} (hmajor : Component a m) (hminor : Component b n) :
      Short (a ++ '.' :: b) ⟨m, n, 0, [], []⟩

/-- A version that can be written. -/
structure Valid (v : Version) : Prop where
  major : v.major < Nat.pow 2 64
  minor : v.minor < Nat.pow 2 64
  patch : v.patch < Nat.pow 2 64
  preRelease : ∀ id ∈ v.preRelease, PreReleaseIdentifier id
  build : ∀ id ∈ v.build, BuildIdentifier id

/-! ## Numbers -/

/-- The digits are the signs from zero to nine. -/
theorem isDigit_iff {c : Char} : c.isDigit = true ↔ '0' ≤ c ∧ c ≤ '9' := by
  simp [Char.isDigit, Char.le_def]

/-- A number has one numeral, its decimal one. -/
theorem numeral_iff {cs : List Char} {n : Nat} : Numeral cs n ↔ cs = natChars n := by
  constructor
  · rintro (_ | ⟨hfirst, hmore⟩)
    · rfl
    · next first more =>
      have hdigits : Digits (first :: more) := by
        refine ⟨by simp, ?_⟩
        intro c hc
        rw [isDigit_iff]
        rcases List.mem_cons.mp hc with rfl | hc
        · exact ⟨Char.le_trans (by decide) hfirst.1, hfirst.2⟩
        · exact hmore c hc
      have hzero : (first :: more).head? = some '0' → first :: more = ['0'] := by
        intro hhead
        cases hhead
        exact absurd hfirst.1 (by decide)
      exact (natChars_ofDigitChars hdigits hzero).symm
  · rintro rfl
    have hdigits := digits_natChars n
    by_cases hn : n = 0
    · rw [hn]
      exact .zero
    · cases hcs : natChars n with
      | nil => exact absurd hcs hdigits.1
      | cons first more =>
        have hvalue : n = Nat.ofDigitChars 10 (first :: more) 0 := by
          rw [← hcs, ofDigitChars_natChars]
        rw [hcs] at hdigits
        rw [hvalue]
        refine .positive (first_natChars hn hcs) fun c hc => ?_
        exact isDigit_iff.mp (hdigits.2 c (List.mem_cons_of_mem first hc))

/-- A numeral consists of digits. -/
theorem Numeral.digits {cs : List Char} {n : Nat} (h : Numeral cs n) : Digits cs := by
  rw [numeral_iff.mp h]
  exact digits_natChars n

/-! ## Identifiers -/

/-- A digit may stand in an identifier. -/
theorem IdentifierChar.of_isDigit {c : Char} (h : c.isDigit = true) : IdentifierChar c :=
  .inr (.inr (.inl (isDigit_iff.mp h)))

/-- An identifier of a pre-release consists of the signs for identifiers. -/
theorem PreReleaseIdentifier.chars {cs : List Char} (h : PreReleaseIdentifier cs) :
    ∀ c ∈ cs, IdentifierChar c := by
  cases h with
  | numeric h => exact fun c hc => .of_isDigit (h.digits.2 c hc)
  | alphanumeric hchars => exact hchars

/-- A dot may not stand in an identifier. -/
theorem not_identifierChar_dot : ¬ IdentifierChar '.' := by
  unfold IdentifierChar
  decide

variable {allowed : List Char → Prop}

/-- Identifiers with dots between them are their list joined at the dots. -/
theorem dotted_iff {cs : List Char} {ids : List (List Char)} :
    Dotted allowed cs ids ↔ ids ≠ [] ∧ cs = Text.joinChars '.' ids ∧ ∀ id ∈ ids, allowed id := by
  constructor
  · intro h
    induction h with
    | one h => exact ⟨by simp, rfl, by simpa using h⟩
    | @more id cs ids h _ ih =>
      obtain ⟨hne, rfl, hids⟩ := ih
      refine ⟨by simp, ?_, by simpa using ⟨h, hids⟩⟩
      obtain ⟨next, more, rfl⟩ := List.exists_cons_of_ne_nil hne
      rfl
  · rintro ⟨hne, rfl, hids⟩
    induction ids with
    | nil => exact absurd rfl hne
    | cons id ids ih =>
      have hid : allowed id := hids id List.mem_cons_self
      cases ids with
      | nil => exact .one hid
      | cons next more =>
        exact .more hid (ih (by simp) fun x hx => hids x (List.mem_cons_of_mem id hx))

/-- Identifiers behind a sign are those that stand after it. -/
theorem signed_iff {sign : Char} {cs : List Char} {ids : List (List Char)} :
    Signed sign allowed cs ids ↔ cs = signedChars sign ids ∧ ∀ id ∈ ids, allowed id := by
  constructor
  · rintro (_ | h)
    · exact ⟨rfl, by simp⟩
    · obtain ⟨hne, rfl, hids⟩ := dotted_iff.mp h
      obtain ⟨id, more, rfl⟩ := List.exists_cons_of_ne_nil hne
      exact ⟨rfl, hids⟩
  · rintro ⟨rfl, hids⟩
    cases ids with
    | nil => exact .absent
    | cons id more => exact .present (dotted_iff.mpr ⟨by simp, rfl, hids⟩)

/-- What stands in a dotted list is a dot or stands in an identifier. -/
theorem Dotted.mem {cs : List Char} {ids : List (List Char)} (h : Dotted allowed cs ids)
    (hallowed : ∀ id, allowed id → ∀ c ∈ id, IdentifierChar c) :
    ∀ c ∈ cs, IdentifierChar c ∨ c = '.' := by
  induction h with
  | @one id h => exact fun c hc => .inl (hallowed id h c hc)
  | @more id cs ids h _ ih =>
    intro c hc
    rcases List.mem_append.mp hc with hc | hc
    · exact .inl (hallowed id h c hc)
    · rcases List.mem_cons.mp hc with rfl | hc
      · exact .inr rfl
      · exact ih c hc

/-- What stands in a signed list is the sign, a dot or stands in an identifier. -/
theorem Signed.mem {sign : Char} {cs : List Char} {ids : List (List Char)}
    (h : Signed sign allowed cs ids) (hallowed : ∀ id, allowed id → ∀ c ∈ id, IdentifierChar c) :
    ∀ c ∈ cs, c = sign ∨ IdentifierChar c ∨ c = '.' := by
  cases h with
  | absent => simp
  | present h =>
    intro c hc
    exact (List.mem_cons.mp hc).imp_right (h.mem hallowed c)

/-! ## Versions -/

/-- A version has one text in full, the one that is printed, if it has any. -/
theorem full_iff {cs : List Char} {v : Version} : Full cs v ↔ cs = v.chars ∧ v.Valid := by
  constructor
  · rintro ⟨⟨hmajor, hmajorFits⟩, ⟨hminor, hminorFits⟩, ⟨hpatch, hpatchFits⟩, hpre, hbuild⟩
    rw [numeral_iff] at hmajor hminor hpatch
    rw [signed_iff] at hpre hbuild
    refine ⟨?_, hmajorFits, hminorFits, hpatchFits, hpre.2, hbuild.2⟩
    rw [chars, hmajor, hminor, hpatch, hpre.1, hbuild.1]
  · rintro ⟨rfl, h⟩
    exact .mk ⟨numeral_iff.mpr rfl, h.major⟩ ⟨numeral_iff.mpr rfl, h.minor⟩
      ⟨numeral_iff.mpr rfl, h.patch⟩ (signed_iff.mpr ⟨rfl, h.preRelease⟩)
      (signed_iff.mpr ⟨rfl, h.build⟩)

/-- No sign for identifiers is blank. -/
theorem IdentifierChar.not_blank {c : Char} (h : IdentifierChar c) : Text.isBlank c = false := by
  have hrange : 45 ≤ c.toNat ∧ c.toNat ≤ 122 := by
    rcases h with h | h | h | rfl
    · exact ⟨Nat.le_trans (by decide) h.1, h.2⟩
    · exact ⟨Nat.le_trans (by decide) h.1, Nat.le_trans h.2 (by decide)⟩
    · exact ⟨Nat.le_trans (by decide) h.1, Nat.le_trans h.2 (by decide)⟩
    · decide
  simp only [Text.isBlank, Bool.or_eq_false_iff, Bool.and_eq_false_iff, decide_eq_false_iff_not,
    beq_eq_false_iff_ne]
  omega

/-- There is no blank in a full version. -/
theorem Full.not_blank {cs : List Char} {v : Version} (h : Full cs v) :
    ∀ c ∈ cs, Text.isBlank c = false := by
  obtain ⟨hmajor, hminor, hpatch, hpre, hbuild⟩ := h
  have hnumber : ∀ {cs n}, Component cs n → ∀ c ∈ cs, Text.isBlank c = false := fun h c hc =>
    (IdentifierChar.of_isDigit (h.1.digits.2 c hc)).not_blank
  have hsigned : ∀ {sign allowed cs ids}, Signed sign allowed cs ids →
      Text.isBlank sign = false → (∀ id, allowed id → ∀ c ∈ id, IdentifierChar c) →
      ∀ c ∈ cs, Text.isBlank c = false := by
    intro sign allowed cs ids h hsign hallowed c hc
    rcases h.mem hallowed c hc with rfl | hid | rfl
    · exact hsign
    · exact hid.not_blank
    · decide
  simp only [List.forall_mem_append, List.forall_mem_cons]
  exact ⟨hnumber hmajor, by decide, hnumber hminor, by decide, hnumber hpatch,
    hsigned hpre (by decide) fun _ hid => hid.chars, hsigned hbuild (by decide) fun _ hid => hid.2⟩

end Scaffolding.Version
