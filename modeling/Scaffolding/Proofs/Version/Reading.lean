import Scaffolding.Proofs.Text.Blank
import Scaffolding.Proofs.Version.Grammar

/-!
# Versions read back

Reading a version accepts its grammar and nothing else. The short forms are read in two goes, of which
the first one takes more for a number than the second, plus signs and extra zeros among them: what both
accept are the numbers of the grammar.
-/

set_option autoImplicit false

namespace Scaffolding.Version

/-! ## Numbers -/

/-- The test for digits is the one of the grammar. -/
theorem isDigits_iff {cs : List Char} : isDigits cs = true ↔ Digits cs := by
  simp [isDigits, Digits]

/-- A numeral has a zero more than it needs exactly if it starts with one and is longer. -/
theorem hasExtraZero_eq_false_iff {cs : List Char} (h : cs ≠ []) :
    hasExtraZero cs = false ↔ (cs.head? = some '0' → cs = ['0']) := by
  obtain ⟨c, rest, rfl⟩ := List.exists_cons_of_ne_nil h
  cases rest <;> simp [hasExtraZero]

/-- Digits without an extra zero are a number with their value. -/
theorem numeral_of_isDigits {cs : List Char} (hdigits : isDigits cs = true)
    (hzero : hasExtraZero cs = false) : Numeral cs (digitsValue cs) := by
  have hcs := isDigits_iff.mp hdigits
  rw [hasExtraZero_eq_false_iff hcs.1] at hzero
  rw [numeral_iff, digitsValue_eq, natChars_ofDigitChars hcs hzero]

/-- A numeral passes the tests for numbers and has its value. -/
theorem Numeral.isDigits {cs : List Char} {n : Nat} (h : Numeral cs n) :
    isDigits cs = true ∧ hasExtraZero cs = false ∧ digitsValue cs = n := by
  have hcs := h.digits
  rw [numeral_iff] at h
  refine ⟨isDigits_iff.mpr hcs, (hasExtraZero_eq_false_iff hcs.1).mpr ?_, ?_⟩
  · intro hhead
    rw [h] at hhead ⊢
    rw [eq_zero_of_head_natChars hhead]
    rfl
  · rw [h, digitsValue_natChars]

/-- What is read as a component is one of the grammar. -/
theorem component?_eq_some_iff {cs : List Char} {n : Nat} :
    component? cs = some n ↔ Component cs n := by
  unfold component? Component
  constructor
  · intro h
    split at h
    · next hcs =>
      cases h
      simp only [Bool.and_eq_true, Bool.not_eq_true', decide_eq_true_eq] at hcs
      exact ⟨numeral_of_isDigits hcs.1.1 hcs.1.2, hcs.2⟩
    · cases h
  · rintro ⟨hcs, hfits⟩
    obtain ⟨hdigits, hzero, hvalue⟩ := hcs.isDigits
    rw [hdigits, hzero, hvalue, decide_eq_true hfits]
    rfl

/-! ## Identifiers -/

/-- The test for the signs of identifiers is the one of the grammar. -/
theorem isIdentifierChar_iff {c : Char} : isIdentifierChar c = true ↔ IdentifierChar c := by
  have halphanum : c.isAlphanum = (c.isAlpha || c.isDigit) := rfl
  have halpha : c.isAlpha = (c.isUpper || c.isLower) := rfl
  have hupper : c.isUpper = decide ('A' ≤ c ∧ c ≤ 'Z') := rfl
  have hlower : c.isLower = (decide ('a' ≤ c) && decide (c ≤ 'z')) := rfl
  rw [isIdentifierChar, halphanum, halpha, hupper, hlower, IdentifierChar]
  simp only [Bool.or_eq_true, Bool.and_eq_true, decide_eq_true_eq, isDigit_iff, beq_iff_eq]
  rw [or_assoc, or_assoc, or_left_comm]

/-- The test for the identifiers of a build is the one of the grammar. -/
theorem isBuildIdentifier_iff {cs : List Char} :
    isBuildIdentifier cs = true ↔ BuildIdentifier cs := by
  simp [isBuildIdentifier, BuildIdentifier, isIdentifierChar_iff]

/-- The test for the identifiers of a pre-release is the one of the grammar. -/
theorem isPreReleaseIdentifier_iff {cs : List Char} :
    isPreReleaseIdentifier cs = true ↔ PreReleaseIdentifier cs := by
  rw [isPreReleaseIdentifier, Bool.and_eq_true, isBuildIdentifier_iff, Bool.not_eq_true',
    Bool.and_eq_false_iff]
  constructor
  · rintro ⟨⟨hne, hchars⟩, hword⟩
    by_cases hdigits : cs.all Char.isDigit = true
    · have hzero : hasExtraZero cs = false := hword.resolve_left (by simp [hdigits])
      have hall : isDigits cs = true := isDigits_iff.mpr ⟨hne, List.all_eq_true.mp hdigits⟩
      exact .numeric (numeral_of_isDigits hall hzero)
    · rw [Bool.not_eq_true, List.all_eq_false] at hdigits
      obtain ⟨c, hc, hdigit⟩ := hdigits
      rw [isDigit_iff] at hdigit
      exact .alphanumeric hchars ⟨c, hc, hdigit⟩
  · intro h
    refine ⟨⟨?_, h.chars⟩, ?_⟩
    · rintro rfl
      cases h with
      | numeric h => exact h.digits.1 rfl
      | alphanumeric _ hword => simp at hword
    · cases h with
      | numeric h => exact .inr h.isDigits.2.1
      | alphanumeric _ hword =>
        obtain ⟨c, hc, hrange⟩ := hword
        refine .inl (List.all_eq_false.mpr ⟨c, hc, ?_⟩)
        rwa [isDigit_iff]

/-- There is no dot in an identifier. -/
theorem not_mem_dot_of_identifierChar {cs : List Char} (h : ∀ c ∈ cs, IdentifierChar c) :
    '.' ∉ cs :=
  fun hdot => not_identifierChar_dot (h '.' hdot)

/-- Reading identifiers, or none, is reading what stands behind the sign, if it is there. -/
theorem identifiers?_eq_some_iff {sign : Char} {isAllowed : List Char → Bool}
    {allowed : List Char → Prop} (hallowed : ∀ id, isAllowed id = true ↔ allowed id)
    (hchars : ∀ id, allowed id → ∀ c ∈ id, IdentifierChar c) {back : Option (List Char)}
    {ids : List (List Char)} :
    identifiers? isAllowed back = some ids ↔
      Signed sign allowed (back.elim [] (sign :: ·)) ids := by
  cases back with
  | none =>
    constructor
    · rintro ⟨⟩
      exact .absent
    · intro h
      cases h
      rfl
  | some cs =>
    have hdotted : identifiers? isAllowed (some cs) = some ids ↔ Dotted allowed cs ids := by
      rw [dotted_iff]
      simp only [identifiers?, List.all_eq_true, hallowed, Option.ite_none_right_eq_some,
        Option.some.injEq]
      constructor
      · rintro ⟨hids, rfl⟩
        exact ⟨Text.splitChars_ne_nil '.' cs, (Text.joinChars_splitChars '.' cs).symm, hids⟩
      · rintro ⟨hne, rfl, hids⟩
        have hsplit := Text.splitChars_joinChars hne fun id hid =>
          not_mem_dot_of_identifierChar (hchars id (hids id hid))
        rw [hsplit]
        exact ⟨hids, rfl⟩
    rw [hdotted]
    constructor
    · exact .present
    · intro h
      cases h with
      | present h => exact h

/-- What is read as a pre-release is one of the grammar. -/
theorem preRelease?_eq_some_iff {back : Option (List Char)} {ids : List (List Char)} :
    identifiers? isPreReleaseIdentifier back = some ids ↔
      Signed '-' PreReleaseIdentifier (back.elim [] ('-' :: ·)) ids :=
  identifiers?_eq_some_iff (fun _ => isPreReleaseIdentifier_iff) fun _ hid => hid.chars

/-- What is read as a build is one of the grammar. -/
theorem build?_eq_some_iff {back : Option (List Char)} {ids : List (List Char)} :
    identifiers? isBuildIdentifier back = some ids ↔
      Signed '+' BuildIdentifier (back.elim [] ('+' :: ·)) ids :=
  identifiers?_eq_some_iff (fun _ => isBuildIdentifier_iff) fun _ hid => hid.2

/-! ## Versions in full -/

/-- What is set off by a sign in the grammar, if anything is. -/
theorem Signed.exists_back {sign : Char} {allowed : List Char → Prop} {cs : List Char}
    {ids : List (List Char)} (h : Signed sign allowed cs ids) :
    ∃ back : Option (List Char), cs = back.elim [] (sign :: ·) := by
  cases h with
  | absent => exact ⟨none, rfl⟩
  | @present cs => exact ⟨some cs, rfl⟩

/-- Nothing but digits stands in a component. -/
theorem Component.not_mem {cs : List Char} {n : Nat} (h : Component cs n) {c : Char}
    (hc : c.isDigit = false) : c ∉ cs := by
  intro hmem
  rw [h.1.digits.2 c hmem] at hc
  cases hc

/-- The three numbers of a version are found again. -/
theorem splitChars_numbers {a b c : List Char} {l m n : Nat} (ha : Component a l)
    (hb : Component b m) (hc : Component c n) :
    Text.splitChars '.' (a ++ '.' :: (b ++ '.' :: c)) = [a, b, c] := by
  rw [Text.splitChars_append (ha.not_mem (by decide)),
    Text.splitChars_append (hb.not_mem (by decide)),
    Text.splitChars_of_not_mem (hc.not_mem (by decide))]

/-- What is read from a text that was cut at its two signs. -/
theorem parse?_of_cut {cs front core : List Char} {build preRelease : Option (List Char)}
    {v : Version} (hplus : Text.cutFirst '+' cs = (front, build))
    (hminus : Text.cutFirst '-' front = (core, preRelease)) :
    parse? cs = some v ↔
      ∃ a b c, Text.splitChars '.' core = [a, b, c] ∧ Component a v.major ∧
        Component b v.minor ∧ Component c v.patch ∧
        identifiers? isPreReleaseIdentifier preRelease = some v.preRelease ∧
        identifiers? isBuildIdentifier build = some v.build := by
  unfold parse?
  rw [hplus]
  dsimp only
  rw [hminus]
  dsimp only
  constructor
  · intro h
    split at h
    · next a b c hsplit =>
      obtain ⟨l, hmajor, h⟩ := Option.bind_eq_some_iff.mp h
      obtain ⟨m, hminor, h⟩ := Option.bind_eq_some_iff.mp h
      obtain ⟨n, hpatch, h⟩ := Option.bind_eq_some_iff.mp h
      obtain ⟨pre, hpre, h⟩ := Option.bind_eq_some_iff.mp h
      obtain ⟨ids, hbuild, h⟩ := Option.bind_eq_some_iff.mp h
      cases h
      rw [component?_eq_some_iff] at hmajor hminor hpatch
      exact ⟨a, b, c, hsplit, hmajor, hminor, hpatch, hpre, hbuild⟩
    · cases h
  · rintro ⟨a, b, c, hsplit, hmajor, hminor, hpatch, hpre, hbuild⟩
    rw [← component?_eq_some_iff] at hmajor hminor hpatch
    simp only [hsplit, hmajor, hminor, hpatch, hpre, hbuild]
    rfl

/-- The two signs of a version in full are where it is cut: its numbers hold neither of them, and its
pre-release has no plus sign. -/
theorem Full.exists_cut {cs : List Char} {v : Version} (h : Full cs v) :
    ∃ a b c front build preRelease, Text.cutFirst '+' cs = (front, build) ∧
      Text.cutFirst '-' front = (a ++ '.' :: (b ++ '.' :: c), preRelease) ∧
      Component a v.major ∧ Component b v.minor ∧ Component c v.patch ∧
      Signed '-' PreReleaseIdentifier (preRelease.elim [] ('-' :: ·)) v.preRelease ∧
      Signed '+' BuildIdentifier (build.elim [] ('+' :: ·)) v.build := by
  obtain ⟨hmajor, hminor, hpatch, hpre, hbuild⟩ := h
  next a b c p q =>
  obtain ⟨build, rfl⟩ := hbuild.exists_back
  obtain ⟨preRelease, rfl⟩ := hpre.exists_back
  have hcore : ∀ x, Char.isDigit x = false → x ≠ '.' → x ∉ a ++ '.' :: (b ++ '.' :: c) := by
    intro x hdigit hdot
    simp [hmajor.not_mem hdigit, hminor.not_mem hdigit, hpatch.not_mem hdigit, hdot]
  have hfront : '+' ∉ a ++ '.' :: (b ++ '.' :: c) ++ preRelease.elim [] ('-' :: ·) := by
    intro hmem
    rcases List.mem_append.mp hmem with hmem | hmem
    · exact hcore '+' (by decide) (by decide) hmem
    · have hplus := hpre.mem (fun _ hid => hid.chars) '+' hmem
      revert hplus
      unfold IdentifierChar
      decide
  have hcs : a ++ '.' :: (b ++ '.' :: (c ++
      (preRelease.elim [] ('-' :: ·) ++ build.elim [] ('+' :: ·)))) =
        (a ++ '.' :: (b ++ '.' :: c) ++ preRelease.elim [] ('-' :: ·)) ++
          build.elim [] ('+' :: ·) := by simp
  rw [hcs]
  exact ⟨a, b, c, _, build, preRelease, Text.cutFirst_append_elim hfront build,
    Text.cutFirst_append_elim (hcore '-' (by decide) (by decide)) preRelease,
    hmajor, hminor, hpatch, hpre, hbuild⟩

/-- Reading a version in full accepts its grammar and nothing else. -/
theorem parse?_eq_some_iff {cs : List Char} {v : Version} : parse? cs = some v ↔ Full cs v := by
  constructor
  · intro h
    rcases hplus : Text.cutFirst '+' cs with ⟨front, build⟩
    rcases hminus : Text.cutFirst '-' front with ⟨core, preRelease⟩
    obtain ⟨a, b, c, hsplit, hmajor, hminor, hpatch, hpre, hbuild⟩ :=
      (parse?_of_cut hplus hminus).mp h
    rw [preRelease?_eq_some_iff] at hpre
    rw [build?_eq_some_iff] at hbuild
    have hcs := Text.append_elim_cutFirst '+' cs
    have hfront := Text.append_elim_cutFirst '-' front
    have hcore := Text.joinChars_splitChars '.' core
    rw [hplus] at hcs
    rw [hminus] at hfront
    rw [hsplit] at hcore
    rw [← hcs, ← hfront, ← hcore]
    simpa [Text.joinChars] using Full.mk hmajor hminor hpatch hpre hbuild
  · intro h
    obtain ⟨a, b, c, front, build, preRelease, hplus, hminus, hmajor, hminor, hpatch, hpre, hbuild⟩ :=
      h.exists_cut
    rw [← preRelease?_eq_some_iff] at hpre
    rw [← build?_eq_some_iff] at hbuild
    exact (parse?_of_cut hplus hminus).mpr
      ⟨a, b, c, splitChars_numbers hmajor hminor hpatch, hmajor, hminor, hpatch, hpre, hbuild⟩

/-! ## Short forms -/

/-- A word is digits, but for a plus sign that may stand in front. -/
theorem digits_of_isWord {cs : List Char} (h : isWord cs = true) :
    '.' ∉ cs ∧ ∀ c ∈ cs.tail, c.isDigit = true := by
  have hdot : ∀ {ds : List Char}, Digits ds → '.' ∉ ds := fun hds hmem =>
    absurd (hds.2 '.' hmem) (by decide)
  unfold isWord at h
  split at h
  · next rest =>
    rw [Bool.and_eq_true, isDigits_iff] at h
    exact ⟨by simpa using hdot h.1, h.1.2⟩
  · rw [Bool.and_eq_true, isDigits_iff] at h
    exact ⟨hdot h.1, fun c hc => h.1.2 c (List.mem_of_mem_tail hc)⟩

/-- A component is a word of the short form. -/
theorem Component.isWord {cs : List Char} {n : Nat} (h : Component cs n) :
    isWord cs = true := by
  obtain ⟨hdigits, -, hvalue⟩ := h.1.isDigits
  have hfits : digitsValue cs < Nat.pow 2 64 := by
    rw [hvalue]
    exact h.2
  unfold Version.isWord
  split
  · next rest =>
    exact absurd List.mem_cons_self (h.not_mem (by decide : Char.isDigit '+' = false))
  · dsimp only
    rw [hdigits, decide_eq_true hfits]
    rfl

/-- A single zero is the component zero. -/
theorem component_zero_iff {n : Nat} : Component ['0'] n ↔ n = 0 := by
  constructor
  · intro h
    have htext : natChars 0 = natChars n := numeral_iff.mp h.1
    exact (natChars_inj htext).symm
  · rintro rfl
    exact ⟨.zero, by decide⟩

/-- Digits leave no room for a sign. -/
theorem Signed.eq_nil_of_digits {sign : Char} {allowed : List Char → Prop} {cs : List Char}
    {ids : List (List Char)} (h : Signed sign allowed cs ids) (hsign : sign.isDigit = false)
    (hcs : ∀ c ∈ cs, c.isDigit = true) : cs = [] ∧ ids = [] := by
  cases h with
  | absent => exact ⟨rfl, rfl⟩
  | present => exact absurd (hcs sign List.mem_cons_self) (by simp [hsign])

/-- Three words with dots between them are a version in full only if they are its numbers: a plus sign
would have to stand behind the last one. -/
theorem full_words_iff {x y z : List Char} (hx : isWord x = true) (hy : isWord y = true)
    (hz : isWord z = true) {v : Version} :
    Full (x ++ '.' :: (y ++ '.' :: z)) v ↔ Component x v.major ∧ Component y v.minor ∧
      Component z v.patch ∧ v.preRelease = [] ∧ v.build = [] := by
  constructor
  · generalize hcs : x ++ '.' :: (y ++ '.' :: z) = cs
    rintro ⟨hmajor, hminor, hpatch, hpre, hbuild⟩
    next a b c p q =>
    have hsplit := congrArg (Text.splitChars '.') hcs
    rw [Text.splitChars_append (digits_of_isWord hx).1,
      Text.splitChars_append (digits_of_isWord hy).1,
      Text.splitChars_of_not_mem (digits_of_isWord hz).1,
      Text.splitChars_append (hmajor.not_mem (by decide)),
      Text.splitChars_append (hminor.not_mem (by decide)), List.cons.injEq, List.cons.injEq] at hsplit
    obtain ⟨rfl, rfl, hlast⟩ := hsplit
    have hzeq : z = c ++ (p ++ q) := by
      rw [← Text.joinChars_splitChars '.' (c ++ (p ++ q)), ← hlast]
      rfl
    have htail : ∀ d ∈ p ++ q, d.isDigit = true := by
      intro d hd
      obtain ⟨first, more, rfl⟩ := List.exists_cons_of_ne_nil hpatch.1.digits.1
      apply (digits_of_isWord hz).2
      rw [hzeq]
      exact List.mem_append_right more hd
    obtain ⟨rfl, hnoPre⟩ := hpre.eq_nil_of_digits (by decide) fun d hd =>
      htail d (List.mem_append_left q hd)
    obtain ⟨rfl, hnoBuild⟩ := hbuild.eq_nil_of_digits (by decide) fun d hd =>
      htail d (List.mem_append_right [] hd)
    rw [List.append_nil, List.append_nil] at hzeq
    rw [hzeq]
    exact ⟨hmajor, hminor, hpatch, hnoPre, hnoBuild⟩
  · rintro ⟨hmajor, hminor, hpatch, hpre, hbuild⟩
    have hnoPre : Signed '-' PreReleaseIdentifier [] v.preRelease := by
      rw [hpre]
      exact .absent
    have hnoBuild : Signed '+' BuildIdentifier [] v.build := by
      rw [hbuild]
      exact .absent
    simpa using Full.mk hmajor hminor hpatch hnoPre hnoBuild

/-- A text with two dots before anything else has no short form. -/
theorem Short.not_full {cs : List Char} {v w : Version} (h : Short cs v) : ¬ Full cs w := by
  intro hfull
  obtain ⟨hmajor, hminor, -, -, -⟩ := hfull
  next a b c p q =>
  have hcount : 3 ≤ (Text.splitChars '.' (a ++ '.' :: (b ++ '.' :: (c ++ (p ++ q))))).length := by
    rw [Text.splitChars_append (hmajor.not_mem (by decide)),
      Text.splitChars_append (hminor.not_mem (by decide)), List.length_cons, List.length_cons]
    have hpos := List.length_pos_iff.mpr (Text.splitChars_ne_nil '.' (c ++ (p ++ q)))
    omega
  generalize a ++ '.' :: (b ++ '.' :: (c ++ (p ++ q))) = cs at h hcount
  cases h with
  | major hmajor =>
    rw [Text.splitChars_of_not_mem (hmajor.not_mem (by decide))] at hcount
    simp at hcount
  | minor hmajor hminor =>
    rw [Text.splitChars_append (hmajor.not_mem (by decide)),
      Text.splitChars_of_not_mem (hminor.not_mem (by decide))] at hcount
    simp at hcount

/-- Three words with dots between them are read as a version exactly if they are its components. -/
theorem parse?_words_iff {x y z : List Char} (hx : isWord x = true) (hy : isWord y = true)
    (hz : isWord z = true) {v : Version} :
    parse? (Text.joinChars '.' [x, y, z]) = some v ↔ Component x v.major ∧
      Component y v.minor ∧ Component z v.patch ∧ v.preRelease = [] ∧ v.build = [] :=
  parse?_eq_some_iff.trans (full_words_iff hx hy hz)

/-- Up to three words with dots between them are read as the version that they make with zeros. -/
theorem short?_of_words {pieces : List (List Char)} (hne : pieces ≠ []) (hlength : pieces.length ≤ 3)
    (hwords : ∀ piece ∈ pieces, isWord piece = true) :
    short? (Text.joinChars '.' pieces) = parse? (Text.joinChars '.' (padded pieces)) := by
  have hsplit : Text.splitChars '.' (Text.joinChars '.' pieces) = pieces :=
    Text.splitChars_joinChars hne fun piece hpiece => (digits_of_isWord (hwords piece hpiece)).1
  rw [short?, hsplit]
  exact if_pos ⟨hlength, List.all_eq_true.mpr hwords⟩

/-- What is no version in full is read as a short form, if it is one. -/
theorem short?_eq_some_iff {cs : List Char} (hfull : parse? cs = none) {v : Version} :
    short? cs = some v ↔ Short cs v := by
  have hzero : isWord ['0'] = true := by decide
  constructor
  · intro h
    have hcs := Text.joinChars_splitChars '.' cs
    have hnil := Text.splitChars_ne_nil '.' cs
    unfold short? at h
    generalize Text.splitChars '.' cs = pieces at h hcs hnil
    dsimp only at h
    rw [Option.ite_none_right_eq_some, List.all_eq_true] at h
    obtain ⟨⟨hlength, hwords⟩, h⟩ := h
    obtain ⟨l, m, n, pre, build⟩ := v
    subst hcs
    match pieces with
    | [] => exact absurd rfl hnil
    | [x] =>
      have hx : isWord x = true := hwords x (by simp)
      obtain ⟨hmajor, hminor, hpatch, rfl, rfl⟩ := (parse?_words_iff hx hzero hzero).mp h
      obtain rfl := component_zero_iff.mp hminor
      obtain rfl := component_zero_iff.mp hpatch
      exact .major hmajor
    | [x, y] =>
      have hx : isWord x = true := hwords x (by simp)
      have hy : isWord y = true := hwords y (by simp)
      obtain ⟨hmajor, hminor, hpatch, rfl, rfl⟩ := (parse?_words_iff hx hy hzero).mp h
      obtain rfl := component_zero_iff.mp hpatch
      exact .minor hmajor hminor
    | [x, y, z] =>
      -- nothing is padded, so this is what was read before
      rw [show padded [x, y, z] = [x, y, z] from rfl, hfull] at h
      cases h
    | _ :: _ :: _ :: _ :: _ =>
      rw [List.length_cons, List.length_cons, List.length_cons, List.length_cons] at hlength
      omega
  · intro h
    cases h with
    | @major a m hmajor =>
      have hwords : ∀ piece ∈ [cs], isWord piece = true := by simpa using hmajor.isWord
      have hshort := short?_of_words (by simp) (by simp) hwords
      refine hshort.trans ((parse?_words_iff hmajor.isWord hzero hzero).mpr ?_)
      exact ⟨hmajor, component_zero_iff.mpr rfl, component_zero_iff.mpr rfl, rfl, rfl⟩
    | @minor a b m n hmajor hminor =>
      have hwords : ∀ piece ∈ [a, b], isWord piece = true := by
        simpa using ⟨hmajor.isWord, hminor.isWord⟩
      have hshort := short?_of_words (by simp) (by simp) hwords
      refine hshort.trans ((parse?_words_iff hmajor.isWord hminor.isWord hzero).mpr ?_)
      exact ⟨hmajor, hminor, component_zero_iff.mpr rfl, rfl, rfl⟩

/-! ## As a registry writes it -/

/-- A text without one letter `v` that may stand at its start. -/
inductive Bare : List Char → List Char → Prop
  | marked {cs : List Char} : Bare ('v' :: cs) cs
  | plain {cs : List Char} (h : cs.head? ≠ some 'v') : Bare cs cs

/-- The bare form of a text is what is left without a letter v in front. -/
theorem bare_iff {cs bare : List Char} : Bare cs bare ↔ dropV cs = bare := by
  constructor
  · intro h
    cases h with
    | marked => rfl
    | plain h =>
      unfold dropV
      split
      · exact absurd rfl h
      · rfl
  · rintro rfl
    unfold dropV
    split
    · exact .marked
    · next hne =>
      refine .plain fun hhead => ?_
      obtain ⟨rest, rfl⟩ := List.head?_eq_some_iff.mp hhead
      exact hne rest rfl

/-- A version is read in full if it can be, and short otherwise; no text is both. -/
theorem read?_eq_some_iff {s : String} {v : Version} :
    read? s = some v ↔ ∃ body cs, Text.Trimmed s.toList body ∧ Bare body cs ∧
      (Full cs v ∨ Short cs v) := by
  have hbare : (∃ body cs, Text.Trimmed s.toList body ∧ Bare body cs ∧ (Full cs v ∨ Short cs v)) ↔
      Full (dropV (Text.trimChars s.toList)) v ∨ Short (dropV (Text.trimChars s.toList)) v := by
    constructor
    · rintro ⟨body, cs, hbody, hcs, h⟩
      rwa [Text.trimmed_iff.mp hbody, bare_iff.mp hcs]
    · intro h
      exact ⟨_, _, Text.trimmed_iff.mpr rfl, bare_iff.mpr rfl, h⟩
  rw [hbare]
  unfold read?
  generalize dropV (Text.trimChars s.toList) = cs
  dsimp only
  cases hparse : parse? cs with
  | none =>
    have hnot : ¬ Full cs v := by
      rw [← parse?_eq_some_iff, hparse]
      simp
    rw [short?_eq_some_iff hparse, or_iff_right hnot]
  | some w =>
    have hfull : Full cs w := parse?_eq_some_iff.mp hparse
    have hnot : ¬ Short cs v := fun hshort => hshort.not_full hfull
    rw [or_iff_left hnot, ← parse?_eq_some_iff, hparse]

/-- With a letter v or without, a version has its own text as the bare form. -/
theorem bare_chars {mark : List Char} (hmark : mark ∈ [[], ['v']]) (v : Version) :
    Bare (mark ++ v.chars) v.chars := by
  rw [List.mem_cons, List.mem_singleton] at hmark
  rcases hmark with rfl | rfl
  · obtain ⟨c, rest, hc⟩ := List.exists_cons_of_ne_nil (digits_natChars v.major).1
    have hdigit : c.isDigit = true := (digits_natChars v.major).2 c (by simp [hc])
    refine .plain ?_
    rw [List.nil_append, chars, hc, List.cons_append, List.head?_cons, ne_eq, Option.some.injEq]
    rintro rfl
    exact absurd hdigit (by decide)
  · exact .marked

/-- A text is read as a version exactly if, without the blanks around it and one letter `v`, it is the
version in full or one of its short forms; and so every version that can be written is read back from
between blanks, with or without the letter. -/
theorem read?_accepts :
    (∀ (s : String) (v : Version), read? s = some v ↔
      ∃ body cs, Text.Trimmed s.toList body ∧ Bare body cs ∧ (Full cs v ∨ Short cs v)) ∧
    ∀ v : Version, v.Valid → ∀ before mark after : List Char,
      (∀ c ∈ before, Text.isBlank c = true) → mark ∈ [[], ['v']] →
      (∀ c ∈ after, Text.isBlank c = true) →
      read? (String.ofList (before ++ (mark ++ v.text.toList ++ after))) = some v := by
  refine ⟨fun s v => read?_eq_some_iff, ?_⟩
  intro v hv before mark after hbefore hmark hafter
  have hfull : Full v.chars v := full_iff.mpr ⟨rfl, hv⟩
  have hplain : ∀ c ∈ mark ++ v.chars, Text.isBlank c = false := by
    intro c hc
    rcases List.mem_append.mp hc with hc | hc
    · rw [List.mem_cons, List.mem_singleton] at hmark
      rcases hmark with rfl | rfl
      · cases hc
      · rw [List.mem_singleton.mp hc]
        decide
    · exact hfull.not_blank c hc
  have htrimmed : Text.Trimmed (before ++ (mark ++ v.chars ++ after)) (mark ++ v.chars) :=
    ⟨before, after, rfl, hbefore, hafter, fun c hc => hplain c (List.mem_of_mem_head? hc),
      fun c hc => hplain c (List.mem_of_getLast? hc)⟩
  rw [read?_eq_some_iff, String.toList_ofList, text, String.toList_ofList]
  exact ⟨_, _, htrimmed, bare_chars hmark v, .inl hfull⟩

/-- A version with the greatest number, a pre-release with a word that starts with a zero, and a number
in the build metadata that does. -/
def candidate : Version where
  major := Nat.pow 2 64 - 1
  minor := 0
  patch := 10
  preRelease := ["rc".toList, "0".toList, "0x-1".toList]
  build := ["007".toList]

/-- The candidate for a release is valid and read, with blanks and a letter v around it. -/
theorem read?_accepts_candidate :
    candidate.Valid ∧ read? "\tv18446744073709551615.0.10-rc.0.0x-1+007 \n" = some candidate := by
  have hpre : ∀ id ∈ candidate.preRelease, isPreReleaseIdentifier id = true := by decide
  have hbuild : ∀ id ∈ candidate.build, isBuildIdentifier id = true := by decide
  have hvalid : candidate.Valid :=
    ⟨by decide, by decide, by decide, fun id hid => isPreReleaseIdentifier_iff.mp (hpre id hid),
      fun id hid => isBuildIdentifier_iff.mp (hbuild id hid)⟩
  have htext : "\tv18446744073709551615.0.10-rc.0.0x-1+007 \n" =
      String.ofList (['\t'] ++ (['v'] ++ candidate.text.toList ++ [' ', '\n'])) := by
    decide +kernel
  refine ⟨hvalid, ?_⟩
  rw [htext]
  exact read?_accepts.2 candidate hvalid ['\t'] ['v'] [' ', '\n']
    (List.all_eq_true.mp (by decide)) (by decide) (List.all_eq_true.mp (by decide))

end Scaffolding.Version
