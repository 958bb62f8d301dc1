import Scaffolding.Json.Printer
import Scaffolding.Yaml.Token.Flow

/-!
# Texts of JSON as quoted scalars

A text between the quotes of JSON is a scalar in double quotes, and it is read back as the text that it
was. Every escape of JSON is one of YAML with the same meaning. What stands for itself must be a
character that a YAML text may hold and that ends no line; spaces are gaps between words, and as gaps
they are kept.

The separators of lines and of paragraphs are not escaped in JSON, and they end a line in YAML. They
are kept as well, but spaces beside them are not, and what follows them stands at the start of a line,
where three dashes or three dots end the document.
-/

set_option autoImplicit false

namespace Scaffolding.Yaml

open Json (escapeChar quoteChars)

/-- A character that stands for itself between the quotes of a scalar, or by an escape. -/
def Carried (c : Char) : Prop :=
  c.toNat < 32 ∨ isAllowed c = true ∧ isBreak c = false

instance (c : Char) : Decidable (Carried c) :=
  inferInstanceAs (Decidable (c.toNat < 32 ∨ isAllowed c = true ∧ isBreak c = false))

/-- The escape of a control sign is read as the sign. -/
theorem hexChar?_escape {c : Char} (h : c.toNat < 32) :
    hexChar? ['0', '0', Json.hexDigit (c.toNat / 16), Json.hexDigit c.toNat] = some c := by
  have hall : ∀ n < 32,
      hexChar? ['0', '0', Json.hexDigit (n / 16), Json.hexDigit n] = some (Char.ofNat n) := by
    decide
  rw [hall c.toNat h, Char.ofNat_toNat]

/-- A character and the way it is written between quotes. -/
theorem doubleQuotedRun_escapeChar {c : Char} (h : Carried c) (hspace : c ≠ ' ') (fuel : Nat)
    (rest : List Char) :
    doubleQuotedRun (fuel + 1) (escapeChar c ++ rest) =
      (doubleQuotedRun fuel rest).map (QuotedRun.cons c (escapeChar c).length) := by
  have hc (n : Nat) (hn : c.toNat = n) : c = Char.ofNat n := by rw [← hn, Char.ofNat_toNat]
  unfold escapeChar
  split
  · next heq => subst heq; rfl
  split
  · next heq => subst heq; rfl
  split
  · next heq => subst heq; rfl
  split
  · next heq => subst heq; rfl
  split
  · next heq => subst heq; rfl
  split
  · next heq => rw [hc 8 heq]; rfl
  split
  · next heq => rw [hc 12 heq]; rfl
  split
  · next hlow =>
    have hhex := hexChar?_escape hlow
    have hbreak : isBreak 'u' = false := rfl
    have hletter : escapedChar? 'u' = none := rfl
    have hwidth : escapeWidth? 'u' = some 4 := rfl
    simp [doubleQuotedRun, hbreak, hletter, hwidth, hhex]
  · next hquote hslash _ _ htab _ _ hlow =>
    have hcarried := h.resolve_left hlow
    have hblank : isSpace c = false := by simp [isSpace, hspace, htab]
    simp [doubleQuotedRun, hblank, hcarried.2, hquote, hslash]

/-- The characters of a scalar as they stand between its quotes. -/
def escaped (cs : List Char) : List Char :=
  cs.flatMap escapeChar

/-- An escaped text is as long as the escapes of its signs. -/
theorem length_escaped_cons (c : Char) (cs : List Char) :
    (escaped (c :: cs)).length = (escapeChar c).length + (escaped cs).length := by
  simp [escaped]

/-- Texts are escaped one after the other. -/
theorem escaped_append (cs ds : List Char) : escaped (cs ++ ds) = escaped cs ++ escaped ds :=
  List.flatMap_append

/-- Spaces are not escaped. -/
theorem escaped_spaces (n : Nat) : escaped (List.replicate n ' ') = List.replicate n ' ' := by
  induction n with
  | zero => rfl
  | succ n ih =>
    rw [List.replicate_succ, escaped, List.flatMap_cons]
    exact congrArg (' ' :: ·) ih

/-- An escaped text is no shorter than the text. -/
theorem length_le_escaped (cs : List Char) : cs.length ≤ (escaped cs).length := by
  induction cs with
  | nil => exact Nat.zero_le _
  | cons c cs ih =>
    have hpos : 0 < (escapeChar c).length := by
      unfold escapeChar
      repeat' split
      all_goals exact Nat.succ_pos _
    rw [length_escaped_cons, List.length_cons]
    omega

/-- What a character is written as starts neither with a blank nor with a quote, unless it is a
space. -/
theorem head_escapeChar {c : Char} (h : Carried c) (hspace : c ≠ ' ') :
    ∃ x more, escapeChar c = x :: more ∧ isSpace x = false ∧ isBreak x = false ∧ x ≠ '"' := by
  unfold escapeChar
  repeat' split
  case isFalse hquote _ _ _ htab _ _ hlow =>
    have hblank : isSpace c = false := by simp [isSpace, hspace, htab]
    exact ⟨c, [], rfl, hblank, (h.resolve_left hlow).2, hquote⟩
  all_goals exact ⟨'\\', _, rfl, rfl, rfl, by decide⟩

/-- A run goes up to a space, a break or the closing quote. -/
theorem doubleQuotedRun_escaped {word : List Char} (h : ∀ c ∈ word, Carried c ∧ c ≠ ' ') {x : Char}
    (hx : isSpace x = true ∨ isBreak x = true ∨ x = '"') (rest : List Char) {fuel : Nat}
    (hfuel : word.length < fuel) :
    doubleQuotedRun fuel (escaped word ++ x :: rest) =
      .ok ⟨word, (escaped word).length, false⟩ := by
  induction word generalizing fuel with
  | nil =>
    obtain ⟨fuel, rfl⟩ := Nat.exists_eq_add_one_of_ne_zero (Nat.ne_zero_of_lt hfuel)
    have hslash : x ≠ '\\' := by
      rintro rfl
      revert hx
      decide
    have hend : (isSpace x || isBreak x || x == '"') = true := by
      simpa [or_assoc] using hx
    simp [escaped, doubleQuotedRun, hslash, hend]
  | cons c word ih =>
    obtain ⟨fuel, rfl⟩ := Nat.exists_eq_add_one_of_ne_zero (Nat.ne_zero_of_lt hfuel)
    obtain ⟨⟨hc, hspace⟩, hword⟩ := List.forall_mem_cons.mp h
    have hcons : escaped (c :: word) ++ x :: rest =
        escapeChar c ++ (escaped word ++ x :: rest) := by
      simp [escaped]
    rw [hcons, doubleQuotedRun_escapeChar hc hspace, ih hword (by simpa using hfuel)]
    simp [Except.map, QuotedRun.cons, length_escaped_cons, Nat.add_comm]

/-! ## Spaces -/

/-- Going on twice is going on by both counts. -/
theorem Cursor.advance_advance (c : Cursor) (m n : Nat) :
    (c.advance m).advance n = c.advance (m + n) := by
  simp [Cursor.advance, List.drop_drop, Nat.add_assoc]

/-- A cursor that goes on over a text has what stands after it. -/
theorem Cursor.rest_advance {c : Cursor} {xs ys : List Char} (h : c.rest = xs ++ ys) :
    (c.advance xs.length).rest = ys := by
  simp [Cursor.advance, h]

/-- Spaces in a quoted text are collected up to the next sign. -/
theorem Gap.readLoop_spaces {n : Nat} {x : Char} {more : List Char} (hx : isSpace x = false)
    (hbreak : isBreak x = false) {fuel : Nat} (hfuel : n ≤ fuel) {c : Cursor}
    (hc : c.rest = List.replicate n ' ' ++ x :: more) (s : List Char) :
    Gap.readLoop 0 fuel (.spaces s) c = .ok (.spaces (s ++ List.replicate n ' '), c.advance n) := by
  induction fuel generalizing n c s with
  | zero =>
    obtain rfl := Nat.le_zero.mp hfuel
    simp [Gap.readLoop, Cursor.advance]
  | succ fuel ih =>
    cases n with
    | zero =>
      obtain ⟨rest, index, line, column⟩ := c
      cases hc
      simp [Gap.readLoop, Cursor.peek?, Cursor.advance, hx, hbreak]
    | succ n =>
      rw [List.replicate_succ, List.cons_append] at hc
      have hspace : isSpace ' ' = true := rfl
      have hnext : (c.advance 1).rest = List.replicate n ' ' ++ x :: more :=
        @Cursor.rest_advance c [' '] _ hc
      simp only [Gap.readLoop, Cursor.peek?, hc, List.head?_cons, hspace, if_true]
      rw [ih (Nat.le_of_succ_le_succ hfuel) hnext, Cursor.advance_advance, Nat.add_comm 1,
        List.append_assoc, List.singleton_append, List.replicate_succ]

/-- A gap of spaces is kept. -/
theorem Gap.read_spaces {n : Nat} {x : Char} {more : List Char} (hx : isSpace x = false)
    (hbreak : isBreak x = false) {c : Cursor} (hc : c.rest = List.replicate n ' ' ++ x :: more) :
    Gap.read 0 .none c = .ok (.spaces (List.replicate n ' '), c.advance n) := by
  have hfuel : n ≤ c.rest.length := by
    simp [hc]
  exact Gap.readLoop_spaces hx hbreak hfuel hc []

/-! ## Separators -/

/-- The separators of lines and of paragraphs, the breaks that stand for themselves. -/
def isSeparator (c : Char) : Bool :=
  c.toNat == 0x2028 || c.toNat == 0x2029

/-- A separator is a break, and no JSON text escapes it. -/
theorem isSeparator_facts {c : Char} (h : isSeparator c = true) :
    isBreak c = true ∧ isAllowed c = true ∧ isSpace c = false ∧ c ≠ '\n' ∧ c ≠ '\r' ∧
      escapeChar c = [c] := by
  have hc : c = Char.ofNat 0x2028 ∨ c = Char.ofNat 0x2029 := by
    unfold isSeparator at h
    rw [Bool.or_eq_true, beq_iff_eq, beq_iff_eq] at h
    exact h.imp (fun h => by rw [← h, Char.ofNat_toNat]) fun h => by rw [← h, Char.ofNat_toNat]
  rcases hc with rfl | rfl <;> decide

/-- What is carried is no separator. -/
theorem Carried.isSeparator_eq_false {c : Char} (h : Carried c) : isSeparator c = false := by
  refine Bool.eq_false_iff.mpr fun hsep => ?_
  obtain ⟨hbreak, -⟩ := isSeparator_facts hsep
  rcases h with hlow | ⟨-, hno⟩
  · unfold isSeparator at hsep
    rw [Bool.or_eq_true, beq_iff_eq, beq_iff_eq] at hsep
    omega
  · rw [hbreak] at hno
    cases hno

/-- Separators are written as they are. -/
theorem escaped_separators {cs : List Char} (h : ∀ c ∈ cs, isSeparator c = true) :
    escaped cs = cs := by
  induction cs with
  | nil => rfl
  | cons c cs ih =>
    obtain ⟨hc, hcs⟩ := List.forall_mem_cons.mp h
    rw [escaped, List.flatMap_cons, (isSeparator_facts hc).2.2.2.2.2]
    exact congrArg (c :: ·) (ih hcs)

/-- A separator is taken as itself, and the next line starts behind it. -/
theorem Cursor.takeBreak_separator {c : Cursor} {x : Char} {rest : List Char}
    (hx : isSeparator x = true) (hc : c.rest = x :: rest) :
    c.takeBreak = ([x], ⟨rest, c.index + 1, c.line + 1, 0⟩) := by
  obtain ⟨hbreak, -, -, -, hreturn, -⟩ := isSeparator_facts hx
  have hkept : (x.toNat == 0x2028 || x.toNat == 0x2029) = true := hx
  rw [takeBreak, hc]
  split
  · next heq =>
    cases heq
    exact absurd rfl hreturn
  · next heq =>
    cases heq
    simp [hbreak, hkept]
  · next heq => cases heq

/-- Once a line has ended, further separators are kept too. -/
theorem Gap.readLoop_separators {seps : List Char} (h : ∀ s ∈ seps, isSeparator s = true) {x : Char}
    {more : List Char} (hx : isSpace x = false) (hbreak : isBreak x = false) {fuel : Nat}
    (hfuel : seps.length ≤ fuel) {c : Cursor} (hc : c.rest = seps ++ x :: more)
    (first others : List Char) :
    ∃ c', Gap.readLoop 0 fuel (.breaks first others) c = .ok (.breaks first (others ++ seps), c') ∧
      c'.rest = x :: more := by
  induction seps generalizing fuel c others with
  | nil =>
    refine ⟨c, ?_, hc⟩
    cases fuel <;> simp [Gap.readLoop, Cursor.peek?, hc, hx, hbreak]
  | cons s seps ih =>
    obtain ⟨fuel, rfl⟩ := Nat.exists_eq_add_one_of_ne_zero (Nat.ne_zero_of_lt hfuel)
    obtain ⟨hs, hseps⟩ := List.forall_mem_cons.mp h
    obtain ⟨hsbreak, -, hsspace, -, -, -⟩ := isSeparator_facts hs
    obtain ⟨c', hread, hc'⟩ := @ih hseps fuel (Nat.le_of_succ_le_succ hfuel)
      ⟨seps ++ x :: more, c.index + 1, c.line + 1, 0⟩ rfl (others ++ [s])
    refine ⟨c', ?_, hc'⟩
    rw [List.append_assoc, List.singleton_append] at hread
    simp only [Gap.readLoop, Cursor.peek?, hc, List.cons_append, List.head?_cons, hsspace, hsbreak,
      Bool.false_eq_true, if_false, if_true, Cursor.takeBreak_separator hs hc]
    exact hread

/-- A gap of separators is kept. -/
theorem Gap.read_separators {s : Char} {seps : List Char}
    (h : ∀ y ∈ s :: seps, isSeparator y = true) {x : Char} {more : List Char}
    (hx : isSpace x = false) (hbreak : isBreak x = false) {c : Cursor}
    (hc : c.rest = s :: seps ++ x :: more) :
    ∃ gap c', Gap.read 0 .none c = .ok (gap, c') ∧ gap.text = s :: seps ∧ c'.rest = x :: more := by
  obtain ⟨hs, hseps⟩ := List.forall_mem_cons.mp h
  obtain ⟨hsbreak, -, hsspace, hsnewLine, -, -⟩ := isSeparator_facts hs
  obtain ⟨c', hread, hc'⟩ := @Gap.readLoop_separators seps hseps x more hx hbreak
    (seps ++ x :: more).length (by simp) ⟨seps ++ x :: more, c.index + 1, c.line + 1, 0⟩ rfl [s] []
  refine ⟨.breaks [s] seps, c', ?_, ?_, hc'⟩
  · rw [List.nil_append] at hread
    rw [Gap.read, hc, List.cons_append, List.length_cons]
    simp only [Gap.none, Gap.readLoop, Cursor.peek?, hc, List.cons_append, List.head?_cons, hsspace,
      hsbreak, Bool.false_eq_true, if_false, if_true, Cursor.takeBreak_separator hs hc]
    exact hread
  · simp [Gap.text, hsnewLine]

end Scaffolding.Yaml
