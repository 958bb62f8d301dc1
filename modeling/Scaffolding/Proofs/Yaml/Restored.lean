import Scaffolding.Proofs.Yaml.Quoted

/-!
# Texts that a quoted scalar gives back

A text is cut into words and the gaps between them, which are spaces or separators, and read turn by
turn: each turn of the reader of quoted scalars takes a word and the gap behind it. All of the text is
kept if every character can stand there, no separator has a space beside it, and none has a mark of a
document behind it.
-/

set_option autoImplicit false

namespace Scaffolding.Yaml

open Json (escapeChar quoteChars)

/-! ## Texts that are restored -/

/-- Three dashes or three dots and a gap behind them, which end a document where they start a line. -/
def Marked (cs : List Char) : Prop :=
  ∃ mark ∈ ['-', '.'], ∃ x rest, cs = mark :: mark :: mark :: x :: rest ∧
    (x = ' ' ∨ isSeparator x = true)

/-- A text that a scalar in double quotes gives back: it consists of characters that can stand there
and of separators, and a separator has no space beside it and no mark of a document behind it. -/
structure Restored (cs : List Char) : Prop where
  held : ∀ c ∈ cs, Carried c ∨ isSeparator c = true
  apart : ∀ before c after, cs = before ++ c :: after → isSeparator c = true →
    before.getLast? ≠ some ' ' ∧ after.head? ≠ some ' ' ∧ ¬ Marked after

/-- Without separators it is enough that every character is carried. -/
theorem restored_of_carried {cs : List Char} (h : ∀ c ∈ cs, Carried c) : Restored cs := by
  refine ⟨fun c hc => .inl (h c hc), ?_⟩
  rintro before c after rfl hsep
  have hno := (h c (by simp)).isSeparator_eq_false
  rw [hsep] at hno
  cases hno

/-- What is left of such a text is one too. -/
theorem Restored.suffix {front cs : List Char} (h : Restored (front ++ cs)) : Restored cs := by
  refine ⟨fun c hc => h.held c (List.mem_append_right front hc), ?_⟩
  rintro before c after rfl hc
  obtain ⟨hbefore, hafter⟩ := h.apart (front ++ before) c after (by simp) hc
  refine ⟨fun hspace => hbefore ?_, hafter⟩
  rw [List.getLast?_append, hspace]
  rfl

/-- No separator stands behind spaces. -/
theorem Restored.head_after_spaces {front others : List Char} {n : Nat}
    (h : Restored (front ++ (List.replicate (n + 1) ' ' ++ others))) :
    ∀ c ∈ others.head?, isSeparator c = false := by
  intro c hc
  cases others with
  | nil => cases hc
  | cons y others =>
    cases hc
    cases hsep : isSeparator c with
    | false => rfl
    | true =>
      refine absurd ?_ (h.apart (front ++ List.replicate (n + 1) ' ') c others (by simp) hsep).1
      simp [List.getLast?_append, List.getLast?_replicate]

/-- Neither a space nor a mark of a document stands behind separators. -/
theorem Restored.after_separators {front seps others : List Char} {s : Char}
    (hseps : ∀ y ∈ s :: seps, isSeparator y = true) (h : Restored (front ++ (s :: seps ++ others))) :
    others.head? ≠ some ' ' ∧ ¬ Marked others := by
  -- the last separator stands right before what follows
  obtain ⟨init, last, hlast⟩ : ∃ init last, s :: seps = init ++ [last] :=
    ⟨_, _, (List.dropLast_concat_getLast (List.cons_ne_nil s seps)).symm⟩
  rw [hlast] at h hseps
  exact (h.apart (front ++ init) last others (by simp) (hseps last (by simp))).2

/-- A text up to the first character that a test refuses, and what follows from there on. -/
theorem exists_cut (p : Char → Bool) (cs : List Char) : ∃ front back, cs = front ++ back ∧
    (∀ c ∈ front, p c = true) ∧ ∀ c ∈ back.head?, p c = false := by
  refine ⟨cs.takeWhile p, cs.dropWhile p, List.takeWhile_append_dropWhile.symm,
    fun c hc => List.all_eq_true.mp List.all_takeWhile c hc, fun c hc => ?_⟩
  have hhead := List.head?_dropWhile_not p cs
  rw [Option.mem_def.mp hc] at hhead
  simpa using hhead

/-- What stands between a word and the rest of a text: spaces, or separators before a rest that starts
with no mark of a document. -/
inductive Parting (others : List Char) : List Char → Prop
  | spaces (n : Nat) : Parting others (List.replicate (n + 1) ' ')
  | separators {s : Char} {seps : List Char} (h : ∀ y ∈ s :: seps, isSeparator y = true)
      (hmarked : ¬ Marked others) : Parting others (s :: seps)

/-- A text that is restored is one word, or a word, spaces or separators, and a text that starts with
neither of them. -/
theorem Restored.cases {cs : List Char} (h : Restored cs) :
    (∀ c ∈ cs, Carried c ∧ c ≠ ' ') ∨
      ∃ word gap others, cs = word ++ (gap ++ others) ∧ (∀ c ∈ word, Carried c ∧ c ≠ ' ') ∧
        Parting others gap ∧ Restored others ∧
        ∀ c ∈ others.head?, c ≠ ' ' ∧ isSeparator c = false := by
  obtain ⟨word, back, rfl, hword, hback⟩ := exists_cut (fun c => c != ' ' && !isSeparator c) cs
  have hplain : ∀ c ∈ word, Carried c ∧ c ≠ ' ' := by
    intro c hc
    have hno := hword c hc
    simp only [Bool.and_eq_true, bne_iff_ne, Bool.not_eq_true'] at hno
    exact ⟨(h.held c (by simp [hc])).resolve_right (by simp [hno.2]), hno.1⟩
  rcases back with - | ⟨x, back⟩
  · exact .inl (by simpa using hplain)
  by_cases hx : x = ' '
  · subst hx
    obtain ⟨spaces, others, rfl, hspaces, hothers⟩ := exists_cut (· == ' ') back
    obtain ⟨n, rfl⟩ : ∃ n, spaces = List.replicate n ' ' :=
      ⟨_, List.eq_replicate_of_mem fun c hc => by simpa using hspaces c hc⟩
    have hcut : word ++ ' ' :: (List.replicate n ' ' ++ others) =
        word ++ (List.replicate (n + 1) ' ' ++ others) := by
      rw [List.replicate_succ, List.cons_append]
    rw [hcut] at h ⊢
    refine .inr ⟨word, _, others, rfl, hplain, .spaces n, h.suffix.suffix, ?_⟩
    exact fun c hc => ⟨by simpa using hothers c hc, h.head_after_spaces c hc⟩
  · obtain ⟨seps, others, rfl, hseps, hothers⟩ := exists_cut isSeparator back
    have hall : ∀ y ∈ x :: seps, isSeparator y = true :=
      List.forall_mem_cons.mpr ⟨by simpa [hx] using hback x rfl, hseps⟩
    rw [← List.cons_append] at h ⊢
    obtain ⟨hafter, hmarked⟩ := h.after_separators hall
    refine .inr ⟨word, _, others, rfl, hplain, .separators hall hmarked, h.suffix.suffix, ?_⟩
    exact fun c hc => ⟨fun hspace => hafter (by rw [← hspace]; exact hc), hothers c hc⟩

/-! ## Marks of a document -/

/-- No marker of a document stands after the start of a line. -/
theorem atDocumentMarker_eq_false {c : Cursor} (h : 0 < c.column) : c.atDocumentMarker = false := by
  have hcolumn : (c.column == 0) = false := by simpa using Nat.ne_of_gt h
  simp [Cursor.atDocumentMarker, Cursor.atMarker, hcolumn]

/-- What is neither a backslash nor a quote stands in a quoted text only where the text has it. -/
theorem head_escaped_eq {cs more rest : List Char} {x : Char}
    (h : escaped cs ++ '"' :: more = x :: rest) (hslash : x ≠ '\\') (hquote : x ≠ '"') :
    ∃ others, cs = x :: others ∧ escapeChar x = [x] ∧ rest = escaped others ++ '"' :: more := by
  cases cs with
  | nil =>
    cases h
    exact absurd rfl hquote
  | cons c cs =>
    rw [escaped, List.flatMap_cons] at h
    have hsame : escapeChar c = [c] := by
      unfold escapeChar at h ⊢
      repeat' split at h
      case isFalse => simp_all
      all_goals
        cases h
        exact absurd rfl hslash
    rw [hsame] at h
    cases h
    exact ⟨cs, rfl, hsame, rfl⟩

/-- A gap that stands in a quoted text as itself is a space or a separator. -/
theorem gap_of_unescaped {x : Char} (hheld : Carried x ∨ isSeparator x = true)
    (hsame : escapeChar x = [x]) (hgap : isSpace x = true ∨ isBreak x = true) :
    x = ' ' ∨ isSeparator x = true := by
  have htab : x ≠ '\t' ∧ x ≠ '\n' ∧ x ≠ '\r' := by
    refine ⟨?_, ?_, ?_⟩ <;> (rintro rfl; revert hsame; decide)
  rcases hgap with hspace | hbreak
  · exact .inl (by simpa [isSpace, htab.1] using hspace)
  · refine .inr (hheld.resolve_left fun hcarried => ?_)
    rcases hcarried with hlow | ⟨-, hno⟩
    · simp [isBreak, htab.2] at hbreak
      omega
    · rw [hbreak] at hno
      cases hno

/-- No mark of a document stands where a text goes on that does not start with one. -/
theorem atDocumentMarker_escaped {cs : List Char} (hheld : ∀ c ∈ cs, Carried c ∨ isSeparator c = true)
    (hmarked : ¬ Marked cs) {more : List Char} {c : Cursor} (hc : c.rest = escaped cs ++ '"' :: more) :
    c.atDocumentMarker = false := by
  have hmark : ∀ mark ∈ ['-', '.'], c.atMarker mark = false := by
    intro mark hmem
    have hslash : mark ≠ '\\' := by
      rintro rfl
      revert hmem
      decide
    have hquote : mark ≠ '"' := by
      rintro rfl
      revert hmem
      decide
    refine Bool.eq_false_iff.mpr fun hat => hmarked ?_
    simp only [Cursor.atMarker, Bool.and_eq_true, beq_iff_eq] at hat
    obtain ⟨⟨-, htake⟩, hgap⟩ := hat
    -- the three characters of the mark and the one behind it all stand in the text itself
    have hrest : escaped cs ++ '"' :: more = mark :: mark :: mark :: c.rest.drop 3 := by
      rw [← hc]
      exact (List.take_append_drop 3 c.rest).symm.trans (by rw [htake]; rfl)
    obtain ⟨cs₁, rfl, -, h₁⟩ := head_escaped_eq hrest hslash hquote
    obtain ⟨cs₂, rfl, -, h₂⟩ := head_escaped_eq h₁.symm hslash hquote
    obtain ⟨cs₃, rfl, -, h₃⟩ := head_escaped_eq h₂.symm hslash hquote
    obtain ⟨x, rest, hx⟩ : ∃ x rest, c.rest.drop 3 = x :: rest := by
      rw [h₃]
      cases escaped cs₃ with
      | nil => exact ⟨_, _, rfl⟩
      | cons x rest => exact ⟨_, _, rfl⟩
    have hblank : isSpace x = true ∨ isBreak x = true := by
      have hthird : c.rest[3]? = some x := by
        rw [← List.head?_drop, hx]
        rfl
      simpa [Cursor.gapAt, hthird] using hgap
    obtain ⟨cs₄, rfl, hsame, -⟩ := head_escaped_eq (h₃.symm.trans hx)
      (by rintro rfl; revert hblank; decide) (by rintro rfl; revert hblank; decide)
    exact ⟨mark, hmem, x, cs₄, rfl, gap_of_unescaped (hheld x (by simp)) hsame hblank⟩
  simp [Cursor.atDocumentMarker, hmark]

/-! ## Whole scalars -/

/-- What a text is written as, and the quote behind it, starts with no gap unless the text does. -/
theorem head_escaped_quote {cs : List Char} (h : Restored cs)
    (hhead : ∀ c ∈ cs.head?, c ≠ ' ' ∧ isSeparator c = false) (more : List Char) :
    ∃ x rest, escaped cs ++ '"' :: more = x :: rest ∧ isSpace x = false ∧ isBreak x = false := by
  cases cs with
  | nil => exact ⟨'"', more, rfl, rfl, rfl⟩
  | cons c cs =>
    obtain ⟨hne, hno⟩ := hhead c rfl
    have hcarried := (h.held c List.mem_cons_self).resolve_right (by simp [hno])
    obtain ⟨x, rest, hx, hspace, hbreak, -⟩ := head_escapeChar hcarried hne
    exact ⟨x, _, by rw [escaped, List.flatMap_cons, hx]; rfl, hspace, hbreak⟩

section

variable {c : Cursor} {word : List Char} {fuel : Nat}

/-- The last word ends at the closing quote. -/
theorem readQuotedLoop_last (hmarker : c.atDocumentMarker = false)
    (h : ∀ x ∈ word, Carried x ∧ x ≠ ' ') {more : List Char}
    (hc : c.rest = escaped word ++ '"' :: more) (done : List Char) :
    readQuotedLoop false (fuel + 1) done c =
      .ok (done ++ word, c.advance ((escaped word).length + 1)) := by
  have hempty : c.rest.isEmpty = false := by simp [hc]
  have hlength : word.length < c.rest.length := by
    have hle := length_le_escaped word
    rw [hc, List.length_append, List.length_cons]
    omega
  have hrun := doubleQuotedRun_escaped h (.inr (.inr rfl)) more hlength
  rw [← hc] at hrun
  have hsees : (c.advance (escaped word).length).sees '"' = true := by
    simp [Cursor.sees, Cursor.peek?, Cursor.rest_advance hc]
  simp [readQuotedLoop, hmarker, hempty, hrun, bind, Except.bind, hsees, pure, Except.pure,
    Cursor.advance_advance]

/-- A word before the last one is followed by a gap, which is read as it tells. -/
theorem readQuotedLoop_word (hmarker : c.atDocumentMarker = false)
    (h : ∀ x ∈ word, Carried x ∧ x ≠ ' ') {x : Char} (hx : isSpace x = true ∨ isBreak x = true)
    {rest : List Char} (hc : c.rest = escaped word ++ x :: rest) {gap : Gap} {c' : Cursor}
    (hgap : Gap.read 0 .none (c.advance (escaped word).length) = .ok (gap, c')) (done : List Char) :
    readQuotedLoop false (fuel + 1) done c =
      readQuotedLoop false fuel (done ++ word ++ gap.text) c' := by
  have hempty : c.rest.isEmpty = false := by simp [hc]
  have hlength : word.length < c.rest.length := by
    have hle := length_le_escaped word
    rw [hc, List.length_append, List.length_cons]
    omega
  have hrun := doubleQuotedRun_escaped h (hx.imp_right .inl) rest hlength
  rw [← hc] at hrun
  have hquote : x ≠ '"' := by
    rintro rfl
    revert hx
    decide
  have hsees : (c.advance (escaped word).length).sees '"' = false := by
    simp [Cursor.sees, Cursor.peek?, Cursor.rest_advance hc, hquote]
  simp only [readQuotedLoop, hmarker, hempty, Bool.or_self, Bool.false_eq_true, if_false, hrun,
    bind, Except.bind, hsees, hgap]

end

namespace Parting

variable {others gap : List Char}

/-- A gap is written as it is. -/
theorem escaped_eq (h : Parting others gap) : escaped gap = gap := by
  cases h with
  | spaces n => exact escaped_spaces (n + 1)
  | separators hseps => exact escaped_separators hseps

/-- A gap ends a run of a quoted scalar. -/
theorem exists_head (h : Parting others gap) :
    ∃ x rest, gap = x :: rest ∧ (isSpace x = true ∨ isBreak x = true) := by
  cases h with
  | spaces n => exact ⟨_, _, rfl, .inl rfl⟩
  | separators hseps =>
    exact ⟨_, _, rfl, .inr (isSeparator_facts (hseps _ List.mem_cons_self)).1⟩

/-- A gap is kept, and no mark of a document stands behind it. -/
theorem read (h : Parting others gap) (hothers : Restored others)
    (hhead : ∀ c ∈ others.head?, c ≠ ' ' ∧ isSeparator c = false) {more : List Char} {c : Cursor}
    (hc : c.rest = gap ++ (escaped others ++ '"' :: more)) :
    ∃ g c', Gap.read 0 .none c = .ok (g, c') ∧ g.text = gap ∧
      c'.rest = escaped others ++ '"' :: more ∧ c'.atDocumentMarker = false ∧
      ((∀ x ∈ gap, isSeparator x = false) → c' = c.advance gap.length) := by
  obtain ⟨x, rest, hx, hspace, hbreak⟩ := head_escaped_quote hothers hhead more
  rw [hx] at hc ⊢
  cases h with
  | spaces n =>
    refine ⟨_, _, Gap.read_spaces hspace hbreak hc, rfl, ?_,
      atDocumentMarker_eq_false (Nat.lt_of_lt_of_le (Nat.succ_pos n) (Nat.le_add_left _ _)), ?_⟩
    · simpa using Cursor.rest_advance hc
    · rw [List.length_replicate]
      exact fun _ => rfl
  | separators hseps hmarked =>
    obtain ⟨g, c', hread, htext, hrest⟩ := Gap.read_separators hseps hspace hbreak hc
    refine ⟨g, c', hread, htext, hrest,
      atDocumentMarker_escaped hothers.held hmarked (hrest.trans hx.symm), fun hnone => ?_⟩
    have hs := hnone _ List.mem_cons_self
    rw [hseps _ List.mem_cons_self] at hs
    cases hs

end Parting

/-- A text that is restored is read up to the closing quote. Without separators all of it is on one
line. -/
theorem readQuotedLoop_escaped {cs : List Char} (h : Restored cs) (more : List Char)
    {fuel : Nat} (hfuel : cs.length < fuel) {c : Cursor} (hmarker : c.atDocumentMarker = false)
    (hc : c.rest = escaped cs ++ '"' :: more) (done : List Char) :
    ∃ c', readQuotedLoop false fuel done c = .ok (done ++ cs, c') ∧ c'.rest = more ∧
      ((∀ x ∈ cs, isSeparator x = false) → c' = c.advance ((escaped cs).length + 1)) := by
  -- each turn of the loop reads a word and the gap behind it
  induction fuel generalizing cs c done with
  | zero => exact absurd hfuel (Nat.not_lt_zero _)
  | succ fuel ih =>
    rcases h.cases with hword | ⟨word, gap, others, rfl, hword, hgap, hothers, hhead⟩
    · refine ⟨_, readQuotedLoop_last hmarker hword hc done, ?_, fun _ => rfl⟩
      have hquote : c.rest = (escaped cs ++ ['"']) ++ more := by simpa using hc
      simpa using Cursor.rest_advance hquote
    · have hwritten : escaped (word ++ (gap ++ others)) =
          escaped word ++ (gap ++ escaped others) := by
        rw [escaped_append, escaped_append, hgap.escaped_eq]
      rw [hwritten, List.append_assoc, List.append_assoc] at hc
      obtain ⟨g, c₁, hread₁, htext, hrest₁, hmarker₁, hline₁⟩ :=
        hgap.read hothers hhead (Cursor.rest_advance hc)
      obtain ⟨x, behind, hx, hends⟩ := hgap.exists_head
      have hshorter : others.length < fuel := by
        rw [hx] at hfuel
        simp only [List.length_append, List.length_cons] at hfuel
        omega
      obtain ⟨c', hread, hrest, hline⟩ := ih hothers hshorter hmarker₁ hrest₁ (done ++ word ++ gap)
      rw [hx, List.cons_append] at hc
      refine ⟨c', ?_, hrest, fun hnone => ?_⟩
      · rw [readQuotedLoop_word hmarker hword hends hc hread₁, htext, hread]
        simp only [List.append_assoc]
      · rw [hline fun y hy => hnone y (by simp [hy]), hline₁ fun y hy => hnone y (by simp [hy]),
          hwritten, Cursor.advance_advance, Cursor.advance_advance]
        simp only [List.length_append, Nat.add_assoc]

/-- A text between quotes is read to its closing quote. -/
theorem readQuoted_quoteChars {s : String} (h : Restored s.toList) (more : List Char)
    {c : Cursor} (hc : c.rest = quoteChars s ++ more) :
    ∃ c', readQuoted false c = .ok (s.toList, c') ∧ c'.rest = more ∧
      ((∀ x ∈ s.toList, isSeparator x = false) → c' = c.advance (quoteChars s).length) := by
  have hquoted : quoteChars s ++ more = ['"'] ++ (escaped s.toList ++ '"' :: more) := by
    simp [quoteChars, escaped]
  have hlength : (quoteChars s).length = 1 + ((escaped s.toList).length + 1) := by
    simp [quoteChars, escaped, Nat.add_comm]
  have hnext : (c.advance 1).rest = escaped s.toList ++ '"' :: more :=
    Cursor.rest_advance (hc.trans hquoted)
  have hfuel : s.toList.length < c.rest.length + 1 := by
    have hle := length_le_escaped s.toList
    rw [hc, hquoted]
    simp only [List.length_append, List.length_cons]
    omega
  obtain ⟨c', hread, hrest, hline⟩ := readQuotedLoop_escaped h more hfuel
    (atDocumentMarker_eq_false (Nat.succ_pos _)) hnext []
  refine ⟨c', hread, hrest, fun hnone => ?_⟩
  rw [hline hnone, Cursor.advance_advance, hlength]

end Scaffolding.Yaml
