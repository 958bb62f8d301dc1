import Scaffolding.Proofs.Number.Form
import Scaffolding.Proofs.Yaml.Restored
import Scaffolding.Yaml.Token.Reader

/-!
# Turns of the lexer in a JSON text

A JSON text of texts, lists and objects consists of seven marks, of quoted texts, and of gaps that hold
spaces and line breaks. Between any two of its tokens the lexer knows no indentation and requires no
key, so each turn takes one mark or one quoted text off the text and adds its token.

Only a colon depends on what came before: it makes a key of the place that was remembered last. The
place is within reach if the key is short and the colon follows it at once.
-/

set_option autoImplicit false

namespace Scaffolding.Yaml

open Json (escapeChar quoteChars)

/-- The characters that make tokens of brackets, separators and quotes. -/
def marks : List Char :=
  ['[', ']', '\x7b', '\x7d', ',', ':', '"']

namespace Lexer

/-! ## Gaps between tokens -/

/-- Spaces before a mark or the end of the text are passed. -/
theorem skipGaps_spaces {inFlow allowed : Bool} {fuel n : Nat} {c : Cursor} {tail : List Char}
    (hx : ∀ x ∈ tail.head?, x ∈ marks) (hc : c.rest = List.replicate n ' ' ++ tail) :
    skipGaps inFlow (fuel + 1) allowed c = (allowed, c.advance n) := by
  have hmark : ∀ x ∈ marks, x ≠ Char.ofNat 0xFEFF ∧ x ≠ ' ' ∧ x ≠ '\t' ∧ x ≠ '#' ∧
      isBreak x = false := by
    simp [marks, isBreak]
  have htail : ∀ x ∈ tail.head?, x ≠ Char.ofNat 0xFEFF ∧ x ≠ ' ' ∧ x ≠ '\t' ∧ x ≠ '#' ∧
      isBreak x = false := fun x h => hmark x (hx x h)
  have hrest : (c.advance n).rest = tail := by
    have hspaces := Cursor.rest_advance hc
    rwa [List.length_replicate] at hspaces
  have hfirst : c.sees (Char.ofNat 0xFEFF) = false := by
    cases n with
    | zero => cases tail <;> simp_all [Cursor.sees, Cursor.peek?]
    | succ n => simp [Cursor.sees, Cursor.peek?, hc, List.replicate_succ]
  have hskip : c.skipWhile (fun x => x == ' ' || ((inFlow || !allowed) && x == '\t')) =
      c.advance n := by
    have htake := @takeWhile_run (fun x => x == ' ' || ((inFlow || !allowed) && x == '\t'))
      (List.replicate n ' ') tail (fun y hy => by simp [List.eq_of_mem_replicate hy])
      (fun y hy => by simp [(htail y hy).2.1, (htail y hy).2.2.1])
    rw [Cursor.skipWhile, Cursor.takeWhile, hc, htake, List.length_replicate]
  have hcomment : (c.advance n).skipComment = c.advance n := by
    cases tail <;> simp_all [Cursor.skipComment, Cursor.sees, Cursor.peek?]
  have hline : (c.advance n).seesWhere isBreak = false := by
    cases tail <;> simp_all [Cursor.seesWhere, Cursor.peek?]
  simp [skipGaps, hfirst, hskip, hcomment, hline]

/-- A gap between two tokens of a JSON text: spaces, perhaps on a new line. -/
inductive Blanks : List Char → Prop
  | spaces (n : Nat) : Blanks (List.replicate n ' ')
  | line (n : Nat) : Blanks ('\n' :: List.replicate n ' ')

/-- Between tokens a new line and spaces are skipped. -/
theorem skipGaps_line {inFlow allowed : Bool} {fuel n : Nat} (hfuel : 2 ≤ fuel) {c : Cursor}
    {tail : List Char} (hx : ∀ x ∈ tail.head?, x ∈ marks)
    (hc : c.rest = '\n' :: (List.replicate n ' ' ++ tail)) :
    ∃ c', skipGaps inFlow fuel allowed c = (allowed || !inFlow, c') ∧ c'.rest = tail := by
  obtain ⟨fuel, rfl⟩ := Nat.exists_eq_add_of_le' hfuel
  have hnext : c.takeBreak.2.rest = List.replicate n ' ' ++ tail := by
    have hbreak : isBreak '\n' = true := rfl
    simp [Cursor.takeBreak, hc, hbreak]
  have hfirst : c.sees (Char.ofNat 0xFEFF) = false := by
    simp [Cursor.sees, Cursor.peek?, hc]
  have hskip : c.skipWhile (fun x => x == ' ' || ((inFlow || !allowed) && x == '\t')) = c := by
    obtain ⟨rest, index, line, column⟩ := c
    cases hc
    simp [Cursor.skipWhile, Cursor.takeWhile, Cursor.advance]
  have hcomment : c.skipComment = c := by
    simp [Cursor.skipComment, Cursor.sees, Cursor.peek?, hc]
  have hline : c.seesWhere isBreak = true := by
    simp [Cursor.seesWhere, Cursor.peek?, hc, isBreak]
  -- the first round stands at the break and passes nothing else; the second one passes the spaces
  rw [skipGaps]
  simp only [hfirst, Bool.and_false, Bool.false_eq_true, if_false, hskip, hcomment, hline, if_true]
  rw [skipGaps_spaces hx hnext]
  have hrest := Cursor.rest_advance hnext
  rw [List.length_replicate] at hrest
  exact ⟨_, rfl, hrest⟩

/-- A gap is passed, whatever it consists of. -/
theorem Blanks.skipGaps {g : List Char} (hg : Blanks g) {inFlow allowed : Bool} {c : Cursor}
    {tail : List Char} (hx : ∀ x ∈ tail.head?, x ∈ marks) (hc : c.rest = g ++ tail) :
    ∃ allowed' c', Lexer.skipGaps inFlow (c.rest.length + 1) allowed c = (allowed', c') ∧
      c'.rest = tail ∧ (g = [] → c' = c) ∧ (inFlow = true ∨ g = [] → allowed' = allowed) := by
  cases hg with
  | spaces n =>
    refine ⟨_, _, skipGaps_spaces hx hc, ?_, ?_, fun _ => rfl⟩
    · simpa using Cursor.rest_advance hc
    · intro hnil
      have hn : n = 0 := by simpa using hnil
      simp [hn, Cursor.advance]
  | line n =>
    have hfuel : 2 ≤ c.rest.length + 1 := by
      rw [hc]
      simp
    obtain ⟨c', hskip, hc'⟩ := @skipGaps_line inFlow allowed _ n hfuel c tail hx hc
    refine ⟨_, c', hskip, hc', by simp, ?_⟩
    rintro (hflow | hnil)
    · simp [hflow]
    · cases hnil

/-! ## Between two tokens -/

/-- None of the places must hold a key. -/
def Free (keys : List (Option KeyPlace)) : Prop :=
  ∀ p, some p ∈ keys → p.required = false

/-- A lexer between two tokens of a JSON text, with what is left of the text, the tokens so far, the
number of open brackets and whether a key may start here. No indentation counts, and no key is
required. -/
structure Between (l : Lexer) (rest : List Char) (tokens : List Token) (depth : Nat)
    (allowed : Bool) : Prop where
  rest : l.cursor.rest = rest
  tokens : l.tokens = tokens
  depth : l.depth = depth
  allowed : l.keyAllowed = allowed
  keys : Free l.keys
  indent : l.indent = -1
  outer : l.outer = []

variable {l l' : Lexer} {rest more : List Char} {tokens : List Token} {depth : Nat} {allowed : Bool}

/-- At the start of a text no token was read. -/
theorem between_start (text : List Char) : Between (start text) text [] 0 true where
  rest := rfl
  tokens := rfl
  depth := rfl
  allowed := rfl
  keys := by simp [start, Free]
  indent := rfl
  outer := rfl

/-- The reader is in a flow if some bracket is open. -/
theorem Between.inFlow (h : Between l rest tokens depth allowed) : l.inFlow = (depth != 0) := by
  rw [Lexer.inFlow, h.depth]

/-- A gap is passed and nothing else changes. Without one, the lexer does not move. -/
theorem Between.toNextToken {g : List Char} {x : Char} (hx : x ∈ marks) (hg : Blanks g)
    (hflow : depth ≠ 0 ∨ g = []) (h : Between l (g ++ x :: more) tokens depth allowed) :
    Between l.toNextToken (x :: more) tokens depth allowed ∧ l.toNextToken.keys = l.keys ∧
      (g = [] → l.toNextToken.cursor = l.cursor) := by
  obtain ⟨allowed', c, hskip, hc, hstay, hallowed⟩ :=
    @Blanks.skipGaps g hg l.inFlow l.keyAllowed l.cursor (x :: more) (by simpa using hx) h.rest
  have hkept : allowed' = allowed := by
    rw [← h.allowed]
    refine hallowed (hflow.imp ?_ id)
    intro hdepth
    rw [h.inFlow]
    simpa using hdepth
  rw [hkept] at hskip
  unfold Lexer.toNextToken
  rw [hskip]
  exact ⟨⟨hc, h.tokens, h.depth, rfl, h.keys, h.indent, h.outer⟩, rfl, hstay⟩

/-- Places that are out of reach are forgotten, and the others stay. -/
theorem mapM_dropStaleKey {c : Cursor} {keys : List (Option KeyPlace)} (h : Free keys) :
    ∃ kept, keys.mapM (dropStaleKey c) = .ok kept ∧ (∀ p, some p ∈ kept → some p ∈ keys) ∧
      ∀ p others, keys = some p :: others → outOfReach c p = false →
        ∃ others', kept = some p :: others' := by
  induction keys with
  | nil => exact ⟨[], rfl, by simp, by simp⟩
  | cons key keys ih =>
    obtain ⟨kept, hmap, hmem, -⟩ := ih fun p hp => h p (List.mem_cons_of_mem key hp)
    have hstep : ∃ key', dropStaleKey c key = .ok key' ∧ (∀ p, key' = some p → key = some p) ∧
        ∀ p, key = some p → outOfReach c p = false → key' = some p := by
      cases key with
      | none => exact ⟨none, rfl, by simp, by simp⟩
      | some q =>
        -- only a required key out of reach would be a failure
        have hrequired := h q List.mem_cons_self
        cases hq : outOfReach c q with
        | true => exact ⟨none, by simp [dropStaleKey, hq, hrequired], by simp, by simp [hq]⟩
        | false => exact ⟨some q, by simp [dropStaleKey, hq], by simp, by simp⟩
    obtain ⟨key', hkey, hkept, hreach⟩ := hstep
    refine ⟨key' :: kept, ?_, ?_, ?_⟩
    · simp [List.mapM_cons, hkey, hmap, bind, Except.bind, pure, Except.pure]
    · intro p hp
      rcases List.mem_cons.mp hp with hp | hp
      · rw [hkept p hp.symm]
        exact List.mem_cons_self
      · exact List.mem_cons_of_mem key (hmem p hp)
    · rintro p others ⟨rfl, rfl⟩ hp
      exact ⟨kept, by rw [hreach p rfl hp]⟩

/-- Outside of blocks there is none to close. -/
theorem closeBlocks_eq (h : l.outer = []) (column : Int) : l.closeBlocks column = l := by
  obtain ⟨cursor, tokens, indent, outer, keys, depth, keyAllowed⟩ := l
  cases h
  simp [closeBlocks, closeBlocks.close]

/-- A turn of the lexer reads the token that starts after a gap. A place of a key that is within reach
is kept if there is no gap. -/
theorem Between.run_mark {g : List Char} {x : Char} (hx : x ∈ marks) (hg : Blanks g)
    (hflow : depth ≠ 0 ∨ g = []) (h : Between l (g ++ x :: more) tokens depth allowed) :
    ∃ l', Between l' (x :: more) tokens depth allowed ∧
      (∀ fuel, run (fuel + 1) l = (l'.token x).bind (run fuel)) ∧
      ∀ p others, g = [] → l.keys = some p :: others → outOfReach l.cursor p = false →
        l'.cursor = l.cursor ∧ ∃ others', l'.keys = some p :: others' := by
  obtain ⟨hnext, hkeys, hstay⟩ := h.toNextToken hx hg hflow
  obtain ⟨kept, hkept, hmem, hreach⟩ := @mapM_dropStaleKey l.toNextToken.cursor _ hnext.keys
  refine ⟨{ l.toNextToken with keys := kept }, ?_, ?_, ?_⟩
  · exact ⟨hnext.rest, hnext.tokens, hnext.depth, hnext.allowed, fun p hp => hnext.keys p (hmem p hp),
      hnext.indent, hnext.outer⟩
  · intro fuel
    have hpeek : l.toNextToken.cursor.peek? = some x := by
      simp [Cursor.peek?, hnext.rest]
    have hclose := closeBlocks_eq (l := { l.toNextToken with keys := kept }) hnext.outer
    simp [run, dropStaleKeys, hkept, hclose, hpeek, bind, Except.bind, pure, Except.pure]
  · intro p others hnil hp hin
    rw [← hstay hnil] at hin
    exact ⟨hstay hnil, hreach p others (hkeys.trans hp) hin⟩

/-! ## Tokens -/

/-- At another sign there is no marker. -/
theorem atMarker_eq_false {c : Cursor} {x mark : Char} (hc : c.rest = x :: more) (hx : x ≠ mark) :
    c.atMarker mark = false := by
  simp [Cursor.atMarker, hc, hx]

/-- What each mark makes of a lexer that stands at it. -/
theorem token_mark {x : Char} (hx : x ∈ marks) (h : l.cursor.rest = x :: more)
    (hcolon : x = ':' → l.inFlow = true) :
    l.token x =
      if x = '[' then l.openFlow .flowSequenceStart
      else if x = '\x7b' then l.openFlow .flowMappingStart
      else if x = ']' then l.closeFlow .flowSequenceEnd
      else if x = '\x7d' then l.closeFlow .flowMappingEnd
      else if x = ',' then l.flowEntry
      else if x = ':' then l.valueMark
      else l.keyToken fun c =>
        (readQuoted false c).map fun r => (.scalar .quoted (String.ofList r.1), r.2) := by
  have hmark : ∀ x ∈ marks, x ≠ '-' ∧ x ≠ '.' := by simp [marks]
  have hdash := atMarker_eq_false h (hmark x hx).1
  have hdot := atMarker_eq_false h (hmark x hx).2
  unfold token
  dsimp only
  rw [hdash, hdot]
  simp only [marks, List.mem_cons, List.not_mem_nil, or_false] at hx
  rcases hx with rfl | rfl | rfl | rfl | rfl | rfl | rfl
  -- outside brackets a colon counts only before a blank, so this is the case that asks for them
  case inr.inr.inr.inr.inr.inl => simp [hcolon rfl]
  all_goals simp

/-- The place of this level is forgotten, and the others stay. -/
theorem dropKey_eq (h : Free l.keys) :
    ∃ keys, l.dropKey = .ok { l with keys := keys } ∧ ∀ p, some p ∈ keys → some p ∈ l.keys := by
  unfold dropKey
  split
  · next k others hkeys =>
    have hrequired := h k (by rw [hkeys]; exact List.mem_cons_self)
    rw [hrequired, hkeys]
    exact ⟨none :: others, rfl, fun p hp => List.mem_cons_of_mem _ (by simpa using hp)⟩
  · exact ⟨l.keys, rfl, fun p hp => hp⟩

/-- At the end of the text the lexer ends with the tokens so far. -/
theorem Between.run_end {g : List Char} (hg : Blanks g) (h : Between l g tokens depth allowed)
    (fuel : Nat) : ∃ l', run (fuel + 1) l = .ok l' ∧ l'.tokens = tokens := by
  obtain ⟨allowed', c, hskip, hc, -, -⟩ :=
    @Blanks.skipGaps g hg l.inFlow l.keyAllowed l.cursor [] (by simp) (by simp [h.rest])
  have hnext : l.toNextToken = { l with cursor := c, keyAllowed := allowed' } := by
    unfold Lexer.toNextToken
    rw [hskip]
  obtain ⟨kept, hkept, hmem, -⟩ := @mapM_dropStaleKey c l.keys h.keys
  obtain ⟨last, hlast⟩ : ∃ last, last = { l with cursor := c, keyAllowed := allowed', keys := kept } :=
    ⟨_, rfl⟩
  have houter : last.outer = [] := by rw [hlast]; exact h.outer
  have hkeys : Free last.keys := by
    rw [hlast]
    exact fun p hp => h.keys p (hmem p hp)
  have hpeek : last.cursor.peek? = none := by
    rw [hlast]
    simp [Cursor.peek?, hc]
  obtain ⟨keys, hdrop, -⟩ := dropKey_eq hkeys
  refine ⟨{ last with keys := keys }, ?_, by rw [hlast]; exact h.tokens⟩
  simp [run, hnext, dropStaleKeys, hkept, ← hlast, closeBlocks_eq houter, hpeek, finish, hdrop, bind,
    Except.bind, pure, Except.pure]

/-- Where a key may start, its place is remembered. -/
theorem Between.saveKey (h : Between l rest tokens depth allowed) :
    ∃ l', l.saveKey = .ok l' ∧ Between l' rest tokens depth allowed ∧ l'.cursor = l.cursor ∧
      (allowed = true → ∃ others, l'.keys =
        some ⟨tokens.length, l.cursor.index, l.cursor.line, l.cursor.column, false⟩ :: others) := by
  unfold Lexer.saveKey
  split
  · obtain ⟨keys, hdrop, hmem⟩ := dropKey_eq h.keys
    have hoptional : (l.indent == (l.cursor.column : Int)) = false := by
      rw [h.indent]
      exact beq_eq_false_iff_ne.mpr (by omega)
    rw [hdrop]
    simp only [bind, Except.bind, pure, Except.pure, h.tokens, hoptional, Bool.and_false]
    refine ⟨_, rfl, ⟨h.rest, rfl, h.depth, h.allowed, ?_, h.indent, h.outer⟩, rfl,
      fun _ => ⟨_, rfl⟩⟩
    intro p hp
    rcases List.mem_cons.mp hp with hp | hp
    · cases hp
      rfl
    · exact h.keys p (hmem p (List.mem_of_mem_drop hp))
  · next hnot =>
    refine ⟨l, rfl, h, rfl, ?_⟩
    rintro rfl
    exact absurd h.allowed hnot

/-- An opening bracket adds its token, and the brackets are one deeper. -/
theorem Between.openFlow {x : Char} (h : Between l (x :: more) tokens depth allowed) (t : Token) :
    ∃ l', l.openFlow t = .ok l' ∧ Between l' more (t :: tokens) (depth + 1) true := by
  obtain ⟨saved, hsave, hsaved, -, -⟩ := h.saveKey
  rw [Lexer.openFlow, hsave]
  refine ⟨_, rfl, ?_, ?_, ?_, rfl, ?_, hsaved.indent, hsaved.outer⟩
  · simp [push, advance, allowKey, Cursor.advance, hsaved.rest]
  · simp [push, advance, allowKey, hsaved.tokens]
  · simp [push, advance, allowKey, hsaved.depth]
  · intro p hp
    exact hsaved.keys p (by simpa [push, advance, allowKey] using hp)

/-- A closing bracket adds its token, and the brackets are one less deep. -/
theorem Between.closeFlow {x : Char} (h : Between l (x :: more) tokens (depth + 1) allowed)
    (t : Token) : ∃ l', l.closeFlow t = .ok l' ∧ Between l' more (t :: tokens) depth false := by
  obtain ⟨keys, hdrop, hmem⟩ := dropKey_eq h.keys
  have hin : ({ l with keys := keys } : Lexer).inFlow = true := h.inFlow
  rw [Lexer.closeFlow, hdrop]
  simp only [bind, Except.bind, pure, Except.pure, hin, if_true]
  refine ⟨_, rfl, ?_, ?_, ?_, rfl, ?_, h.indent, h.outer⟩
  · simp [push, advance, allowKey, Cursor.advance, h.rest]
  · simp [push, advance, allowKey, h.tokens]
  · simp [push, advance, allowKey, h.depth]
  · intro p hp
    exact h.keys p (hmem p (List.mem_of_mem_drop hp))

/-- A comma adds its token. -/
theorem Between.flowEntry {x : Char} (h : Between l (x :: more) tokens depth allowed) :
    ∃ l', l.flowEntry = .ok l' ∧ Between l' more (.flowEntry :: tokens) depth true := by
  obtain ⟨keys, hdrop, hmem⟩ := dropKey_eq h.keys
  rw [Lexer.flowEntry, hdrop]
  refine ⟨_, rfl, ?_, ?_, ?_, rfl, ?_, h.indent, h.outer⟩
  · simp [push, advance, allowKey, Cursor.advance, h.rest]
  · simp [push, advance, allowKey, h.tokens]
  · simp [push, advance, allowKey, h.depth]
  · exact fun p hp => h.keys p (hmem p hp)

/-- A colon makes a key of what stands at the place that is remembered. -/
theorem Between.valueMark {x : Char} {p : KeyPlace} {others : List (Option KeyPlace)}
    (h : Between l (x :: more) tokens (depth + 1) allowed) (hkeys : l.keys = some p :: others) :
    ∃ l', l.valueMark = .ok l' ∧
      Between l' more (.value :: tokens.insertIdx (tokens.length - p.tokens) .key) (depth + 1)
        false := by
  have hin : (l.insert p.tokens .key).inFlow = true := h.inFlow
  rw [Lexer.valueMark, hkeys]
  simp only [openBlock, hin, Bool.not_true, Bool.false_and, Bool.false_eq_true, if_false]
  refine ⟨_, rfl, ?_, ?_, ?_, rfl, ?_, h.indent, h.outer⟩
  · simp [push, advance, allowKey, insert, Cursor.advance, h.rest]
  · simp [push, advance, allowKey, insert, h.tokens]
  · simp [push, advance, allowKey, insert, h.depth]
  · intro q hq
    refine h.keys q ?_
    rw [hkeys]
    exact List.mem_cons_of_mem _ (by simpa [push, advance, allowKey, insert] using hq)

/-- A text between quotes is a scalar. It may be a key if a key may start there, it is short enough and
it is on one line. -/
theorem Between.scalar {text : String} (htext : Restored text.toList)
    (h : Between l (quoteChars text ++ more) tokens depth allowed) :
    ∃ l', l.token '"' = .ok l' ∧ Between l' more (.scalar .quoted text :: tokens) depth false ∧
      (allowed = true → (quoteChars text).length ≤ 1024 →
        (∀ c ∈ text.toList, isSeparator c = false) → ∃ p others, l'.keys = some p :: others ∧
          p.tokens = tokens.length ∧ outOfReach l'.cursor p = false) := by
  obtain ⟨saved, hsave, hsaved, hcursor, hplace⟩ := h.saveKey
  obtain ⟨c, hread, hrest, hline⟩ := readQuoted_quoteChars htext more hsaved.rest
  have hquote : l.cursor.rest = '"' :: (text.toList.flatMap escapeChar ++ ['"'] ++ more) := h.rest
  rw [token_mark (by decide) hquote nofun, Lexer.keyToken, hsave]
  simp only [bind, Except.bind, pure, Except.pure, hread, Except.map, String.ofList_toList,
    Char.reduceEq, if_false]
  refine ⟨_, rfl, ⟨hrest, ?_, hsaved.depth, rfl, hsaved.keys, hsaved.indent, hsaved.outer⟩, ?_⟩
  · simp [push, allowKey, hsaved.tokens]
  · intro hallowed hshort hnone
    obtain ⟨others, hkeys⟩ := hplace hallowed
    refine ⟨_, others, hkeys, rfl, ?_⟩
    simp only [outOfReach, push, allowKey, hline hnone, Cursor.advance, hcursor, Nat.lt_irrefl,
      decide_false, Bool.false_or, decide_eq_false_iff_not]
    omega

/-! ## Runs -/

/-- A lexer comes to another one in a number of turns. -/
def Passes (turns : Nat) (l l' : Lexer) : Prop :=
  ∀ fuel, run (turns + fuel) l = run fuel l'

/-- Turns are made one after the other. -/
theorem Passes.trans {m n : Nat} {l₁ l₂ l₃ : Lexer} (h : Passes m l₁ l₂) (h' : Passes n l₂ l₃) :
    Passes (m + n) l₁ l₃ := by
  intro fuel
  rw [Nat.add_assoc, h, h']

/-- The turn at a mark does what is done with its token. -/
theorem Between.passes {g : List Char} {x : Char} {motive : Lexer → Prop} (hx : x ∈ marks)
    (hg : Blanks g) (hflow : depth ≠ 0 ∨ g = [])
    (h : Between l (g ++ x :: more) tokens depth allowed)
    (htoken : ∀ l₁, Between l₁ (x :: more) tokens depth allowed →
      ∃ l₂, l₁.token x = .ok l₂ ∧ motive l₂) :
    ∃ l₂, Passes 1 l l₂ ∧ motive l₂ := by
  obtain ⟨l₁, h₁, hrun, -⟩ := h.run_mark hx hg hflow
  obtain ⟨l₂, hl₂, hmotive⟩ := htoken l₁ h₁
  refine ⟨l₂, ?_, hmotive⟩
  intro fuel
  rw [Nat.add_comm, hrun, hl₂]
  rfl

/-- The brackets of lists and of objects. -/
inductive Bracket
  | square
  | curly

namespace Bracket

def opening : Bracket → Char
  | square => '['
  | curly => '\x7b'

def closing : Bracket → Char
  | square => ']'
  | curly => '\x7d'

def start : Bracket → Token
  | square => .flowSequenceStart
  | curly => .flowMappingStart

def finish : Bracket → Token
  | square => .flowSequenceEnd
  | curly => .flowMappingEnd

end Bracket

/-- A turn at an opening bracket, with blanks in front of it, passes it. -/
theorem Between.passes_open (b : Bracket) {g : List Char} (hg : Blanks g)
    (hflow : depth ≠ 0 ∨ g = []) (h : Between l (g ++ b.opening :: more) tokens depth allowed) :
    ∃ l₂, Passes 1 l l₂ ∧ Between l₂ more (b.start :: tokens) (depth + 1) true := by
  cases b
  all_goals
    refine h.passes (by decide) hg hflow fun l₁ h₁ => ?_
    rw [token_mark (by decide) h₁.rest nofun]
    exact h₁.openFlow _

/-- A turn at a closing bracket, with blanks in front of it, passes it. -/
theorem Between.passes_close (b : Bracket) {g : List Char} (hg : Blanks g)
    (h : Between l (g ++ b.closing :: more) tokens (depth + 1) allowed) :
    ∃ l₂, Passes 1 l l₂ ∧ Between l₂ more (b.finish :: tokens) depth false := by
  cases b
  all_goals
    refine h.passes (by decide) hg (.inl (Nat.succ_ne_zero depth)) fun l₁ h₁ => ?_
    rw [token_mark (by decide) h₁.rest nofun]
    exact h₁.closeFlow _

/-- Nothing at all opens and closes. -/
theorem Between.passes_empty (b : Bracket) {g : List Char} (hg : Blanks g)
    (hflow : depth ≠ 0 ∨ g = [])
    (h : Between l (g ++ b.opening :: b.closing :: more) tokens depth allowed) :
    ∃ l₂, Passes 2 l l₂ ∧ Between l₂ more (b.finish :: b.start :: tokens) depth false := by
  obtain ⟨l₁, hpass₁, h₁⟩ := h.passes_open b hg hflow
  obtain ⟨l₂, hpass₂, h₂⟩ := h₁.passes_close b (.spaces 0)
  exact ⟨l₂, hpass₁.trans hpass₂, h₂⟩

/-- A turn at a comma passes it. -/
theorem Between.passes_comma (h : Between l (',' :: more) tokens depth allowed) :
    ∃ l₂, Passes 1 l l₂ ∧ Between l₂ more (.flowEntry :: tokens) depth true := by
  refine h.passes (by decide) (.spaces 0) (.inr rfl) fun l₁ h₁ => ?_
  rw [token_mark (by decide) h₁.rest nofun]
  exact h₁.flowEntry

/-- A key and its colon. -/
theorem Between.passes_key {g : List Char} {key : String} (hkey : ∀ c ∈ key.toList, Carried c)
    (hshort : (quoteChars key).length ≤ 1024) (hg : Blanks g)
    (h : Between l (g ++ (quoteChars key ++ ':' :: more)) tokens (depth + 1) true) :
    ∃ l₂, Passes 2 l l₂ ∧
      Between l₂ more (.value :: .scalar .quoted key :: .key :: tokens) (depth + 1) false := by
  obtain ⟨l₁, hpass, h₁, hplace⟩ := h.passes (by decide) hg (.inl (Nat.succ_ne_zero depth))
    fun l₁ h₁ => h₁.scalar (restored_of_carried hkey)
  -- the colon follows at once, so the place of the key is still within reach in its turn
  obtain ⟨p, others, hkeys, hplace, hreach⟩ :=
    hplace rfl hshort fun c hc => (hkey c hc).isSeparator_eq_false
  obtain ⟨l₂, h₂, hrun, hkept⟩ := h₁.run_mark (g := []) (by decide) (.spaces 0) (.inr rfl)
  obtain ⟨hcursor, others', hkeys'⟩ := hkept p others rfl hkeys hreach
  obtain ⟨l₃, hvalue, h₃⟩ := h₂.valueMark hkeys'
  have htoken : l₂.token ':' = l₂.valueMark :=
    token_mark (by decide) h₂.rest fun _ => h₂.inFlow
  have hcolon : Passes 1 l₁ l₃ := by
    intro fuel
    rw [Nat.add_comm, hrun, htoken, hvalue]
    rfl
  refine ⟨l₃, hpass.trans hcolon, ?_⟩
  simpa [hplace] using h₃

end Lexer

end Scaffolding.Yaml
