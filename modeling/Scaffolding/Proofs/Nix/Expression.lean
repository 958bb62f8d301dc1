import Scaffolding.Builder.Command
import Scaffolding.Proofs.Nix.RoundTrip

/-!
# The arguments inside a build expression

The expression that builds a template holds the attribute set of the settings with all lines but the
first one indented. The lines are taken apart and put together again, which would drop carriage
returns at their ends and would push blanks into any string with a line feed in it. Neither is there:
no string, name, number or word of a literal holds a line feed or a carriage return, so every line
feed stands between tokens, and the indented set is the same set written one level deeper.

With that, the arguments in the expression read back to the settings, and the name of the package
reads back to the name of the template.
-/

set_option autoImplicit false

namespace Scaffolding.Nix

open Reader

/-! ## Indenting a text character by character -/

/-- Two blanks after every line feed. -/
def deepen (cs : List Char) : List Char :=
  cs.flatMap fun c => if c = '\n' then ['\n', ' ', ' '] else [c]

/-- Nothing is not indented. -/
@[simp] theorem deepen_nil : deepen [] = [] :=
  rfl

/-- Two texts are indented one after the other. -/
@[simp] theorem deepen_append (xs ys : List Char) : deepen (xs ++ ys) = deepen xs ++ deepen ys := by
  simp [deepen]

/-- Two spaces are put behind a line break. -/
@[simp] theorem deepen_newline (cs : List Char) :
    deepen ('\n' :: cs) = '\n' :: ' ' :: ' ' :: deepen cs := by
  simp [deepen]

/-- Any other character stays as it is. -/
theorem deepen_cons {c : Char} (h : c ≠ '\n') (cs : List Char) :
    deepen (c :: cs) = c :: deepen cs := by
  simp [deepen, h]

/-- Characters on one line are not indented. -/
theorem deepen_of_not_mem {cs : List Char} (h : '\n' ∉ cs) : deepen cs = cs := by
  induction cs with
  | nil => rfl
  | cons c cs ih =>
    rw [List.mem_cons, not_or] at h
    rw [deepen_cons (Ne.symm h.1), ih h.2]

/-- The second line on starts with a line feed and two blanks. -/
theorem indentRest_cons (line : String) {rest : List String} (h : rest ≠ []) :
    indentRest (line :: rest) = line.toList ++ '\n' :: ' ' :: ' ' :: indentRest rest := by
  cases rest with
  | nil => exact absurd rfl h
  | cons next more => simp [indentRest]

/-- A text has at least one line, unless it is empty and none was begun. -/
theorem linesFrom_ne_nil {line cs : List Char} (h : line ≠ [] ∨ cs ≠ []) :
    Text.linesFrom line cs ≠ [] := by
  induction cs generalizing line with
  | nil =>
    have hline : line ≠ [] := by simpa using h
    simp [Text.linesFrom, hline]
  | cons c cs ih =>
    unfold Text.linesFrom
    split
    · simp
    · exact ih (.inl (by simp))

/-- A line without a return at its end is kept. -/
theorem dropReturn_of_not_mem {line : List Char} (h : '\r' ∉ line) : Text.dropReturn line = line := by
  unfold Text.dropReturn
  split
  · next hlast => exact absurd (List.mem_of_getLast? hlast) h
  · rfl

/-- Indenting line by line is indenting character by character, where there is no carriage return
and the last line has an end of its own. `line` is the reversed start of the first line. -/
theorem indentRest_linesFrom (line cs : List Char) (hline : '\r' ∉ line) (hcs : '\r' ∉ cs)
    (hne : line ≠ [] ∨ cs ≠ []) (hlast : cs.getLast? ≠ some '\n') :
    indentRest ((Text.linesFrom line cs).map String.ofList) = line.reverse ++ deepen cs := by
  induction cs generalizing line with
  | nil =>
    have h : line ≠ [] := by simpa using hne
    simp [Text.linesFrom, h, indentRest]
  | cons c cs ih =>
    have hrest : '\r' ∉ cs := fun h => hcs (List.mem_cons_of_mem _ h)
    have hlast' : cs.getLast? ≠ some '\n' := by
      cases cs with
      | nil => simp
      | cons d ds => rwa [List.getLast?_cons_cons] at hlast
    unfold Text.linesFrom
    split
    · next hc =>
      subst hc
      have hmore : cs ≠ [] := by
        rintro rfl
        simp at hlast
      have hlines : (Text.linesFrom [] cs).map String.ofList ≠ [] := by
        have hne : Text.linesFrom [] cs ≠ [] := linesFrom_ne_nil (.inr hmore)
        simpa using hne
      have hreverse : '\r' ∉ line.reverse := by simpa using hline
      rw [List.map_cons, indentRest_cons _ hlines, String.toList_ofList,
        dropReturn_of_not_mem hreverse, ih [] (by simp) hrest (.inr hmore) hlast', deepen_newline]
      simp
    · next hc =>
      have hcons : '\r' ∉ c :: line := by
        rw [List.mem_cons, not_or]
        refine ⟨?_, hline⟩
        rintro rfl
        exact hcs (List.mem_cons_self)
      rw [ih (c :: line) hcons hrest (.inl (by simp)) hlast', deepen_cons hc]
      simp

/-! ## Tokens stand on one line -/

/-- The characters have no line feed and no carriage return among them. -/
def OneLine (cs : List Char) : Prop :=
  '\n' ∉ cs ∧ '\r' ∉ cs

/-- Two texts on one line make one line together. -/
theorem OneLine.append {xs ys : List Char} (hx : OneLine xs) (hy : OneLine ys) :
    OneLine (xs ++ ys) := by
  simp only [OneLine, List.mem_append, not_or]
  exact ⟨⟨hx.1, hy.1⟩, hx.2, hy.2⟩

/-- Characters of which none ends a line are on one line. -/
theorem oneLine_of_forall {p : Char → Bool} {cs : List Char} (h : ∀ c ∈ cs, p c = true)
    (hn : p '\n' = false) (hr : p '\r' = false) : OneLine cs := by
  constructor
  · intro hm
    rw [h _ hm] at hn
    exact absurd hn (by decide)
  · intro hm
    rw [h _ hm] at hr
    exact absurd hr (by decide)

/-- An escaped character is on one line. -/
theorem oneLine_escapeChar (c : Char) (beforeBrace : Bool) : OneLine (escapeChar c beforeBrace) := by
  unfold escapeChar
  split_ifs with hq hb hn hr <;> simp [OneLine, Ne.symm, *]

/-- An escaped text is on one line. -/
theorem oneLine_escapeChars (cs : List Char) : OneLine (escapeChars cs) := by
  induction cs with
  | nil => simp [escapeChars, OneLine]
  | cons c cs ih => exact (oneLine_escapeChar c _).append ih

/-- A quoted text is on one line. -/
theorem oneLine_quoteChars (cs : List Char) : OneLine (quoteChars cs) := by
  have h := oneLine_escapeChars cs
  simpa [quoteChars, OneLine] using h

/-- A name is on one line. -/
theorem oneLine_nameChars (name : String) : OneLine (nameChars name) := by
  unfold nameChars
  split
  · next h => exact oneLine_of_forall (identifier_of_isIdentifier h).1 (by decide) (by decide)
  · exact oneLine_quoteChars _

/-- Digits are on one line. -/
theorem oneLine_digits {cs : List Char} (h : Digits cs) : OneLine cs :=
  oneLine_of_forall h.2 (by decide) (by decide)

/-- A number without its sign is on one line. -/
theorem oneLine_unsigned {cs : List Char} (h : UnsignedForm cs) : OneLine cs := by
  obtain ⟨hw, hf, he⟩ := h
  refine (oneLine_digits hw).append (OneLine.append ?_ ?_)
  · cases hf with
    | none => simp [OneLine]
    | some h => simpa [OneLine] using oneLine_digits h
  · cases he with
    | none => simp [OneLine]
    | plain h => simpa [OneLine] using oneLine_digits h
    | plus h => simpa [OneLine] using oneLine_digits h
    | minus h => simpa [OneLine] using oneLine_digits h

/-- A number is on one line. -/
theorem oneLine_numberChars (n : Number) : OneLine (numberChars n) := by
  obtain ⟨cs, hform, htext⟩ := n.chars_form Json.layout
  have hcs := oneLine_unsigned hform
  rw [numberChars, htext]
  split
  · simpa [OneLine] using hcs
  · exact hcs

/-- An indentation is on one line. -/
theorem oneLine_indent (depth : Nat) : OneLine (indent depth) := by
  simp [OneLine, indent, List.mem_replicate]

/-! ## The indented set is the set one level deeper -/

/-- The indentation of the next level has two more spaces. -/
theorem indent_succ (depth : Nat) : indent (depth + 1) = ' ' :: ' ' :: indent depth := by
  rfl

mutual

/-- Two blanks after every line feed put a value one level deeper. -/
theorem deepen_valueChars : ∀ (v : Json) (depth : Nat),
    deepen (valueChars depth v) = valueChars (depth + 1) v
  | .null, _ => by rw [valueChars, valueChars]; exact deepen_of_not_mem (by decide)
  | .bool b, _ => by
    rw [valueChars, valueChars]
    cases b <;> exact deepen_of_not_mem (by decide)
  | .number n, _ => by
    rw [valueChars, valueChars]
    exact deepen_of_not_mem (oneLine_numberChars n).1
  | .string s, _ => by
    rw [valueChars, valueChars]
    exact deepen_of_not_mem (oneLine_quoteChars s.toList).1
  | .array [], _ => by
    rw [valueChars, valueChars]
    exact deepen_of_not_mem (by decide)
  | .array (v :: vs), depth => by
    have hend : deepen [' ', ']'] = [' ', ']'] := deepen_of_not_mem (by decide)
    rw [valueChars, valueChars, deepen_cons (by decide), deepen_append,
      deepen_itemsChars (v :: vs) depth, hend]
  | .object [], _ => by
    rw [valueChars, valueChars]
    exact deepen_of_not_mem (by decide)
  | .object (m :: ms), depth => by
    have h := deepen_membersChars (m :: ms) (depth + 1)
    have hclosing : deepen (indent depth ++ ['\x7d']) = indent depth ++ ['\x7d'] := by
      rw [deepen_append, deepen_of_not_mem (oneLine_indent depth).1]
      rfl
    rw [valueChars, valueChars, deepen_cons (by decide), deepen_newline, deepen_append, hclosing,
      indent_succ, ← List.cons_append, ← List.cons_append, h]
    simp

/-- Indenting the items of a list moves them to the next level. -/
theorem deepen_itemsChars : ∀ (vs : List Json) (depth : Nat),
    deepen (itemsChars depth vs) = itemsChars (depth + 1) vs
  | [], _ => by rw [itemsChars, itemsChars]; rfl
  | v :: vs, depth => by
    have hitem : deepen (itemChars depth v) = itemChars (depth + 1) v := by
      by_cases h : ∃ n : Number, v = .number n ∧ n.isNegative = true
      · obtain ⟨n, rfl, hn⟩ := h
        have hline := oneLine_numberChars n
        rw [itemChars, itemChars, if_pos hn]
        exact deepen_of_not_mem (by simpa using hline.1)
      · rw [itemChars_eq h, itemChars_eq h, deepen_valueChars v depth]
    rw [itemsChars_cons, itemsChars_cons, deepen_cons (by decide), deepen_append, hitem,
      deepen_itemsChars vs depth]

/-- The two blanks in front of the first attribute come from the line feed before it, and those of
the last line feed stay behind the last attribute. -/
theorem deepen_membersChars : ∀ (ms : List (String × Json)) (depth : Nat),
    ' ' :: ' ' :: deepen (membersChars depth ms) = membersChars (depth + 1) ms ++ [' ', ' ']
  | [], _ => by rw [membersChars, membersChars]; rfl
  | (key, v) :: ms, depth => by
    rw [membersChars, membersChars, deepen_append, deepen_append,
      deepen_of_not_mem (oneLine_indent depth).1, deepen_of_not_mem (oneLine_nameChars key).1,
      deepen_cons (by decide), deepen_cons (by decide), deepen_cons (by decide), deepen_append,
      deepen_valueChars v depth, deepen_cons (by decide), deepen_newline,
      deepen_membersChars ms depth, indent_succ]
    simp

end

/-! ## No carriage return in a literal -/

mutual

/-- The text of a value has no return in it. -/
theorem return_not_mem_valueChars : ∀ (v : Json) (depth : Nat), '\r' ∉ valueChars depth v
  | .null, _ => by rw [valueChars]; decide
  | .bool b, _ => by rw [valueChars]; cases b <;> decide
  | .number n, _ => by rw [valueChars]; exact (oneLine_numberChars n).2
  | .string s, _ => by rw [valueChars]; exact (oneLine_quoteChars s.toList).2
  | .array [], _ => by rw [valueChars]; decide
  | .array (v :: vs), depth => by
    have h := return_not_mem_itemsChars (v :: vs) depth
    rw [valueChars]
    simpa using h
  | .object [], _ => by rw [valueChars]; decide
  | .object (m :: ms), depth => by
    have h := return_not_mem_membersChars (m :: ms) (depth + 1)
    have hindent := (oneLine_indent depth).2
    rw [valueChars]
    simpa [hindent] using h

/-- Nor has the text of the items of a list. -/
theorem return_not_mem_itemsChars : ∀ (vs : List Json) (depth : Nat), '\r' ∉ itemsChars depth vs
  | [], _ => by rw [itemsChars]; decide
  | v :: vs, depth => by
    have hrest := return_not_mem_itemsChars vs depth
    have hitem : '\r' ∉ itemChars depth v := by
      by_cases h : ∃ n : Number, v = .number n ∧ n.isNegative = true
      · obtain ⟨n, rfl, hn⟩ := h
        have hline := (oneLine_numberChars n).2
        simpa [itemChars, hn] using hline
      · rw [itemChars_eq h]
        exact return_not_mem_valueChars v depth
    rw [itemsChars_cons]
    simpa [hitem] using hrest

/-- Nor has the text of the members of a set. -/
theorem return_not_mem_membersChars : ∀ (ms : List (String × Json)) (depth : Nat),
    '\r' ∉ membersChars depth ms
  | [], _ => by rw [membersChars]; decide
  | (key, v) :: ms, depth => by
    have hrest := return_not_mem_membersChars ms depth
    have hv := return_not_mem_valueChars v depth
    have hindent := (oneLine_indent depth).2
    have hname := (oneLine_nameChars key).2
    rw [membersChars]
    simpa [hv, hindent, hname] using hrest

end

/-- An attribute set ends with its closing brace. -/
theorem getLast?_attrSetChars (members : Members) :
    (attrSetChars members).getLast? = some '\x7d' := by
  cases members with
  | nil => rfl
  | cons m ms => simp [attrSetChars, valueChars, List.getLast?_append, List.getLast?_cons]

/-- An attribute set with all its lines but the first one indented is the same set, written one level
deeper. -/
theorem indented_attrSet (members : Members) :
    indented (attrSet members) = valueChars 1 (.object members) := by
  have hreturn : '\r' ∉ attrSetChars members := return_not_mem_valueChars (.object members) 0
  have hlast := getLast?_attrSetChars members
  have hne : attrSetChars members ≠ [] := by
    intro h
    rw [h] at hlast
    exact absurd hlast (by simp)
  rw [indented, Text.lines, attrSet, String.toList_ofList,
    indentRest_linesFrom [] _ (by simp) hreturn (.inr hne) (by rw [hlast]; decide)]
  exact deepen_valueChars (.object members) 0

/-! ## The expression -/

/-- The part of an expression in front of the arguments, for a repository and its branch. -/
def expressionFront (organization repository branch : String) : List Char :=
  ("with import <nixpkgs> \x7b\x7d;\n" ++ "let\n" ++
    "  template = builtins.getFlake \"github:").toList ++ organization.toList ++ '/' ::
    repository.toList ++ "?ref=".toList ++ branch.toList ++ "\";\n".toList

/-- The expression that builds a template with settings is a front that only the repository and its
branch decide, the arguments, and the name of the package. The arguments are the attribute set with
its lines indented, which is the set written one level deeper: they are read back to the settings,
whatever follows. The name is read back to the name of the template, by itself and in front of the
blank after it. -/
theorem expression_reads_back :
    ∃ front : String → String → String → List Char,
      ∀ (d : Template.Descriptor) (members : Members), ∃ args name : List Char,
        (expression d (attrSet members)).toList =
            front d.organization d.repository d.branch ++ "  args = ".toList ++ args ++
              (";\n" ++ "in\n" ++ "  template.packages.$\x7bbuiltins.currentSystem\x7d.").toList ++
              name ++ " args\n".toList ∧
          args = indented (attrSet members) ∧
          args = valueChars 1 (.object members) ∧
          (∀ rest, read? (args ++ rest) = some (.set (Value.ofMembers members), rest)) ∧
          readName name = some (d.name, []) ∧
          ∀ rest, readName (name ++ ' ' :: rest) = some (d.name, ' ' :: rest) := by
  refine ⟨expressionFront, ?_⟩
  intro d members
  refine ⟨valueChars 1 (.object members), nameChars d.name, ?_, ?_, rfl, ?_, ?_, ?_⟩
  · rw [expression, String.toList_ofList, expressionChars, indented_attrSet]
    rfl
  · exact (indented_attrSet members).symm
  · exact fun rest => read?_object members 1 rest
  · have h := readName_nameChars d.name ends_nil
    rwa [List.append_nil] at h
  · exact fun rest => readName_nameChars d.name (ends_space rest)

end Scaffolding.Nix
