import Mathlib.Tactic.Tauto
import Scaffolding.Proofs.Nix.Expression

/-!
# The flake reference inside a build expression

The expression that builds a template names its flake by a string: the organization, the repository
and the branch stand between two quotes as they are. The name of the template and every value are
escaped; these three texts are not. So the string is the reference only where each of the texts means
itself inside a string, which is to say that it holds no quote, no backslash and no dollar sign before
an opening brace. That condition is exact: any other text is cut short, changed or evaluated, and a
quote in the organization makes code out of what follows it.
-/

set_option autoImplicit false

namespace Scaffolding.Nix

open Reader

/-! ## Characters that mean themselves -/

/-- Inside a string, the characters mean themselves. -/
def Verbatim (cs : List Char) : Prop :=
  '"' ∉ cs ∧ '\\' ∉ cs ∧ ¬ ['$', '\x7b'] <:+: cs

instance (cs : List Char) : Decidable (Verbatim cs) :=
  inferInstanceAs (Decidable ('"' ∉ cs ∧ '\\' ∉ cs ∧ ¬ ['$', '\x7b'] <:+: cs))

/-- Nothing is verbatim. -/
theorem verbatim_nil : Verbatim [] := by
  simp [Verbatim]

/-- A text is verbatim if its first character neither ends nor escapes anything and the rest is
verbatim. -/
theorem verbatim_cons (c : Char) (cs : List Char) :
    Verbatim (c :: cs) ↔
      c ≠ '"' ∧ c ≠ '\\' ∧ ¬ (c = '$' ∧ cs.head? = some '\x7b') ∧ Verbatim cs := by
  have hstart : ['$', '\x7b'] <+: c :: cs ↔ c = '$' ∧ cs.head? = some '\x7b' := by
    cases cs <;> simp [List.cons_prefix_cons, eq_comm]
  simp only [Verbatim, List.mem_cons, List.infix_cons_iff, hstart, not_or, ne_eq, eq_comm (b := c)]
  tauto

/-- A character that is no part of an interpolation keeps apart what stands around it. -/
theorem verbatim_append_cons {c : Char} (hc : Verbatim [c]) (hd : c ≠ '$') (hb : c ≠ '\x7b')
    (xs ys : List Char) : Verbatim (xs ++ c :: ys) ↔ Verbatim xs ∧ Verbatim ys := by
  rw [verbatim_cons] at hc
  induction xs with
  | nil => simp [verbatim_cons, hc, hd]
  | cons x xs ih =>
    have hhead : (xs ++ c :: ys).head? = some '\x7b' ↔ xs.head? = some '\x7b' := by
      cases xs <;> simp [hb]
    rw [List.cons_append, verbatim_cons, verbatim_cons, ih, hhead]
    tauto

/-! ## When a string reads back to its own characters -/

/-- Characters that mean themselves read back up to the closing quote. -/
theorem readText_verbatim {cs : List Char} (h : Verbatim cs) (rest : List Char) :
    readText (cs ++ '"' :: rest) = some (cs, rest) := by
  induction cs with
  | nil => exact readText_quote rest
  | cons c cs ih =>
    obtain ⟨hq, hb, hd, htail⟩ := (verbatim_cons c cs).mp h
    have hinterpolation : ¬ (c = '$' ∧ (cs ++ '"' :: rest).head? = some '\x7b') := by
      cases cs <;> simp_all
    rw [List.cons_append, readText_plain hq hb hinterpolation, ih htail, Option.map_some]

/-- No string is read from a dollar sign before an opening brace. -/
theorem readText_interpolation {c : Char} {cs : List Char} (hc : c = '$')
    (hhead : cs.head? = some '\x7b') : readText (c :: cs) = none := by
  rw [readText.eq_def]
  simp [hc, hhead]

/-- Only a backslash stands for a backslash. -/
theorem unescape_eq_backslash {c : Char} (h : unescape c = '\\') : c = '\\' := by
  unfold unescape at h
  split_ifs at h <;> first | exact h | exact absurd h (by decide)

/-- What is read starts with a backslash only if two of them are there. -/
theorem readText_eq_backslash {c : Char} {cs text left : List Char}
    (h : readText (c :: cs) = some ('\\' :: text, left)) :
    c = '\\' ∧ ∃ rest, cs = '\\' :: rest ∧ readText rest = some (text, left) := by
  by_cases hq : c = '"'
  · rw [hq, readText_quote] at h
    simp at h
  by_cases hb : c = '\\'
  · subst hb
    cases cs with
    | nil => simp [readText] at h
    | cons d cs =>
      rw [readText_backslash, Option.map_eq_some_iff] at h
      obtain ⟨⟨more, after⟩, hrest, hmore⟩ := h
      simp only [Prod.mk.injEq, List.cons.injEq] at hmore
      obtain ⟨⟨hd, rfl⟩, rfl⟩ := hmore
      rw [unescape_eq_backslash hd]
      exact ⟨rfl, cs, rfl, hrest⟩
  by_cases hd : c = '$' ∧ cs.head? = some '\x7b'
  · rw [readText_interpolation hd.1 hd.2] at h
    simp at h
  · rw [readText_plain hq hb hd, Option.map_eq_some_iff] at h
    obtain ⟨⟨more, after⟩, -, hmore⟩ := h
    simp only [Prod.mk.injEq, List.cons.injEq] at hmore
    exact absurd hmore.1.1 hb

/-- Two backslashes are read as one, so that no characters are read as themselves with more
backslashes in front of them. -/
theorem readText_ne_more_backslashes (rest left : List Char) : ∀ (k : Nat) (cs : List Char),
    readText (cs ++ '"' :: rest) ≠ some ('\\' :: List.replicate k '\\' ++ cs, left)
  | k, [], h => by
    obtain ⟨hc, -⟩ := readText_eq_backslash h
    exact absurd hc (by decide)
  | k, [c], h => by
    obtain ⟨-, more, hmore, -⟩ := readText_eq_backslash h
    simp at hmore
  | k, c :: d :: cs, h => by
    obtain ⟨rfl, more, hmore, hread⟩ := readText_eq_backslash h
    obtain ⟨rfl, rfl⟩ := List.cons.inj hmore
    have htext : List.replicate k '\\' ++ '\\' :: '\\' :: cs =
        '\\' :: List.replicate (k + 1) '\\' ++ cs := by
      rw [← List.replicate_succ, List.replicate_succ', List.replicate_succ']
      simp
    have hne := readText_ne_more_backslashes rest left (k + 1) cs
    rw [← htext] at hne
    exact hne hread

/-- Characters between quotes are read as themselves only if they all mean themselves. -/
theorem verbatim_of_readText {cs rest left : List Char}
    (h : readText (cs ++ '"' :: rest) = some (cs, left)) : Verbatim cs := by
  induction cs with
  | nil => exact verbatim_nil
  | cons c cs ih =>
    have hb : c ≠ '\\' := by
      rintro rfl
      obtain ⟨-, more, hmore, hread⟩ := readText_eq_backslash h
      cases cs with
      | nil => simp at hmore
      | cons d cs =>
        obtain ⟨rfl, rfl⟩ := List.cons.inj hmore
        exact readText_ne_more_backslashes rest left 0 cs hread
    have hq : c ≠ '"' := by
      rintro rfl
      rw [List.cons_append, readText_quote] at h
      simp at h
    have hd : ¬ (c = '$' ∧ (cs ++ '"' :: rest).head? = some '\x7b') := by
      intro hd
      rw [List.cons_append, readText_interpolation hd.1 hd.2] at h
      simp at h
    rw [List.cons_append, readText_plain hq hb hd, Option.map_eq_some_iff] at h
    obtain ⟨⟨text, after⟩, hread, htext⟩ := h
    simp only [Prod.mk.injEq, List.cons.injEq, true_and] at htext
    rw [htext.1, htext.2] at hread
    refine (verbatim_cons c cs).mpr ⟨hq, hb, ?_, ih hread⟩
    rintro ⟨hc, hhead⟩
    refine hd ⟨hc, ?_⟩
    cases cs with
    | nil => simp at hhead
    | cons d cs => simpa using hhead

/-! ## The reference -/

/-- The reference to the branch of a template's repository. -/
def flakeReference (d : Template.Descriptor) : List Char :=
  "github:".toList ++ d.organization.toList ++ '/' :: d.repository.toList ++ "?ref=".toList ++
    d.branch.toList

/-- The part of an expression up to the argument that names the flake. -/
def flakeCall : List Char :=
  ("with import <nixpkgs> \x7b\x7d;\n" ++ "let\n" ++ "  template = builtins.getFlake ").toList

/-- The part of an expression behind the argument that names the flake. -/
def afterReference (d : Template.Descriptor) (attrs : String) : List Char :=
  ";\n  args = ".toList ++ indented attrs ++ expressionMiddle ++ nameChars d.name ++
    " args\n".toList

/-- The expression holds the reference of the flake between two quotes. -/
theorem expression_eq (d : Template.Descriptor) (attrs : String) :
    (expression d attrs).toList =
      flakeCall ++ '"' :: (flakeReference d ++ '"' :: afterReference d attrs) := by
  have hopen : "  template = builtins.getFlake \"github:".toList =
      "  template = builtins.getFlake ".toList ++ '"' :: "github:".toList := by simp
  have hclose : "\";\n".toList = '"' :: ";\n".toList := by simp
  have hargs : ";\n  args = ".toList = ";\n".toList ++ "  args = ".toList := by simp
  rw [expression, String.toList_ofList]
  unfold expressionChars expressionHead flakeReference afterReference flakeCall
  simp only [String.toList_append, hopen, hclose, hargs, List.append_assoc, List.cons_append]

/-- The reference is verbatim exactly if its three parts from the template are. -/
theorem verbatim_flakeReference (d : Template.Descriptor) :
    Verbatim (flakeReference d) ↔
      Verbatim d.organization.toList ∧ Verbatim d.repository.toList ∧ Verbatim d.branch.toList := by
  have hhead : "github:".toList = ['g', 'i', 't', 'h', 'u', 'b'] ++ [':'] := String.toList_ofList
  have hbranch : "?ref=".toList = '?' :: (['r', 'e', 'f'] ++ ['=']) := String.toList_ofList
  have hgithub : Verbatim ['g', 'i', 't', 'h', 'u', 'b'] := by decide
  have href : Verbatim ['r', 'e', 'f'] := by decide
  unfold flakeReference
  rw [hhead, hbranch]
  -- the colon, the slash, the question mark and the equals sign stand between the parts
  rw [List.append_assoc, List.append_assoc, List.append_assoc, List.append_assoc,
    List.singleton_append, verbatim_append_cons (by decide) (by decide) (by decide),
    List.cons_append, verbatim_append_cons (by decide) (by decide) (by decide), List.cons_append,
    verbatim_append_cons (by decide) (by decide) (by decide), List.append_assoc,
    List.singleton_append, verbatim_append_cons (by decide) (by decide) (by decide)]
  simp only [hgithub, href, true_and]

/-- The argument that names the flake is a string between quotes. It reads back to the reference, no
matter how far the reading goes, exactly when the organization, the repository and the branch mean
themselves; and then the reading stops where the template writes the closing quote. -/
theorem flake_argument_reads_back_iff (d : Template.Descriptor) (attrs : String) :
    ∃ argument : List Char,
      (expression d attrs).toList = flakeCall ++ '"' :: argument ∧
        ((∃ left, readText argument = some (flakeReference d, left)) ↔
          Verbatim d.organization.toList ∧ Verbatim d.repository.toList ∧
            Verbatim d.branch.toList) ∧
        (Verbatim d.organization.toList ∧ Verbatim d.repository.toList ∧
            Verbatim d.branch.toList ↔
          readText argument = some (flakeReference d, afterReference d attrs)) := by
  refine ⟨_, expression_eq d attrs, ?_, ?_⟩
  · rw [← verbatim_flakeReference]
    constructor
    · rintro ⟨left, hread⟩
      exact verbatim_of_readText hread
    · intro h
      exact ⟨_, readText_verbatim h _⟩
  · rw [← verbatim_flakeReference]
    constructor
    · intro h
      exact readText_verbatim h _
    · exact verbatim_of_readText

/-- A quote in the organization ends the string, and what follows it is left over as code. -/
theorem readText_organization_quote {d : Template.Descriptor} {name code : List Char}
    (horganization : d.organization.toList = name ++ '"' :: code) (hname : Verbatim name)
    (rest : List Char) :
    readText (flakeReference d ++ '"' :: rest) =
      some ("github:".toList ++ name,
        code ++ '/' :: d.repository.toList ++ "?ref=".toList ++ d.branch.toList ++ '"' :: rest) := by
  have hhead : "github:".toList = ['g', 'i', 't', 'h', 'u', 'b'] ++ [':'] := String.toList_ofList
  have hgithub : Verbatim ['g', 'i', 't', 'h', 'u', 'b'] := by decide
  have hstart : Verbatim ("github:".toList ++ name) := by
    rw [hhead, List.append_assoc, List.singleton_append,
      verbatim_append_cons (by decide) (by decide) (by decide)]
    exact ⟨hgithub, hname⟩
  have hsplit : flakeReference d ++ '"' :: rest = ("github:".toList ++ name) ++ '"' ::
      (code ++ '/' :: d.repository.toList ++ "?ref=".toList ++ d.branch.toList ++ '"' :: rest) := by
    unfold flakeReference
    rw [horganization]
    simp only [List.append_assoc, List.cons_append]
  rw [hsplit]
  exact readText_verbatim hstart _

/-- A template whose organization closes the string and goes on with a definition of its own. -/
def leakingTemplate : Template.Descriptor where
  name := "t"
  description := ""
  kind := .nix
  organization := "o\"; leak = builtins.readFile \"x"
  repository := "r"
  branch := "main"
  schemaPath := "config.yaml"

/-- The string that names the flake of this template is not its reference: it ends within the
organization, and the code after it is not what the expression is meant to hold. -/
theorem flake_argument_leaks :
    ∃ argument code : List Char,
      (expression leakingTemplate (attrSet [])).toList = flakeCall ++ '"' :: argument ∧
        readText argument = some ("github:o".toList, "; leak = builtins.readFile \"".toList ++ code) ∧
        ¬ ∃ left, readText argument = some (flakeReference leakingTemplate, left) := by
  have horganization : leakingTemplate.organization.toList =
      ['o'] ++ '"' :: ("; leak = builtins.readFile \"".toList ++ ['x']) := by
    simp [leakingTemplate]
  have hname : "github:".toList ++ ['o'] = "github:o".toList := by simp
  have hread := readText_organization_quote horganization (by decide)
    (afterReference leakingTemplate (attrSet []))
  rw [hname] at hread
  simp only [List.append_assoc] at hread
  refine ⟨_, _, expression_eq leakingTemplate (attrSet []), hread, ?_⟩
  rintro ⟨left, hleft⟩
  have hquote : '"' ∉ flakeReference leakingTemplate := (verbatim_of_readText hleft).1
  apply hquote
  unfold flakeReference
  rw [horganization]
  simp

end Scaffolding.Nix
