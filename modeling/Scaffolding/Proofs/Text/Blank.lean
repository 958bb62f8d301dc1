import Mathlib.Data.List.TakeWhile
import Scaffolding.Text.Blank

/-!
# Trimmed texts

A trimmed text is what stands between the blanks of a text, with no blanks at its own ends. Trimming
gives this part and no other one, and the part is blank only if the whole text is.
-/

set_option autoImplicit false

namespace Scaffolding.Text

/-- Dropping what satisfies a test does not change whether everything satisfies it. -/
theorem all_dropWhile (p : Char → Bool) (cs : List Char) : (cs.dropWhile p).all p = cs.all p := by
  induction cs with
  | nil => rfl
  | cons c cs ih =>
    cases hc : p c with
    | true => rw [List.dropWhile_cons_of_pos hc, ih, List.all_cons, hc, Bool.true_and]
    | false => rw [List.dropWhile_cons_of_neg (by simp [hc])]

/-- A text is blank if its trimmed form is. -/
theorem all_isBlank_trimChars (cs : List Char) : (trimChars cs).all isBlank = cs.all isBlank := by
  rw [trimChars, dropTrailingBlanks, List.all_reverse, all_dropWhile, List.all_reverse,
    all_dropWhile]

/-- Trimming keeps a text blank or not. -/
theorem isBlankText_trim (s : String) : isBlankText (trim s) = isBlankText s := by
  rw [isBlankText, trim, String.toList_ofList, all_isBlank_trimChars, isBlankText]

/-- Nothing is left of a text exactly if all of it is blank. -/
theorem trimChars_eq_nil_iff {cs : List Char} :
    trimChars cs = [] ↔ ∀ c ∈ cs, isBlank c = true := by
  rw [← List.all_eq_true]
  constructor
  · intro h
    rw [← all_isBlank_trimChars, h]
    rfl
  · intro h
    rw [trimChars, List.dropWhile_eq_nil_iff.mpr (List.all_eq_true.mp h)]
    rfl

/-- Nothing is left of a text by trimming exactly if it is blank. -/
theorem isEmpty_trim (s : String) : (trim s).isEmpty = isBlankText s := by
  rw [Bool.eq_iff_iff, String.isEmpty_iff, ← String.toList_eq_nil_iff, trim, String.toList_ofList,
    trimChars_eq_nil_iff, isBlankText, List.all_eq_true]

/-- A text is blank if its parts are. -/
theorem isBlankText_append (s t : String) :
    isBlankText (s ++ t) = (isBlankText s && isBlankText t) := by
  rw [isBlankText, String.toList_append, List.all_append, isBlankText, isBlankText]

/-- Blanks before a text are dropped, and no more. -/
theorem dropWhile_isBlank_append {blanks : List Char} (h : ∀ c ∈ blanks, isBlank c = true)
    {cs : List Char} (hcs : ∀ c ∈ cs.head?, isBlank c = false) :
    (blanks ++ cs).dropWhile isBlank = cs := by
  rw [List.dropWhile_append_of_pos h]
  cases cs with
  | nil => rfl
  | cons c cs => rw [List.dropWhile_cons_of_neg (by simp [hcs c rfl])]

/-- What is left does not start with a blank. -/
theorem head?_dropWhile_isBlank (cs : List Char) :
    ∀ c ∈ (cs.dropWhile isBlank).head?, isBlank c = false := by
  intro c hc
  have hhead := List.head?_dropWhile_not isBlank cs
  rw [hc] at hhead
  exact hhead

/-- A text between blanks, with no blanks at its ends. -/
def Trimmed (cs body : List Char) : Prop :=
  ∃ before after, cs = before ++ (body ++ after) ∧ (∀ c ∈ before, isBlank c = true) ∧
    (∀ c ∈ after, isBlank c = true) ∧ (∀ c ∈ body.head?, isBlank c = false) ∧
    ∀ c ∈ body.getLast?, isBlank c = false

/-- What was trimmed has no blanks to trim. -/
theorem Trimmed.self {cs body : List Char} (h : Trimmed cs body) : Trimmed body body := by
  obtain ⟨-, -, -, -, -, hhead, hlast⟩ := h
  exact ⟨[], [], by simp, by simp, by simp, hhead, hlast⟩

/-- The part of a text between its blanks is its trimmed form. -/
theorem trimChars_of_trimmed {cs body : List Char} (h : Trimmed cs body) : trimChars cs = body := by
  obtain ⟨before, after, rfl, hbefore, hafter, hhead, hlast⟩ := h
  cases hbody : body with
  | nil =>
    rw [List.nil_append, trimChars_eq_nil_iff]
    intro c hc
    exact (List.mem_append.mp hc).elim (hbefore c) (hafter c)
  | cons c rest =>
    rw [← hbody]
    have hfront : ∀ x ∈ (body ++ after).head?, isBlank x = false := by
      rw [hbody, List.cons_append, List.head?_cons]
      rw [hbody, List.head?_cons] at hhead
      exact hhead
    have hback : ∀ x ∈ after.reverse, isBlank x = true := fun x hx =>
      hafter x (List.mem_reverse.mp hx)
    have hend : ∀ x ∈ body.reverse.head?, isBlank x = false := by
      rwa [List.head?_reverse]
    rw [trimChars, dropWhile_isBlank_append hbefore hfront, dropTrailingBlanks, List.reverse_append,
      dropWhile_isBlank_append hback hend, List.reverse_reverse]

/-- A trimmed text is the part between the blanks. -/
theorem trimmed_trimChars (cs : List Char) : Trimmed cs (trimChars cs) := by
  have hfront : cs.takeWhile isBlank ++ cs.dropWhile isBlank = cs := List.takeWhile_append_dropWhile
  have hback : trimChars cs ++ ((cs.dropWhile isBlank).reverse.takeWhile isBlank).reverse =
      cs.dropWhile isBlank := by
    rw [trimChars, dropTrailingBlanks, ← List.reverse_append, List.takeWhile_append_dropWhile,
      List.reverse_reverse]
  refine ⟨_, _, by rw [hback, hfront], ?_, ?_, ?_, ?_⟩
  · exact fun c hc => List.mem_takeWhile_imp hc
  · exact fun c hc => List.mem_takeWhile_imp (List.mem_reverse.mp hc)
  · intro c hc
    apply head?_dropWhile_isBlank cs
    rw [← hback, List.head?_append, hc]
    rfl
  · intro c hc
    apply head?_dropWhile_isBlank (cs.dropWhile isBlank).reverse
    rwa [trimChars, dropTrailingBlanks, List.getLast?_reverse] at hc

/-- Trimming drops the blanks around a text and nothing else. -/
theorem trimmed_iff {cs body : List Char} : Trimmed cs body ↔ trimChars cs = body := by
  constructor
  · exact trimChars_of_trimmed
  · rintro rfl
    exact trimmed_trimChars cs

/-- There is one part between the blanks, and trimming gives it. -/
theorem trimmed_iff_trim {s text : String} : Trimmed s.toList text.toList ↔ trim s = text := by
  rw [trimmed_iff, ← String.toList_inj, trim, String.toList_ofList]

/-- A trimmed text is part of the text. -/
theorem trimChars_infix (cs : List Char) : trimChars cs <:+: cs := by
  obtain ⟨before, after, hcs, -⟩ := trimmed_trimChars cs
  exact ⟨before, after, by rw [List.append_assoc, ← hcs]⟩

end Scaffolding.Text
