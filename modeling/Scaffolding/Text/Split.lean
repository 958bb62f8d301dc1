/-!
# Cutting at a character

Cutting a list of characters at every occurrence of one character. There is always one piece more
than there are occurrences, so the empty list has one empty piece, and joining the pieces again
gives the list back.
-/

set_option autoImplicit false

namespace Scaffolding.Text

/-- The pieces between the occurrences of `mark`. -/
def splitChars (mark : Char) : List Char → List (List Char)
  | [] => [[]]
  | c :: rest =>
    if c = mark then [] :: splitChars mark rest
    else
      match splitChars mark rest with
      | [] => [[c]]
      | piece :: more => (c :: piece) :: more

/-- The pieces with `mark` between them. -/
def joinChars (mark : Char) : List (List Char) → List Char
  | [] => []
  | [piece] => piece
  | piece :: next :: more => piece ++ mark :: joinChars mark (next :: more)

/-- The pieces of a text between the occurrences of `mark`. -/
def split (mark : Char) (s : String) : List String :=
  (splitChars mark s.toList).map String.ofList

/-- A text before and after the first occurrence of `mark`; nothing after it if there is none. -/
def cutFirst (mark : Char) (cs : List Char) : List Char × Option (List Char) :=
  match cs.dropWhile (· != mark) with
  | [] => (cs, none)
  | _ :: rest => (cs.takeWhile (· != mark), some rest)

/-- A text is cut into one piece at least. -/
theorem splitChars_ne_nil (mark : Char) (cs : List Char) : splitChars mark cs ≠ [] := by
  cases cs with
  | nil => simp [splitChars]
  | cons c rest =>
    unfold splitChars
    split
    · simp
    · split <;> simp

/-- The pieces of a text, joined at the mark, are the text. -/
theorem joinChars_splitChars (mark : Char) (cs : List Char) :
    joinChars mark (splitChars mark cs) = cs := by
  induction cs with
  | nil => rfl
  | cons c rest ih =>
    unfold splitChars
    split
    · next h =>
      subst h
      cases hs : splitChars c rest with
      | nil => exact absurd hs (splitChars_ne_nil c rest)
      | cons piece more => rw [hs] at ih; simp [joinChars, ih]
    · cases hs : splitChars mark rest with
      | nil => exact absurd hs (splitChars_ne_nil mark rest)
      | cons piece more =>
        rw [hs] at ih
        cases more with
        | nil => simpa [joinChars] using ih
        | cons next more => simpa [joinChars] using ih

/-- No piece holds the character at which the text was cut. -/
theorem not_mem_of_mem_splitChars {mark : Char} {cs piece : List Char}
    (h : piece ∈ splitChars mark cs) : mark ∉ piece := by
  induction cs generalizing piece with
  | nil => simp [splitChars] at h; simp [h]
  | cons c rest ih =>
    unfold splitChars at h
    split at h
    · rcases List.mem_cons.1 h with rfl | h
      · simp
      · exact ih h
    · next hc =>
      cases hs : splitChars mark rest with
      | nil => exact absurd hs (splitChars_ne_nil mark rest)
      | cons first more =>
        rw [hs] at h ih
        rcases List.mem_cons.1 h with rfl | h
        · have := ih (List.mem_cons_self)
          simp only [List.mem_cons, not_or]
          exact ⟨fun e => hc e.symm, this⟩
        · exact ih (List.mem_cons_of_mem _ h)

/-- A text without the mark is its only piece. -/
theorem splitChars_of_not_mem {mark : Char} {piece : List Char} (h : mark ∉ piece) :
    splitChars mark piece = [piece] := by
  induction piece with
  | nil => rfl
  | cons c piece ih =>
    rw [List.mem_cons, not_or] at h
    rw [splitChars, if_neg (Ne.symm h.1), ih h.2]

/-- What stands before the first mark is the first piece. -/
theorem splitChars_append {mark : Char} {piece : List Char} (h : mark ∉ piece) (cs : List Char) :
    splitChars mark (piece ++ mark :: cs) = piece :: splitChars mark cs := by
  induction piece with
  | nil => simp [splitChars]
  | cons c piece ih =>
    rw [List.mem_cons, not_or] at h
    rw [List.cons_append, splitChars, if_neg (Ne.symm h.1), ih h.2]

/-- Cutting in front of a mark and behind it, and putting the pieces together. -/
theorem splitChars_append_mark (mark : Char) (cs ds : List Char) :
    splitChars mark (cs ++ mark :: ds) = splitChars mark cs ++ splitChars mark ds := by
  induction cs with
  | nil => simp [splitChars]
  | cons c cs ih =>
    rw [List.cons_append, splitChars, splitChars, ih]
    split
    · rfl
    · cases hs : splitChars mark cs with
      | nil => exact absurd hs (splitChars_ne_nil mark cs)
      | cons piece more => rfl

/-- Pieces that were joined are found again, if there is one and none holds the mark. -/
theorem splitChars_joinChars {mark : Char} {pieces : List (List Char)} (hne : pieces ≠ [])
    (h : ∀ piece ∈ pieces, mark ∉ piece) : splitChars mark (joinChars mark pieces) = pieces := by
  induction pieces with
  | nil => exact absurd rfl hne
  | cons piece more ih =>
    have hpiece : mark ∉ piece := h piece List.mem_cons_self
    cases more with
    | nil => exact splitChars_of_not_mem hpiece
    | cons next more =>
      have hmore := ih (by simp) fun p hp => h p (List.mem_cons_of_mem piece hp)
      rw [joinChars, splitChars_append hpiece, hmore]

/-- A text, and what a mark sets off behind it, if there is anything. -/
theorem cutFirst_append_elim {mark : Char} {cs : List Char} (h : mark ∉ cs)
    (back : Option (List Char)) :
    cutFirst mark (cs ++ back.elim [] (mark :: ·)) = (cs, back) := by
  have hall : ∀ c ∈ cs, (c != mark) = true := fun c hc =>
    bne_iff_ne.2 fun heq => h (heq ▸ hc)
  cases back with
  | none =>
    have hdrop : (cs ++ []).dropWhile (· != mark) = [] := List.dropWhile_append_of_pos hall
    rw [Option.elim_none, cutFirst, hdrop, List.append_nil]
  | some ds =>
    have hdrop : (cs ++ mark :: ds).dropWhile (· != mark) = mark :: ds := by
      rw [List.dropWhile_append_of_pos hall, List.dropWhile_cons_of_neg (by simp)]
    have htake : (cs ++ mark :: ds).takeWhile (· != mark) = cs := by
      rw [List.takeWhile_append_of_pos hall, List.takeWhile_cons_of_neg (by simp), List.append_nil]
    rw [Option.elim_some, cutFirst, hdrop, htake]

/-- What stands before the mark, and the mark with what stands behind it, make the whole text. -/
theorem append_elim_cutFirst (mark : Char) (cs : List Char) :
    (cutFirst mark cs).1 ++ (cutFirst mark cs).2.elim [] (mark :: ·) = cs := by
  unfold cutFirst
  split
  · simp
  · next c rest hdrop =>
    have hmark : c = mark := by
      have hhead := List.head?_dropWhile_not (· != mark) cs
      rw [hdrop] at hhead
      simpa using hhead
    subst hmark
    rw [Option.elim_some, ← hdrop, List.takeWhile_append_dropWhile]

end Scaffolding.Text
