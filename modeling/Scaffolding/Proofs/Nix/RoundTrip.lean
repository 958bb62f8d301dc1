import Scaffolding.Proofs.Nix.Token

/-!
# Nix literals read back

Every JSON object reads back from its attribute set: the same values under the same keys in the same
order, at every level, with nothing left over. The indentation plays no part, so the same holds for
a literal that starts at any depth.

The proof goes through the values as they are written, with the characters after a value left open
and the number of steps bounded by the length of what is written. A value that is not closed by a
mark of its own must be followed by something that ends it; in a literal that is a blank, a
semicolon or a closing parenthesis.
-/

set_option autoImplicit false

namespace Scaffolding.Nix

open Reader

/-! ## The items of a list -/

/-- An item of a list: a negative number stands in parentheses. -/
def itemChars (depth : Nat) : Json → List Char
  | .number n => if n.isNegative then '(' :: (numberChars n ++ [')']) else numberChars n
  | v => valueChars depth v

/-- The items of a list are written one after the other, each with a space before it. -/
theorem itemsChars_cons (depth : Nat) (v : Json) (rest : List Json) :
    itemsChars depth (v :: rest) = ' ' :: (itemChars depth v ++ itemsChars depth rest) := by
  cases v with
  | number n => simp only [itemsChars, itemChars]; split <;> simp
  | _ => simp only [itemsChars, itemChars]

/-- A value starts with a character that is no blank and closes no list. Only a negative number
starts with a minus sign. -/
theorem head_valueChars (depth : Nat) (v : Json) :
    ∃ c rest, valueChars depth v = c :: rest ∧ isSpace c = false ∧ c ≠ ']' ∧
      (c = '-' → ∃ n : Number, v = .number n ∧ n.isNegative = true) := by
  cases v with
  | null => exact ⟨'n', _, rfl, by decide, by decide, by simp⟩
  | bool b =>
    cases b with
    | true => exact ⟨'t', _, rfl, by decide, by decide, by simp⟩
    | false => exact ⟨'f', _, rfl, by decide, by decide, by simp⟩
  | number n =>
    obtain ⟨c, rest, htext, hc⟩ := head_numberChars n
    refine ⟨c, rest, by rw [valueChars, htext], ?_⟩
    cases hn : n.isNegative with
    | true =>
      rw [hn, if_pos rfl] at hc
      subst hc
      exact ⟨by decide, by decide, fun _ => ⟨n, rfl, hn⟩⟩
    | false =>
      rw [hn, if_neg Bool.false_ne_true] at hc
      refine ⟨isSpace_of_isWordChar (isWordChar_of_isDigit hc), ?_, ?_⟩
      · rintro rfl
        exact absurd hc (by decide)
      · rintro rfl
        exact absurd hc (by decide)
  | string s => exact ⟨'"', _, rfl, by decide, by decide, by simp⟩
  | array items => cases items <;> exact ⟨'[', _, rfl, by decide, by decide, by simp⟩
  | object members => cases members <;> exact ⟨'\x7b', _, rfl, by decide, by decide, by simp⟩

/-- Only a negative number is written otherwise as an item than as a value. -/
theorem itemChars_eq {v : Json} (h : ¬ ∃ n : Number, v = .number n ∧ n.isNegative = true)
    (depth : Nat) : itemChars depth v = valueChars depth v := by
  cases v with
  | number n =>
    have hn : n.isNegative = false := by
      rw [Bool.eq_false_iff]
      exact fun hn => h ⟨n, rfl, hn⟩
    simp [itemChars, valueChars, hn]
  | _ => rfl

/-- An item never starts with a minus sign. -/
theorem head_itemChars (depth : Nat) (v : Json) :
    ∃ c rest, itemChars depth v = c :: rest ∧ isSpace c = false ∧ c ≠ ']' ∧ c ≠ '-' := by
  by_cases h : ∃ n : Number, v = .number n ∧ n.isNegative = true
  · obtain ⟨n, rfl, hn⟩ := h
    exact ⟨'(', numberChars n ++ [')'], by simp [itemChars, hn], by decide, by decide, by decide⟩
  · obtain ⟨c, rest, htext, hs, hb, hm⟩ := head_valueChars depth v
    exact ⟨c, rest, by rw [itemChars_eq h, htext], hs, hb, fun hc => h (hm hc)⟩

/-! ## One step of the reader -/

/-- A brace opens a set. -/
theorem readValue_set (fuel : Nat) (rest : List Char) :
    readValue (fuel + 1) ('\x7b' :: rest) =
      (readAttributes fuel rest).map fun (attributes, left) => (.set attributes, left) := by
  rw [readValue, if_pos rfl]

/-- A bracket opens a list. -/
theorem readValue_list (fuel : Nat) (rest : List Char) :
    readValue (fuel + 1) ('[' :: rest) =
      (readItems fuel rest).map fun (items, left) => (.list items, left) := by
  rw [readValue, if_neg (by decide), if_pos rfl]

/-- A quoted text is read as the text that it was. -/
theorem readValue_string (fuel : Nat) (cs rest : List Char) :
    readValue (fuel + 1) (quoteChars cs ++ rest) = some (.string (String.ofList cs), rest) := by
  rw [quoteChars_append, readValue, if_neg (by decide), if_neg (by decide), if_pos rfl,
    readText_escapeChars, Option.map_some]

/-- A number is read with the characters that were written. -/
theorem readValue_number (fuel : Nat) (n : Number) {rest : List Char} (hs : Ends rest) :
    readValue (fuel + 1) (numberChars n ++ rest) =
      some (.number (String.ofList (numberChars n)), rest) := by
  have hread := readNumber_numberChars n hs
  obtain ⟨c, more, htext, hc⟩ := head_numberChars n
  have hstart : (c = '-' || isDigit c) = true := by
    cases hn : n.isNegative with
    | true => rw [hn, if_pos rfl] at hc; simp [hc]
    | false => rw [hn, if_neg Bool.false_ne_true] at hc; simp [hc]
  have hne : c ≠ '\x7b' ∧ c ≠ '[' ∧ c ≠ '"' ∧ c ≠ '(' := by
    refine ⟨?_, ?_, ?_, ?_⟩ <;> (rintro rfl; exact absurd hstart (by decide))
  rw [htext, List.cons_append] at hread ⊢
  rw [readValue, if_neg hne.1, if_neg hne.2.1, if_neg hne.2.2.1, if_neg hne.2.2.2, if_pos hstart,
    hread, Option.map_some]

/-- A number is compared by its JSON text, and that is how it is written. -/
theorem render_number (n : Number) : (Json.number n).render = String.ofList (numberChars n) :=
  rfl

/-- The word for null is read as null. -/
theorem readValue_null (fuel : Nat) {rest : List Char} (hs : Ends rest) :
    readValue (fuel + 1) ("null".toList ++ rest) = some (.null, rest) := by
  rw [← readWord_null hs]
  rfl

/-- The words for the booleans are read as they are meant. -/
theorem readValue_bool (fuel : Nat) (b : Bool) {rest : List Char} (hs : Ends rest) :
    readValue (fuel + 1) ((if b then "true" else "false").toList ++ rest) =
      some (.bool b, rest) := by
  rw [← readWord_bool b hs]
  cases b <;> rfl

/-- A number between parentheses is read like one without. -/
theorem readValue_parentheses (fuel : Nat) (n : Number) (rest : List Char) :
    readValue (fuel + 2) ('(' :: (numberChars n ++ ')' :: rest)) =
      some (.number (String.ofList (numberChars n)), rest) := by
  have hread := readValue_number fuel n (ends_closing rest)
  obtain ⟨c, more, htext, hs, -⟩ := head_valueChars 0 (.number n)
  rw [valueChars] at htext
  have hskip : skipSpace (numberChars n ++ ')' :: rest) = numberChars n ++ ')' :: rest := by
    rw [htext, List.cons_append, skipSpace_cons hs]
  rw [readValue, if_neg (by decide), if_neg (by decide), if_neg (by decide), if_pos rfl, hskip, hread]
  simp [skipSpace_cons (show isSpace ')' = false by decide), expect]

/-- A list ends at its bracket. -/
theorem readItems_closing (fuel : Nat) (rest : List Char) :
    readItems (fuel + 1) (' ' :: ']' :: rest) = some ([], rest) := by
  rfl

/-- A list is read item by item. -/
theorem readItems_item {fuel depth : Nat} {v : Json} {w : Value} {ws : List Value}
    {left rest : List Char} (hv : readValue fuel (itemChars depth v ++ left) = some (w, left))
    (hrest : readItems fuel left = some (ws, rest)) :
    readItems (fuel + 1) (' ' :: (itemChars depth v ++ left)) = some (w :: ws, rest) := by
  obtain ⟨c, more, htext, hs, hb, hm⟩ := head_itemChars depth v
  rw [htext, List.cons_append] at hv ⊢
  rw [readItems, skipSpace_space, skipSpace_cons hs]
  have hblank : isSpace ' ' = true := by decide
  simp [hb, hm, hblank, hv, hrest]

/-- A set without attributes ends at once. -/
theorem readAttributes_empty (fuel : Nat) (rest : List Char) :
    readAttributes (fuel + 1) (' ' :: '\x7d' :: rest) = some ([], rest) := by
  rfl

/-- A set with attributes ends on a line of its own. -/
theorem readAttributes_closing (fuel depth : Nat) (rest : List Char) :
    readAttributes (fuel + 1) ('\n' :: (indent depth ++ '\x7d' :: rest)) = some ([], rest) := by
  rw [readAttributes, skipSpace_newline, skipSpace_indent, skipSpace_cons (by decide)]
  rfl

/-- An attribute on a line of its own is read, and then the attributes after it. -/
theorem readAttributes_attribute {fuel : Nat} (depth : Nat) (key : String) {v : Json} {w : Value}
    {ws : List (String × Value)} {left rest : List Char}
    (hv : readValue fuel (valueChars depth v ++ ';' :: left) = some (w, ';' :: left))
    (hrest : readAttributes fuel left = some (ws, rest)) :
    readAttributes (fuel + 1)
        ('\n' :: (indent depth ++
          (nameChars key ++ ' ' :: '=' :: ' ' :: (valueChars depth v ++ ';' :: left)))) =
      some ((key, w) :: ws, rest) := by
  have hname := readName_nameChars key
    (ends_space ('=' :: ' ' :: (valueChars depth v ++ ';' :: left)))
  obtain ⟨c, more, htext, hs, hb⟩ := head_nameChars key
  obtain ⟨d, tail, hvalue, hd, -⟩ := head_valueChars depth v
  have hskip : skipSpace (' ' :: (valueChars depth v ++ ';' :: left)) =
      valueChars depth v ++ ';' :: left := by
    rw [skipSpace_space, hvalue, List.cons_append, skipSpace_cons hd]
  have heq : skipSpace (' ' :: '=' :: ' ' :: (valueChars depth v ++ ';' :: left)) =
      '=' :: ' ' :: (valueChars depth v ++ ';' :: left) := by
    rw [skipSpace_space, skipSpace_cons (by decide)]
  have hend : skipSpace (';' :: left) = ';' :: left := skipSpace_cons (by decide) left
  rw [htext, List.cons_append] at hname ⊢
  rw [readAttributes, skipSpace_newline, skipSpace_indent, skipSpace_cons hs]
  simp [hb, hname, heq, hskip, expect, hv, hend, hrest]

/-- An object without members is read as a set without attributes. -/
theorem readValue_empty (fuel depth : Nat) (rest : List Char) :
    readValue (fuel + 2) (valueChars depth (.object []) ++ rest) = some (.set [], rest) := by
  rw [valueChars]
  simp only [List.cons_append, List.nil_append]
  rw [readValue_set, readAttributes_empty, Option.map_some]

/-- An object is read as the set of its members. -/
theorem readValue_object {fuel depth : Nat} {m : String × Json} {ms : List (String × Json)}
    {ws : List (String × Value)} {rest : List Char}
    (h : readAttributes fuel
      ('\n' :: (membersChars (depth + 1) (m :: ms) ++ (indent depth ++ '\x7d' :: rest))) =
        some (ws, rest)) :
    readValue (fuel + 1) (valueChars depth (.object (m :: ms)) ++ rest) = some (.set ws, rest) := by
  rw [valueChars]
  simp only [List.cons_append, List.append_assoc, List.nil_append]
  rw [readValue_set, h, Option.map_some]

/-! ## Whole values -/

mutual

/-- A value reads back at any depth, whatever ends it. -/
theorem readValue_valueChars : ∀ (v : Json) (depth fuel : Nat) (rest : List Char),
    (valueChars depth v).length ≤ fuel + 1 → Ends rest →
      readValue (fuel + 1) (valueChars depth v ++ rest) = some (Value.ofJson v, rest)
  | .null, _, fuel, _, _, hs => by
    rw [valueChars, Value.ofJson]
    exact readValue_null fuel hs
  | .bool b, _, fuel, _, _, hs => by
    rw [valueChars, Value.ofJson]
    exact readValue_bool fuel b hs
  | .number n, _, fuel, _, _, hs => by
    rw [valueChars, Value.ofJson]
    exact readValue_number fuel n hs
  | .string s, _, fuel, rest, _, _ => by
    rw [valueChars, Value.ofJson, readValue_string, String.ofList_toList]
  | .array [], _, fuel, rest, hfuel, _ => by
    obtain ⟨fuel, rfl⟩ : ∃ k, fuel = k + 1 := ⟨fuel - 1, by simp [valueChars] at hfuel; omega⟩
    rw [valueChars, Value.ofJson, Value.ofItems]
    simp only [List.cons_append, List.nil_append]
    rw [readValue_list, readItems_closing, Option.map_some]
  | .array (v :: vs), depth, fuel, rest, hfuel, _ => by
    simp only [valueChars, List.length_cons, List.length_append] at hfuel
    have hread := readItems_itemsChars (v :: vs) depth fuel rest (by simp at hfuel ⊢; omega)
    rw [valueChars, Value.ofJson, List.cons_append, List.append_assoc, readValue_list]
    simp only [List.cons_append, List.nil_append]
    rw [hread, Option.map_some]
  | .object [], depth, fuel, rest, hfuel, _ => by
    obtain ⟨fuel, rfl⟩ : ∃ k, fuel = k + 1 := ⟨fuel - 1, by simp [valueChars] at hfuel; omega⟩
    rw [Value.ofJson, Value.ofMembers]
    exact readValue_empty fuel depth rest
  | .object (m :: ms), depth, fuel, rest, hfuel, _ => by
    simp only [valueChars, List.length_cons, List.length_append] at hfuel
    rw [Value.ofJson]
    exact readValue_object (readAttributes_membersChars (m :: ms) (depth + 1) depth fuel rest
      (by omega))

/-- The items of a list read back up to its closing bracket. -/
theorem readItems_itemsChars : ∀ (vs : List Json) (depth fuel : Nat) (rest : List Char),
    (itemsChars depth vs).length + 2 ≤ fuel →
      readItems fuel (itemsChars depth vs ++ ' ' :: ']' :: rest) = some (Value.ofItems vs, rest)
  | [], depth, fuel + 1, rest, _ => readItems_closing fuel rest
  | v :: vs, depth, fuel + 1, rest, hfuel => by
    rw [itemsChars_cons, List.length_cons, List.length_append] at hfuel
    have hrest := readItems_itemsChars vs depth fuel rest (by omega)
    have hends : Ends (itemsChars depth vs ++ ' ' :: ']' :: rest) := by
      cases vs with
      | nil => exact ends_space _
      | cons w ws => rw [itemsChars_cons]; exact ends_space _
    have hv : readValue fuel (itemChars depth v ++ (itemsChars depth vs ++ ' ' :: ']' :: rest)) =
        some (Value.ofJson v, itemsChars depth vs ++ ' ' :: ']' :: rest) := by
      obtain ⟨fuel, rfl⟩ : ∃ k, fuel = k + 2 := ⟨fuel - 2, by omega⟩
      by_cases h : ∃ n : Number, v = .number n ∧ n.isNegative = true
      · obtain ⟨n, rfl, hn⟩ := h
        rw [itemChars, if_pos hn, Value.ofJson, render_number]
        simpa using readValue_parentheses fuel n (itemsChars depth vs ++ ' ' :: ']' :: rest)
      · rw [itemChars_eq h] at hfuel ⊢
        exact readValue_valueChars v depth (fuel + 1) _ (by omega) hends
    rw [itemsChars_cons, List.cons_append, List.append_assoc, Value.ofItems]
    exact readItems_item hv hrest

/-- The attributes of a set read back up to its closing brace. -/
theorem readAttributes_membersChars :
    ∀ (ms : List (String × Json)) (depth depth' fuel : Nat) (rest : List Char),
      (membersChars depth ms).length + 2 ≤ fuel →
        readAttributes fuel ('\n' :: (membersChars depth ms ++ (indent depth' ++ '\x7d' :: rest))) =
          some (Value.ofMembers ms, rest)
  | [], _, depth', fuel + 1, rest, _ => readAttributes_closing fuel depth' rest
  | (key, v) :: ms, depth, depth', fuel + 1, rest, hfuel => by
    simp only [membersChars, List.length_cons, List.length_append] at hfuel
    obtain ⟨fuel, rfl⟩ : ∃ k, fuel = k + 1 := ⟨fuel - 1, by omega⟩
    have hrest := readAttributes_membersChars ms depth depth' (fuel + 1) rest (by omega)
    have hv := readValue_valueChars v depth fuel
      (';' :: '\n' :: (membersChars depth ms ++ (indent depth' ++ '\x7d' :: rest))) (by omega)
      (ends_semicolon _)
    have hread := readAttributes_attribute depth key hv hrest
    simpa [membersChars, Value.ofMembers] using hread

end

/-- The literal of an object is read whole, at any depth and whatever follows it. -/
theorem read?_object (members : Members) (depth : Nat) (rest : List Char) :
    read? (valueChars depth (.object members) ++ rest) =
      some (.set (Value.ofMembers members), rest) := by
  unfold read?
  cases members with
  | nil => exact readValue_empty (rest.length + 1) depth rest
  | cons m ms =>
    have hlength : (valueChars depth (.object (m :: ms)) ++ rest).length =
        (membersChars (depth + 1) (m :: ms)).length + (indent depth).length + rest.length + 2 + 1 := by
      simp only [valueChars, List.length_cons, List.length_append, List.length_nil]
      omega
    rw [hlength]
    exact readValue_object (readAttributes_membersChars (m :: ms) (depth + 1) depth _ rest
      (by omega))

/-- Every object reads back from its attribute set, with all members in order at every level, and
nothing of the text is left. -/
theorem read?_attrSet (members : Members) :
    read? (attrSet members).toList = some (.set (Value.ofMembers members), []) := by
  have h := read?_object members 0 []
  rw [List.append_nil] at h
  rw [attrSet, String.toList_ofList]
  exact h

/-- A minus sign cannot start an item, and parentheses allow it. -/
example : read? "[ -1 ]".toList = none ∧
    read? "[ (-1) ]".toList = some (.list [.number "-1"], []) :=
  ⟨rfl, rfl⟩

end Scaffolding.Nix
