import Scaffolding.Proofs.Schema.Entries
import Scaffolding.Proofs.Yaml.Record

/-!
# A schema partitions its document

Every entry of a document is a field of its schema or is kept aside, and never both. There are four
reasons to keep an entry aside: its key is no scalar, its value is no description, the description has
a type that nothing means, or a type with choices and no choice. Otherwise the entry is a field, with
the prompt and the path that the description gives or else with its own name for them.

What is due to an entry is told from the entry alone, so that what stands in the rest of the document
does not matter to it; and reading gives every entry what is due to it, in the order of the document.
-/

set_option autoImplicit false

namespace Scaffolding.Schema

/-! ## Types -/

/-- The words for types, with what they mean. -/
def TypeWord.words : List (String × TypeWord) :=
  [("string", .text), ("input", .text), ("text", .text), ("boolean", .yesNo), ("bool", .yesNo),
    ("confirm", .yesNo), ("singleChoice", .oneOf), ("choose", .oneOf), ("radio", .oneOf),
    ("select", .oneOf), ("multiChoice", .anyOf), ("checkbox", .anyOf), ("multiselect", .anyOf)]

/-- The type words are those of the table. -/
theorem TypeWord.ofText?_eq_lookup (word : String) : ofText? word = words.lookup word := by
  unfold ofText?
  split
  case h_14 =>
    refine (List.lookup_eq_none_iff.mpr ?_).symm
    simp_all [words]
  all_goals rfl

/-- The texts of the choices that a description lists. -/
def choicesOf (r : Yaml.Record) : List String :=
  (r.items "choices").filterMap Yaml.Value.scalarText?

/-- A word that is in no table is unsupported. -/
theorem kindOf_unsupported {r : Yaml.Record} {word : String} (hword : r.text? "type" = some word)
    (hnone : TypeWord.words.lookup word = none) :
    kindOf r = .error ("unsupported field type '" ++ word ++ "'") := by
  rw [← TypeWord.ofText?_eq_lookup] at hnone
  simp [kindOf, hword, hnone]

/-- A choice field needs a choice. -/
theorem kindOf_choiceless {r : Yaml.Record} {word : String} (hword : r.text? "type" = some word)
    (hchoice : TypeWord.words.lookup word = some .oneOf ∨ TypeWord.words.lookup word = some .anyOf)
    (hnone : choicesOf r = []) : kindOf r = .error "choice field has no choices" := by
  rw [← TypeWord.ofText?_eq_lookup] at hchoice
  unfold choicesOf at hnone
  rcases hchoice with hchoice | hchoice <;> simp [kindOf, hword, hchoice, hnone]

/-- A description that gives no kind has one of two faults. -/
theorem fault_of_kindOf {r : Yaml.Record} {reason : String} (h : kindOf r = .error reason) :
    ∃ word, r.text? "type" = some word ∧
      (TypeWord.words.lookup word = none ∨
        (TypeWord.words.lookup word = some .oneOf ∨ TypeWord.words.lookup word = some .anyOf) ∧
          choicesOf r = []) := by
  cases hword : r.text? "type" with
  | none => simp [kindOf, hword, TypeWord.ofText?] at h
  | some word =>
    refine ⟨word, rfl, ?_⟩
    simp only [kindOf, hword, Option.getD_some, TypeWord.ofText?_eq_lookup] at h
    cases hmeaning : TypeWord.words.lookup word with
    | none => exact .inl rfl
    | some meaning =>
      have hchoices : (meaning = .oneOf ∨ meaning = .anyOf) ∧ choicesOf r = [] := by
        rw [hmeaning] at h
        cases meaning with
        | text => cases h
        | yesNo => cases h
        | oneOf =>
          dsimp only at h
          split at h
          · next hnone => exact ⟨.inl rfl, List.isEmpty_iff.mp hnone⟩
          · cases h
        | anyOf =>
          dsimp only at h
          split at h
          · next hnone => exact ⟨.inr rfl, List.isEmpty_iff.mp hnone⟩
          · cases h
      obtain ⟨rfl | rfl, hnone⟩ := hchoices
      · exact .inr ⟨.inl rfl, hnone⟩
      · exact .inr ⟨.inr rfl, hnone⟩

/-! ## What is due to an entry -/

/-- A text that is given and not blank stands, and otherwise the name stands in its place. -/
def Worded (given : Option String) (name text : String) : Prop :=
  given = some text ∧ Text.isBlankText text = false ∨
    (∀ t ∈ given, Text.isBlankText t = true) ∧ text = name

/-- The fate that is due to an entry, which is a key and a value. -/
inductive Due : Yaml.Value × Yaml.Value → Fate → Prop
  | unnamed {key v : Yaml.Value} (hkey : key.scalarText? = none) :
      Due (key, v) (.aside "<non-scalar key>" "field names must be scalars")
  | malformed {key v : Yaml.Value} {name : String} {e : Yaml.Mismatch}
      (hkey : key.scalarText? = some name) (hread : description.read v = .error e) :
      Due (key, v) (.aside name ("malformed field: " ++ e.message))
  | unsupported {key v : Yaml.Value} {name word : String} {r : Yaml.Record}
      (hkey : key.scalarText? = some name) (hread : description.read v = .ok r)
      (hword : v.textUnder? ["type"] = some word) (hnone : TypeWord.words.lookup word = none) :
      Due (key, v) (.aside name ("unsupported field type '" ++ word ++ "'"))
  | choiceless {key v : Yaml.Value} {name word : String} {r : Yaml.Record}
      (hkey : key.scalarText? = some name) (hread : description.read v = .ok r)
      (hword : v.textUnder? ["type"] = some word)
      (hchoice : TypeWord.words.lookup word = some .oneOf ∨
        TypeWord.words.lookup word = some .anyOf)
      (hnone : (v.itemsUnder ["choices", "list"]).filterMap Yaml.Value.scalarText? = []) :
      Due (key, v) (.aside name "choice field has no choices")
  | usable {key v : Yaml.Value} {r : Yaml.Record} {f : Field}
      (hkey : key.scalarText? = some f.name) (hread : description.read v = .ok r)
      (hkind : kindOf r = .ok f.kind) (hprompt : Worded (v.textUnder? ["prompt"]) f.name f.prompt)
      (hdestination : Worded (v.textUnder? ["option", "destinationPath"]) f.name f.destination) :
      Due (key, v) (.field f)

/-- The words of a field are those that were given, unless they are blank. -/
theorem worded_iff {given : Option String} {name text : String} :
    Worded given name text ↔ text = (notBlank? given).getD name := by
  unfold Worded notBlank?
  rcases given with - | t
  · simp
  · by_cases ht : Text.isBlankText t = true
    · simp only [Option.some.injEq, Option.mem_def, forall_eq', ht, true_and]
      rw [Option.filter_some, if_neg (by simp [ht]), Option.getD_none]
      constructor
      · rintro (⟨rfl, hgiven⟩ | rfl)
        · rw [ht] at hgiven
          cases hgiven
        · rfl
      · exact .inr
    · rw [Bool.not_eq_true] at ht
      simp only [Option.some.injEq, Option.mem_def, forall_eq', ht]
      rw [Option.filter_some, if_pos (by simp [ht]), Option.getD_some]
      constructor
      · rintro (⟨rfl, -⟩ | ⟨hgiven, -⟩)
        · rfl
        · cases hgiven
      · rintro rfl
        exact .inl ⟨rfl, ht⟩

section

variable {v : Yaml.Value} {r : Yaml.Record}

/-- No two parts of a description share a name. -/
theorem distinct_description : description.Distinct := by
  decide

/-- A part of a description is the text under one of its names. -/
theorem text?_description {name : String} {others : List String}
    (hf : ⟨name, others, .optionalText, false⟩ ∈ description.fields)
    (h : description.read v = .ok r) : r.text? name = v.textUnder? (name :: others) :=
  Yaml.RecordType.text?_read distinct_description hf (.inr rfl) h

/-- The type of a field is the text under its name. -/
theorem text?_type (h : description.read v = .ok r) : r.text? "type" = v.textUnder? ["type"] :=
  text?_description (by simp [description]) h

/-- The prompt of a field is the text under its name. -/
theorem text?_prompt (h : description.read v = .ok r) :
    r.text? "prompt" = v.textUnder? ["prompt"] :=
  text?_description (by simp [description]) h

/-- The destination of a field is the text under one of its two names. -/
theorem text?_option (h : description.read v = .ok r) :
    r.text? "option" = v.textUnder? ["option", "destinationPath"] :=
  text?_description (by simp [description]) h

/-- The choices of a field are the scalars in its list. -/
theorem choicesOf_eq (h : description.read v = .ok r) :
    choicesOf r = (v.itemsUnder ["choices", "list"]).filterMap Yaml.Value.scalarText? := by
  have hitems := Yaml.RecordType.items_read distinct_description
    (f := ⟨"choices", ["list"], .optionalList, false⟩) (by simp [description]) rfl h
  exact congrArg (List.filterMap Yaml.Value.scalarText?) hitems

end

/-- The fate of an entry is one that is due to it. -/
theorem due_fateOf (entry : Yaml.Value × Yaml.Value) : Due entry (fateOf entry) := by
  obtain ⟨key, v⟩ := entry
  unfold fateOf
  cases hkey : key.scalarText? with
  | none => exact .unnamed hkey
  | some name =>
    unfold readField
    dsimp only
    cases hread : description.read v with
    | error e => exact .malformed hkey hread
    | ok r =>
      unfold fieldOf
      dsimp only
      cases hkind : kindOf r with
      | ok kind =>
        refine .usable hkey hread hkind ?_ ?_
        · rw [worded_iff, ← text?_prompt hread]
        · rw [worded_iff, ← text?_option hread]
      | error reason =>
        obtain ⟨word, hword, hfault⟩ := fault_of_kindOf hkind
        have hgiven := (text?_type hread).symm.trans hword
        rcases hfault with hnone | ⟨hchoice, hnone⟩
        · rw [kindOf_unsupported hword hnone] at hkind
          cases hkind
          exact .unsupported hkey hread hgiven hnone
        · rw [kindOf_choiceless hword hchoice hnone] at hkind
          cases hkind
          exact .choiceless hkey hread hgiven hchoice ((choicesOf_eq hread).symm.trans hnone)

/-- No other fate is due to an entry. -/
theorem Due.eq_fateOf {entry : Yaml.Value × Yaml.Value} {fate : Fate} (h : Due entry fate) :
    fate = fateOf entry := by
  unfold fateOf
  cases h with
  | unnamed hkey => rw [hkey]
  | malformed hkey hread => simp [hkey, readField, hread]
  | unsupported hkey hread hword hnone =>
    have hkind := kindOf_unsupported ((text?_type hread).trans hword) hnone
    simp [hkey, readField, hread, fieldOf, hkind, bind, Except.bind]
  | choiceless hkey hread hword hchoice hnone =>
    have hkind := kindOf_choiceless ((text?_type hread).trans hword) hchoice
      ((choicesOf_eq hread).trans hnone)
    simp [hkey, readField, hread, fieldOf, hkind, bind, Except.bind]
  | @usable key v r f hkey hread hkind hprompt hdestination =>
    have hfield : readField f.name v = .ok f := by
      rw [readField_eq_ok_iff]
      refine ⟨r, f.kind, hread, hkind, ?_⟩
      rw [text?_prompt hread, text?_option hread, ← worded_iff.mp hprompt,
        ← worded_iff.mp hdestination]
    simp [hkey, hfield]

/-! ## Partition -/

/-- A schema sorts the fates of entries, each of which has the one that is due to it. -/
structure Partitioned (entries : List (Yaml.Value × Yaml.Value)) (schema : Schema)
    (fates : List Fate) : Prop where
  due : List.Forall₂ Due entries fates
  /-- There is no other way to give the entries what is due to them. -/
  sole : ∀ others, List.Forall₂ Due entries others → others = fates
  fields : schema.fields = fates.filterMap Fate.field?
  skipped : schema.skipped = fates.filterMap Fate.aside?
  /-- No entry is lost, and none is there twice. -/
  complete : schema.fields.length + schema.skipped.length = entries.length

/-- Every entry has the fate that is due to it. -/
theorem due_fates (entries : List (Yaml.Value × Yaml.Value)) :
    List.Forall₂ Due entries (entries.map fateOf) := by
  rw [List.forall₂_map_right_iff, List.forall₂_same]
  exact fun entry _ => due_fateOf entry

/-- Nothing else is due to the entries. -/
theorem eq_map_fateOf {entries : List (Yaml.Value × Yaml.Value)} {fates : List Fate}
    (h : List.Forall₂ Due entries fates) : fates = entries.map fateOf := by
  induction h with
  | nil => rfl
  | cons hdue _ ih => rw [List.map_cons, ← hdue.eq_fateOf, ← ih]

/-- A schema puts the fates of its entries in order. -/
theorem partitioned_ofFates (entries : List (Yaml.Value × Yaml.Value)) :
    Partitioned entries (ofFates (entries.map fateOf)) (entries.map fateOf) where
  due := due_fates entries
  sole := fun _ h => eq_map_fateOf h
  fields := rfl
  skipped := rfl
  complete := by
    have hlength := Fate.length_filterMap (entries.map fateOf)
    rwa [List.length_map] at hlength

/-- A text that has something in it that is no mapping of fields: no document, or one whose root is
neither null nor a mapping. -/
def Unmapped (text : String) : Prop :=
  Text.isBlankText text = false ∧
    ((∃ e, Yaml.parse text = .error e) ∨
      ∃ root, Yaml.parse text = .ok root ∧ root ≠ .null ∧ ∀ entries, root ≠ .mapping entries)

/-- A document is no schema exactly if it is no mapping. -/
theorem read_eq_error_iff {text : String} :
    (∃ f, read text = .error f) ↔ Unmapped text := by
  unfold read Unmapped
  by_cases hblank : Text.isBlankText text = true
  · simp [hblank]
  · rw [if_neg hblank]
    cases hparse : Yaml.parse text with
    | error e => simp [hblank]
    | ok root => cases root <;> simp [hblank, ofValue]

/-- A document that says nothing is a schema without fields. -/
theorem read_empty {text : String}
    (h : Text.isBlankText text = true ∨ Yaml.parse text = .ok .null) : read text = .ok empty := by
  unfold read
  split
  · rfl
  · next hblank =>
    rw [h.resolve_left hblank]
    rfl

/-- Reading fails, as a retrieval, exactly on texts with something in them that is no mapping of
fields. Any other text writes a schema that partitions its entries, and an entry has the same fate in
all documents that have it, wherever it stands there and whatever stands beside it. -/
theorem read_partitioned (text : String) :
    ((∃ f, read text = .error f) ↔ Unmapped text) ∧
      (∀ f, read text = .error f → f.kind = .retrieval) ∧
      (Text.isBlankText text = true ∨ Yaml.parse text = .ok .null → read text = .ok empty) ∧
      ∀ schema, read text = .ok schema →
        ∃ fates, Partitioned (declared text) schema fates ∧
          ∀ other schema', read other = .ok schema' →
            ∃ fates', Partitioned (declared other) schema' fates' ∧
              ∀ (i j : Nat) (entry : Yaml.Value × Yaml.Value),
                (declared text)[i]? = some entry → (declared other)[j]? = some entry →
                  fates[i]? = fates'[j]? := by
  refine ⟨read_eq_error_iff, fun f hf => kind_of_read_error hf, read_empty, ?_⟩
  intro schema hread
  refine ⟨(declared text).map fateOf, ?_, ?_⟩
  · rw [eq_ofFates_of_read hread]
    exact partitioned_ofFates (declared text)
  · intro other schema' hother
    refine ⟨(declared other).map fateOf, ?_, ?_⟩
    · rw [eq_ofFates_of_read hother]
      exact partitioned_ofFates (declared other)
    · intro i j entry hi hj
      rw [List.getElem?_map, List.getElem?_map, hi, hj]

end Scaffolding.Schema
