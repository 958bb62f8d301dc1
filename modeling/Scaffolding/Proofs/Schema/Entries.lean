import Scaffolding.Schema.Reader

/-!
# What becomes of the entries of a schema

Reading a schema goes through the entries of its document and adds each of them to the fields or to
what is kept aside. Here an entry has a fate of its own, told from its key and its value alone, and
the schema is the fates of all entries, sorted.
-/

set_option autoImplicit false

namespace Scaffolding.Schema

/-- The field that a description writes under a name: of the kind that it gives, or none. -/
theorem readField_eq_ok_iff {name : String} {v : Yaml.Value} {f : Field} :
    readField name v = .ok f ↔
      ∃ r kind, description.read v = .ok r ∧ kindOf r = .ok kind ∧
        f = ⟨name, kind, (notBlank? (r.text? "prompt")).getD name,
          (notBlank? (r.text? "option")).getD name⟩ := by
  unfold readField
  cases hr : description.read v with
  | error e => simp
  | ok r =>
    cases hkind : kindOf r with
    | error reason => simp [fieldOf, hkind, bind, Except.bind]
    | ok kind => simp [fieldOf, hkind, bind, Except.bind, pure, Except.pure, eq_comm]

/-! ## Fates -/

/-- What becomes of an entry: it is a field, or its name is kept aside with a reason. -/
inductive Fate
  | field (f : Field)
  | aside (name reason : String)

namespace Fate

def field? : Fate → Option Field
  | field f => some f
  | aside .. => none

def aside? : Fate → Option (String × String)
  | field _ => none
  | aside name reason => some (name, reason)

/-- Every fate is of one of the two sorts. -/
theorem length_filterMap (fates : List Fate) :
    (fates.filterMap field?).length + (fates.filterMap aside?).length = fates.length := by
  induction fates with
  | nil => rfl
  | cons fate fates ih =>
    cases fate <;> simp [List.filterMap_cons, field?, aside?] <;> omega

end Fate

/-- What becomes of an entry as it is read. -/
def fateOf (entry : Yaml.Value × Yaml.Value) : Fate :=
  match entry.1.scalarText? with
  | none => .aside "<non-scalar key>" "field names must be scalars"
  | some name =>
    match readField name entry.2 with
    | .ok f => .field f
    | .error reason => .aside name reason

def ofFates (fates : List Fate) : Schema :=
  ⟨fates.filterMap Fate.field?, fates.filterMap Fate.aside?⟩

/-- An entry adds the field or the skipped name of its fate. -/
theorem addEntry_eq (s : Schema) (entry : Yaml.Value × Yaml.Value) :
    addEntry s entry =
      ⟨s.fields ++ (fateOf entry).field?.toList, s.skipped ++ (fateOf entry).aside?.toList⟩ := by
  unfold addEntry fateOf
  cases entry.1.scalarText? with
  | none => simp [addSkipped, Fate.field?, Fate.aside?]
  | some name =>
    dsimp only
    cases readField name entry.2 <;> simp [addField, addSkipped, Fate.field?, Fate.aside?]

/-- Entries add those of their fates, in order. -/
theorem foldl_addEntry (entries : List (Yaml.Value × Yaml.Value)) (s : Schema) :
    entries.foldl addEntry s =
      ⟨s.fields ++ (ofFates (entries.map fateOf)).fields,
        s.skipped ++ (ofFates (entries.map fateOf)).skipped⟩ := by
  induction entries generalizing s with
  | nil => simp [ofFates]
  | cons entry entries ih =>
    rw [List.foldl_cons, ih, addEntry_eq]
    cases hfate : fateOf entry <;>
      simp [ofFates, List.filterMap_cons, hfate, Fate.field?, Fate.aside?]

/-! ## Documents -/

/-- The entries of a document for a schema; a blank document has none. -/
def declared (text : String) : List (Yaml.Value × Yaml.Value) :=
  if Text.isBlankText text then []
  else
    match Yaml.parse text with
    | .ok (.mapping entries) => entries
    | _ => []

/-- A document that writes no schema is a failure about the document, not about the credential. -/
theorem kind_of_read_error {text : String} {f : Failure} (h : read text = .error f) :
    f.kind = .retrieval := by
  unfold read at h
  split at h
  · cases h
  · split at h
    · unfold ofValue at h
      split at h <;> cases h
      rfl
    · cases h
      rfl

/-- A schema that was read is the fates of the entries of its document, sorted. -/
theorem eq_ofFates_of_read {text : String} {schema : Schema} (h : read text = .ok schema) :
    schema = ofFates ((declared text).map fateOf) := by
  unfold read at h
  unfold declared
  split at h
  · next hblank =>
    cases h
    rw [if_pos hblank]
    rfl
  · next hblank =>
    rw [if_neg hblank]
    cases hparse : Yaml.parse text with
    | error e =>
      rw [hparse] at h
      cases h
    | ok v =>
      rw [hparse] at h
      cases v with
      | null =>
        cases h
        rfl
      | mapping entries =>
        cases h
        exact foldl_addEntry entries empty
      | _ => cases h

end Scaffolding.Schema
