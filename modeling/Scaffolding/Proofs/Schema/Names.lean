import Scaffolding.Proofs.Schema.Choice
import Scaffolding.Proofs.Schema.Interview
import Scaffolding.Proofs.Schema.Partition
import Scaffolding.Proofs.Yaml.Keys

/-!
# Names of fields

A field is named by the text of its key, and it is this name that stands for a path that an entry does
not give. The keys of a document are distinct, but a text key and a number or a boolean may have the
same text. Where they both write fields, two fields share a name, and the answer to the second one
takes the place of the first. Nothing else makes fields share a name.
-/

set_option autoImplicit false

namespace Scaffolding.Schema

open Yaml (Homonyms DistinctKeys)

/-- The entries of a document that write fields. -/
def written (text : String) : List (Yaml.Value × Yaml.Value) :=
  (declared text).filter fun entry => (entryField? entry).isSome

/-- An entry that gives no path to put its value at, or a blank one. -/
def isUndirected (entry : Yaml.Value × Yaml.Value) : Bool :=
  (notBlank? (entry.2.textUnder? ["option", "destinationPath"])).isNone

/-- No two entries of a document have the same key. -/
theorem distinctKeys_declared (text : String) : DistinctKeys (declared text) := by
  unfold declared
  split
  · exact .nil
  · split
    · next hparse => exact Yaml.distinctKeys_of_parse hparse
    · exact .nil

/-- A field has the text of its key for a name, and for a path as well if the entry gives none. -/
theorem named_of_entryField? {entry : Yaml.Value × Yaml.Value} {f : Field}
    (h : entryField? entry = some f) : entry.1.scalarText? = some f.name ∧
      (isUndirected entry = true → f.destination = f.name) := by
  obtain ⟨name, hname, hfield⟩ := Option.bind_eq_some_iff.mp h
  obtain ⟨r, kind, hr, -, rfl⟩ := readField_eq_ok_iff.mp (toOption_eq_some_iff.mp hfield)
  refine ⟨hname, ?_⟩
  intro hundirected
  dsimp only
  rw [text?_option hr, Option.isNone_iff_eq_none.mp hundirected, Option.getD_none]

section

variable {entries : List (Yaml.Value × Yaml.Value)}

/-- What fields take from the text of their keys is distinct if no two keys have one text. -/
theorem nodup_labels_iff (hdistinct : DistinctKeys entries)
    (hfields : ∀ e ∈ entries, (entryField? e).isSome) {label : Field → String}
    (hlabel : ∀ e ∈ entries, ∀ f, entryField? e = some f → e.1.scalarText? = some (label f)) :
    ((entries.filterMap entryField?).map label).Nodup ↔
      ∀ a ∈ entries, ∀ b ∈ entries, ¬ Homonyms a.1 b.1 := by
  have htexts : ((entries.filterMap entryField?).map label).map some =
      entries.map fun e => e.1.scalarText? := by
    rw [List.map_map, List.map_filterMap, List.filterMap_eq_map_iff_forall_eq_some]
    intro e he
    obtain ⟨f, hf⟩ := Option.isSome_iff_exists.mp (hfields e he)
    rw [hlabel e he f hf, hf]
    rfl
  have hscalar : ∀ e ∈ entries, e.1.scalarText?.isSome := by
    intro e he
    obtain ⟨f, hf⟩ := Option.isSome_iff_exists.mp (hfields e he)
    rw [hlabel e he f hf]
    rfl
  rw [← hdistinct.nodup_texts_iff hscalar, ← htexts,
    List.nodup_map_iff (Option.some_injective String)]

end

/-! ## Schemas -/

/-- What the keys of a document make of the names of its fields. -/
structure Naming (text : String) (schema : Schema) : Prop where
  fields : schema.fields = (written text).filterMap entryField?
  /-- The names are distinct unless two of the keys are homonyms. -/
  names : (schema.fields.map Field.name).Nodup ↔
    ∀ a ∈ written text, ∀ b ∈ written text, ¬ Homonyms a.1 b.1
  /-- So are the paths of the fields for which no path is given. -/
  destinations : ((((written text).filter isUndirected).filterMap entryField?).map
      Field.destination).Nodup ↔
    ∀ a ∈ (written text).filter isUndirected, ∀ b ∈ (written text).filter isUndirected,
      ¬ Homonyms a.1 b.1
  /-- Of two answers with one path, the later one is kept. -/
  overwritten : ∀ world s settings, (outcome schema.collect world s).1 = .ok settings →
    ∀ earlier f v between g w later,
      fillings world s.events schema.fields =
        earlier ++ (f, some v) :: (between ++ (g, some w) :: later) →
      f.destination = g.destination →
      (∀ h u, (h, some u) ∈ later → Settings.Apart h.destination g.destination) →
        settings.get? f.destination = some w

/-- The fields of a schema have the names that the keys of its document write, in their order; two
fields share a name only if two keys of different kinds write it. -/
theorem naming_of_read {text : String} {schema : Schema} (hread : read text = .ok schema) :
    Naming text schema := by
  have hfields : schema.fields = (written text).filterMap entryField? := by
    rw [fields_read hread, written, List.filterMap_filter]
    congr 1
    funext entry
    cases hentry : entryField? entry <;> simp
  have hwritten : ∀ e ∈ written text, (entryField? e).isSome := by
    intro e he
    exact (List.mem_filter.mp he).2
  have hdistinct : DistinctKeys (written text) := (distinctKeys_declared text).filter _
  refine ⟨hfields, ?names, ?destinations, ?overwritten⟩
  case names =>
    rw [hfields]
    exact nodup_labels_iff hdistinct hwritten fun e _ f hf => (named_of_entryField? hf).1
  case destinations =>
    refine nodup_labels_iff (hdistinct.filter _) ?_ ?_
    · intro e he
      exact hwritten e (List.mem_of_mem_filter he)
    · intro e he f hf
      obtain ⟨hname, hdestination⟩ := named_of_entryField? hf
      rw [hname, hdestination (List.mem_filter.mp he).2]
  case overwritten =>
    intro world s settings hsettings earlier f v between g w later hfilled hpath hlater
    obtain ⟨-, rfl⟩ := (outcome_collect_eq_ok_iff schema settings).mp hsettings
    have hkept := kept_putAll fun p (hp : p ∈ puts (fillings world s.events schema.fields)) =>
      isLeaf_of_mem_puts hp
    rw [hpath]
    refine hkept.last (earlier ++ (f, some v) :: between) g w later ?_ hlater
    rw [hfilled, List.append_assoc, List.cons_append]

/-- A document with two keys of one text, a number and a text. -/
def doubled : String :=
  "1: {}\n\"1\": {}\n"

/-- The two fields that it writes. -/
def twins : Schema where
  fields := [⟨"1", .text none, "1", "1"⟩, ⟨"1", .text none, "1", "1"⟩]
  skipped := []

/-- A user whose first answer is one text and every later one another. -/
def fickle : World :=
  { World.steady "" fun _ => none with
    ask := fun
      | [], .input .. => .ok (some "first")
      | _, .input .. => .ok (some "second")
      | _, _ => .ok none }

/-- The document with a doubled name reads as two fields of that name. -/
theorem read_doubled : read doubled = .ok twins := by
  rw [← toOption_eq_some_iff]
  decide +kernel

/-- Two keys that write one name make two fields of it. -/
theorem naming_of_read_doubled : read doubled = .ok twins ∧ Naming doubled twins :=
  ⟨read_doubled, naming_of_read read_doubled⟩

/-- Its fields share their name, and the first answer is lost. -/
theorem doubled_loses_answer :
    read doubled = .ok twins ∧ ¬ (twins.fields.map Field.name).Nodup ∧
      fillings fickle [] twins.fields =
        [(⟨"1", .text none, "1", "1"⟩, some (.string "first")),
          (⟨"1", .text none, "1", "1"⟩, some (.string "second"))] ∧
      (outcome twins.collect fickle ⟨[], default⟩).1.toOption.map Settings.toJson =
        some (.object [("1", .string "second")]) :=
  ⟨read_doubled, by decide, rfl, rfl⟩

end Scaffolding.Schema
