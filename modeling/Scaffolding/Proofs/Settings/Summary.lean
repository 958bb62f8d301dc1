import Scaffolding.Proofs.Schema.Filling
import Scaffolding.Proofs.Settings.Leaves

/-!
# Summaries show settings as they are

Settings are made by putting values that are no objects at paths, whatever the paths are. A summary of
such settings has one row for each value that a path leads to and that is no object, with this path
and the text of the value, and it has no other rows. Settings that are collected for a schema are made
in this way, so what the user is shown is what is built.
-/

set_option autoImplicit false

namespace Scaffolding.Settings

/-- A summary shows settings as they are. An object inside a list belongs to the list. -/
structure Summarized (s : Settings) : Prop where
  /-- Keys never lead to an empty object. -/
  inhabited : ∀ keys inner, getKeys keys s.members = some (.object inner) → inner ≠ []
  /-- No path has two rows. -/
  distinct : (s.rows.map Prod.fst).Nodup
  /-- The path of a row leads to a value that is no object, and the row has its text. -/
  sound : ∀ path text, (path, text) ∈ s.rows →
    ∃ v, s.get? path = some v ∧ IsLeaf v ∧ text = display v
  /-- If a path leads to a value that is no object, there is a row for it. -/
  complete : ∀ path v, s.get? path = some v → IsLeaf v → (path, display v) ∈ s.rows

/-- Settings in good shape are summarized by their rows. -/
theorem Shaped.summarized {s : Settings} (h : Shaped s) : Summarized s where
  inhabited := by
    intro keys inner hget
    exact (grown_getKeys h.values hget).growing.1
  distinct := h.nodup_paths
  sound := by
    intro path text hrow
    exact (h.mem_rows path text).mp hrow
  complete := by
    intro path v hget hv
    exact (h.mem_rows path (display v)).mpr ⟨v, hget, hv, rfl⟩

/-- Values that are no objects, put at any paths and in any order, make settings that a summary shows
as they are; and the settings that are collected for a schema, whatever the answers are, are made by
putting such values. -/
theorem putAll_summarized :
    (∀ puts : List (String × Json), (∀ p ∈ puts, IsLeaf p.2) →
        Summarized (Settings.empty.putAll puts)) ∧
      ∀ (schema : Schema) (world : World) (s : Session) (settings : Settings),
        (outcome schema.collect world s).1 = .ok settings →
          ∃ puts : List (String × Json), (∀ p ∈ puts, IsLeaf p.2) ∧
            settings = Settings.empty.putAll puts := by
  constructor
  · intro puts hputs
    exact (shaped_empty.putAll hputs).summarized
  · intro schema world s settings hcollect
    obtain ⟨-, hsettings⟩ := (Schema.outcome_collect_eq_ok_iff schema settings).mp hcollect
    exact ⟨_, fun p hp => Schema.isLeaf_of_mem_puts hp, hsettings⟩

/-- Values put at the empty path, at paths with empty parts, and at paths in each other's way. -/
def entangled : List (String × Json) :=
  [("", .null), ("a..b", .string "x"), ("a", .string "y"), ("a.b", .bool true), (".a", .array []),
    ("a.b.c", .array [.object []]), ("a.d", .bool false), ("", .string "z")]

/-- A schema with a field for a text and a field for one of two choices, at paths in each other's
way. -/
def entangledSchema : Schema where
  fields := [⟨"name", .text none, "name", "a"⟩, ⟨"kind", .oneOf ["x", "y"] (some "y"), "kind", "a.b"⟩]
  skipped := []

/-- Entangled puts are summarized, and so is what a schema with entangled destinations collects. -/
theorem putAll_summarized_entangled :
    (∀ p ∈ entangled, IsLeaf p.2) ∧ Summarized (Settings.empty.putAll entangled) ∧
      (outcome entangledSchema.collect (.steady "" fun _ => none) ⟨[], default⟩).1 =
        .ok (Settings.empty.putAll [("a", .string ""), ("a.b", .string "y")]) ∧
      ∃ puts : List (String × Json), (∀ p ∈ puts, IsLeaf p.2) ∧
        Settings.empty.putAll [("a", .string ""), ("a.b", .string "y")] =
          Settings.empty.putAll puts := by
  have hputs : ∀ p ∈ entangled, IsLeaf p.2 := by
    simp [entangled, IsLeaf]
  have hcollect : (outcome entangledSchema.collect (.steady "" fun _ => none) ⟨[], default⟩).1 =
      .ok (Settings.empty.putAll [("a", .string ""), ("a.b", .string "y")]) := rfl
  exact ⟨hputs, putAll_summarized.1 entangled hputs, hcollect,
    putAll_summarized.2 entangledSchema _ _ _ hcollect⟩

end Scaffolding.Settings
