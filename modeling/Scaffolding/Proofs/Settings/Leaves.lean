import Mathlib.Data.List.Nodup
import Scaffolding.Proofs.Settings.Shape

/-!
# Leaves

The leaves of settings are the values that are no objects, each with the keys that lead to it. Keys
lead to a value exactly when they are with it among the leaves, no two leaves have the same keys, and
the keys of a leaf are the keys of the dotted path through them. The rows of a summary are the leaves,
each with its path and its text.
-/

set_option autoImplicit false

namespace Scaffolding.Settings

mutual

/-- The values inside a value that are no objects, each with the keys that lead to it. -/
def leavesOf : Json → List (List String × Json)
  | .object members => leavesUnder members
  | v => [([], v)]

/-- The leaves of members, each with the key of its member in front. -/
def leavesUnder : List (String × Json) → List (List String × Json)
  | [] => []
  | (key, v) :: rest => (leavesOf v).map (fun leaf => (key :: leaf.1, leaf.2)) ++ leavesUnder rest

end

def leaves (s : Settings) : List (List String × Json) :=
  leavesUnder s.members

/-- What is no object is its own only leaf. -/
theorem leavesOf_leaf {v : Json} (h : IsLeaf v) : leavesOf v = [([], v)] := by
  rw [leavesOf]
  exact h

/-- The leaves of an object are those of its members. -/
theorem leavesOf_object (members : Members) : leavesOf (.object members) = leavesUnder members := by
  rw [leavesOf]

/-- The leaves of members are those of their values, each under its key. -/
theorem leavesUnder_eq_flatMap (members : Members) :
    leavesUnder members =
      members.flatMap fun m => (leavesOf m.2).map fun leaf => (m.1 :: leaf.1, leaf.2) := by
  induction members with
  | nil => rw [leavesUnder, List.flatMap_nil]
  | cons m rest ih => rw [leavesUnder, ih, List.flatMap_cons]

/-! ## Keys lead to leaves -/

/-- The value to which keys lead, from a value on. -/
def valueAt : List String → Json → Option Json
  | [], v => some v
  | key :: rest, .object members => (Members.find? key members).bind (valueAt rest)
  | _ :: _, _ => none

/-- Keys lead into the member under the first of them. -/
theorem getKeys_cons (key : String) (rest : List String) (members : Members) :
    getKeys (key :: rest) members = (members.find? key).bind (valueAt rest) := by
  induction rest generalizing key members with
  | nil =>
    rw [getKeys]
    cases members.find? key <;> rfl
  | cons next rest ih =>
    rw [getKeys]
    cases hfind : members.find? key with
    | none => rfl
    | some v =>
      cases v with
      | object inner => exact ih next inner
      | _ => rfl

/-- Among members with distinct keys, the first key of a leaf finds the member that it is under. -/
theorem mem_leavesUnder {members : Members} (hkeys : members.keys.Nodup) {keys : List String}
    {u : Json} :
    (keys, u) ∈ leavesUnder members ↔
      ∃ key rest v, keys = key :: rest ∧ members.find? key = some v ∧ (rest, u) ∈ leavesOf v := by
  rw [leavesUnder_eq_flatMap, List.mem_flatMap]
  constructor
  · rintro ⟨⟨key, v⟩, hm, hleaf⟩
    obtain ⟨⟨rest, w⟩, hw, heq⟩ := List.mem_map.mp hleaf
    cases heq
    exact ⟨key, rest, v, rfl, find?_of_mem hkeys hm, hw⟩
  · rintro ⟨key, rest, v, rfl, hfind, hleaf⟩
    exact ⟨(key, v), mem_of_find? hfind, List.mem_map.mpr ⟨(rest, u), hleaf, rfl⟩⟩

/-- In a grown value, keys lead to a value that is no object exactly if it is a leaf with them. -/
theorem mem_leavesOf {v : Json} (h : Grown v) (keys : List String) (u : Json) :
    (keys, u) ∈ leavesOf v ↔ IsLeaf u ∧ valueAt keys v = some u := by
  induction h generalizing keys with
  | @leaf v h =>
    rw [leavesOf_leaf h, List.mem_singleton, Prod.mk.injEq]
    constructor
    · rintro ⟨rfl, rfl⟩
      exact ⟨h, rfl⟩
    · rintro ⟨-, hat⟩
      cases keys with
      | nil =>
        cases hat
        exact ⟨rfl, rfl⟩
      | cons key rest =>
        cases v with
        | object members => exact absurd rfl (h members)
        | _ => cases hat
  | @object members hne hkeys hplain hvalues ih =>
    rw [leavesOf_object, mem_leavesUnder hkeys]
    constructor
    · rintro ⟨key, rest, v, rfl, hfind, hleaf⟩
      obtain ⟨hu, hat⟩ := (ih _ (mem_of_find? hfind) rest).mp hleaf
      refine ⟨hu, ?_⟩
      rw [valueAt, hfind]
      exact hat
    · rintro ⟨hu, hat⟩
      cases keys with
      | nil =>
        cases hat
        exact absurd rfl (hu members)
      | cons key rest =>
        rw [valueAt, Option.bind_eq_some_iff] at hat
        obtain ⟨v, hfind, hat⟩ := hat
        exact ⟨key, rest, v, rfl, hfind, (ih _ (mem_of_find? hfind) rest).mpr ⟨hu, hat⟩⟩

/-- Keys lead to a value that is no object exactly if it is a leaf with them. -/
theorem Shaped.mem_leaves {s : Settings} (h : Shaped s) (keys : List String) (u : Json) :
    (keys, u) ∈ s.leaves ↔ IsLeaf u ∧ getKeys keys s.members = some u := by
  rw [leaves, mem_leavesUnder h.keys]
  constructor
  · rintro ⟨key, rest, v, rfl, hfind, hleaf⟩
    obtain ⟨hu, hat⟩ := (mem_leavesOf (h.values _ (mem_of_find? hfind)) rest u).mp hleaf
    refine ⟨hu, ?_⟩
    rw [getKeys_cons, hfind]
    exact hat
  · rintro ⟨hu, hget⟩
    cases keys with
    | nil => cases hget
    | cons key rest =>
      rw [getKeys_cons, Option.bind_eq_some_iff] at hget
      obtain ⟨v, hfind, hat⟩ := hget
      have hv : Grown v := h.values _ (mem_of_find? hfind)
      exact ⟨key, rest, v, rfl, hfind, (mem_leavesOf hv rest u).mpr ⟨hu, hat⟩⟩

/-! ## The keys of leaves -/

/-- Leaves of members with distinct keys have distinct keys if those of each member have. -/
theorem nodup_leavesUnder {members : Members} (hkeys : members.keys.Nodup)
    (h : ∀ m ∈ members, ((leavesOf m.2).map Prod.fst).Nodup) :
    ((leavesUnder members).map Prod.fst).Nodup := by
  induction members with
  | nil => simp [leavesUnder]
  | cons m rest ih =>
    obtain ⟨key, v⟩ := m
    obtain ⟨hnew, hrest⟩ := List.nodup_cons.mp hkeys
    have hv : ((leavesOf v).map Prod.fst).Nodup := h (key, v) List.mem_cons_self
    have hprefixed : ((leavesOf v).map fun leaf => key :: leaf.1).Nodup := by
      have hmap := hv.map (List.cons_injective (a := key))
      rwa [List.map_map] at hmap
    rw [leavesUnder, List.map_append, List.map_map, List.nodup_append]
    refine ⟨hprefixed, ih hrest fun m hm => h m (List.mem_cons_of_mem _ hm), ?_⟩
    intro keys hfirst others hother heq
    obtain ⟨leaf, -, rfl⟩ := List.mem_map.mp hfirst
    obtain ⟨⟨_, u⟩, hleaf, rfl⟩ := List.mem_map.mp hother
    obtain ⟨other, _, w, hkeys', hfind, -⟩ := (mem_leavesUnder hrest).mp hleaf
    -- the first key is both the new one and one of the others
    have hsame : key = other := (List.cons.inj (heq.trans hkeys')).1
    rw [← hsame] at hfind
    exact hnew (List.mem_map.mpr ⟨(key, w), mem_of_find? hfind, rfl⟩)

/-- No two leaves of a value are reached by the same keys. -/
theorem nodup_leavesOf {v : Json} (h : Grown v) : ((leavesOf v).map Prod.fst).Nodup := by
  induction h with
  | leaf h => simp [leavesOf_leaf h]
  | object hne hkeys hplain hvalues ih =>
    rw [leavesOf_object]
    exact nodup_leavesUnder hkeys ih

/-- Nor are two leaves of settings. -/
theorem Shaped.nodup_leaves {s : Settings} (h : Shaped s) : (s.leaves.map Prod.fst).Nodup :=
  nodup_leavesUnder h.keys fun m hm => nodup_leavesOf (h.values m hm)

/-- The keys that lead to a leaf are plain. -/
theorem plain_of_mem_leavesOf {v : Json} (h : Grown v) {keys : List String} {u : Json}
    (hleaf : (keys, u) ∈ leavesOf v) : ∀ key ∈ keys, PlainKey key := by
  induction h generalizing keys with
  | leaf h =>
    rw [leavesOf_leaf h, List.mem_singleton] at hleaf
    cases hleaf
    simp
  | object hne hkeys hplain hvalues ih =>
    rw [leavesOf_object, mem_leavesUnder hkeys] at hleaf
    obtain ⟨key, rest, v, rfl, hfind, hrest⟩ := hleaf
    have hm := mem_of_find? hfind
    exact List.forall_mem_cons.mpr ⟨hplain _ hm, ih _ hm hrest⟩

/-- The path of a leaf is read as the keys that lead to it. -/
theorem Shaped.pathKeys_leaf {s : Settings} (h : Shaped s) {keys : List String} {u : Json}
    (hleaf : (keys, u) ∈ s.leaves) : pathKeys (dotted keys) = keys := by
  obtain ⟨key, rest, v, rfl, hfind, hrest⟩ := (mem_leavesUnder h.keys).mp hleaf
  have hm := mem_of_find? hfind
  have hplain := plain_of_mem_leavesOf (h.values _ hm) hrest
  obtain ⟨hpath, hkey | hv⟩ := h.paths _ hm
  · exact pathKeys_dotted (by simp) (List.forall_mem_cons.mpr ⟨hkey, hplain⟩)
  · -- a key that need not be plain leads to the leaf by itself
    have hrest : rest = [] := by
      rw [leavesOf_leaf hv, List.mem_singleton] at hrest
      exact (Prod.mk.inj hrest).1
    rw [hrest, dotted_singleton]
    exact hpath

/-! ## Rows -/

/-- The rows of members are those of their values, each below its key. -/
theorem rowsUnder_eq_flatMap (path : String) (members : Members) :
    rowsUnder path members = members.flatMap fun m => rowsOf (joinKey path m.1) m.2 := by
  induction members with
  | nil => rw [rowsUnder, List.flatMap_nil]
  | cons m rest ih => rw [rowsUnder, ih, List.flatMap_cons]

/-- What is no object has one row. -/
theorem rowsOf_leaf {v : Json} (h : IsLeaf v) (path : String) :
    rowsOf path v = [(path, display v)] := by
  cases v with
  | object members => exact absurd rfl (h members)
  | _ => rw [rowsOf]

/-- A key is joined to the keys above it with a dot. -/
theorem joinKey_dotted {above : List String} (hne : above ≠ [])
    (hplain : ∀ key ∈ above, PlainKey key) (key : String) :
    joinKey (dotted above) key = dotted (above ++ [key]) := by
  have hpath : (dotted above).isEmpty = false := by
    simpa using dotted_ne_empty hne hplain
  rw [joinKey, hpath, dotted_append_singleton hne]
  rfl

/-- A leaf as a row, under the keys above it. -/
def rowOf (above : List String) (leaf : List String × Json) : String × String :=
  (dotted (above ++ leaf.1), display leaf.2)

/-- Below plain keys, the rows of a grown value are its leaves. -/
theorem rowsOf_eq {v : Json} (h : Grown v) {above : List String} (hne : above ≠ [])
    (hplain : ∀ key ∈ above, PlainKey key) :
    rowsOf (dotted above) v = (leavesOf v).map (rowOf above) := by
  induction h generalizing above with
  | leaf h => simp [rowsOf_leaf h, leavesOf_leaf h, rowOf]
  | @object members hmembers hkeys hkeysPlain hvalues ih =>
    rw [rowsOf, rowsUnder_eq_flatMap, leavesOf_object, leavesUnder_eq_flatMap, List.map_flatMap]
    apply List.flatMap_congr
    intro m hm
    have habove : ∀ key ∈ above ++ [m.1], PlainKey key := by
      intro key hkey
      rcases List.mem_append.mp hkey with hkey | hkey
      · exact hplain key hkey
      · rw [List.mem_singleton.mp hkey]
        exact hkeysPlain m hm
    rw [joinKey_dotted hne hplain, ih m hm (by simp) habove, List.map_map]
    apply List.map_congr_left
    intro leaf _
    simp [rowOf]

/-- The rows of a summary are the leaves, in order. -/
theorem Shaped.rows_eq {s : Settings} (h : Shaped s) : s.rows = s.leaves.map (rowOf []) := by
  rw [rows, rowsUnder_eq_flatMap, leaves, leavesUnder_eq_flatMap, List.map_flatMap]
  apply List.flatMap_congr
  intro m hm
  have hjoin : joinKey "" m.1 = dotted [m.1] := by
    rw [dotted_singleton]
    rfl
  have hrows : rowsOf (dotted [m.1]) m.2 = (leavesOf m.2).map (rowOf [m.1]) := by
    rcases (h.paths m hm).2 with hkey | hv
    · exact rowsOf_eq (h.values m hm) (by simp) (by simpa using hkey)
    · simp [rowsOf_leaf hv, leavesOf_leaf hv, rowOf]
  rw [hjoin, hrows, List.map_map]
  rfl

/-- The rows of settings are the paths of leaves with the texts for them. -/
theorem Shaped.mem_rows {s : Settings} (h : Shaped s) (path text : String) :
    (path, text) ∈ s.rows ↔ ∃ v, s.get? path = some v ∧ IsLeaf v ∧ text = display v := by
  rw [h.rows_eq, List.mem_map]
  constructor
  · rintro ⟨⟨keys, v⟩, hleaf, heq⟩
    simp only [rowOf, List.nil_append, Prod.mk.injEq] at heq
    obtain ⟨rfl, rfl⟩ := heq
    obtain ⟨hv, hget⟩ := (h.mem_leaves keys v).mp hleaf
    refine ⟨v, ?_, hv, rfl⟩
    rw [get?, h.pathKeys_leaf hleaf, hget]
  · rintro ⟨v, hget, hv, rfl⟩
    refine ⟨(pathKeys path, v), (h.mem_leaves _ v).mpr ⟨hv, hget⟩, ?_⟩
    rw [rowOf, List.nil_append, dotted_pathKeys]

/-- No path has two rows. -/
theorem Shaped.nodup_paths {s : Settings} (h : Shaped s) : (s.rows.map Prod.fst).Nodup := by
  have hpaths : s.rows.map Prod.fst = (s.leaves.map Prod.fst).map dotted := by
    rw [h.rows_eq, List.map_map, List.map_map]
    rfl
  rw [hpaths]
  apply h.nodup_leaves.map_on
  intro keys hkeys others hothers heq
  obtain ⟨⟨_, u⟩, hu, rfl⟩ := List.mem_map.mp hkeys
  obtain ⟨⟨_, w⟩, hw, rfl⟩ := List.mem_map.mp hothers
  calc _ = pathKeys (dotted _) := (h.pathKeys_leaf hu).symm
    _ = pathKeys (dotted _) := by rw [heq]
    _ = _ := h.pathKeys_leaf hw

end Scaffolding.Settings
