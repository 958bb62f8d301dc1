import Scaffolding.Proofs.Settings.Path

/-!
# The shape of settings

Settings are made by putting values that are no objects at paths, one after the other. What holds of
all of them: the keys of an object are distinct; no object below a key is empty; and the keys of such
an object, as well as the key that leads to it, are plain. A key that is not plain stands at the top,
leads to a value that is no object, and is a path of its own.

One put keeps this, whether it adds a member, replaces one, or puts an object where a value was.
-/

set_option autoImplicit false

namespace Scaffolding.Settings

/-- A value that is no object. -/
def IsLeaf (v : Json) : Prop :=
  ∀ members, v ≠ .object members

/-- A value below a key: no object, or an object with members under distinct plain keys, and with
such values again. -/
inductive Grown : Json → Prop
  | leaf {v : Json} (h : IsLeaf v) : Grown v
  | object {members : Members} (hne : members ≠ []) (hkeys : members.keys.Nodup)
      (hplain : ∀ m ∈ members, PlainKey m.1) (hvalues : ∀ m ∈ members, Grown m.2) :
      Grown (.object members)

/-- The members of an object below a key, before the first one or after it. -/
structure Growing (members : Members) : Prop where
  keys : members.keys.Nodup
  plain : ∀ m ∈ members, PlainKey m.1
  values : ∀ m ∈ members, Grown m.2

/-- Settings as they come out of puts: no key comes twice, and the values are in good shape. -/
structure Shaped (s : Settings) : Prop where
  keys : s.members.keys.Nodup
  values : ∀ m ∈ s.members, Grown m.2
  /-- A key is a path, and a plain one if it leads to an object. -/
  paths : ∀ m ∈ s.members, pathKeys m.1 = [m.1] ∧ (PlainKey m.1 ∨ IsLeaf m.2)

/-- No members have nothing wrong with them. -/
theorem growing_nil : Growing [] :=
  ⟨List.nodup_nil, by simp, by simp⟩

/-- An object in good shape has members, and they are in good shape. -/
theorem Grown.growing {members : Members} (h : Grown (.object members)) :
    members ≠ [] ∧ Growing members := by
  cases h with
  | leaf h => exact absurd rfl (h members)
  | object hne hkeys hplain hvalues => exact ⟨hne, hkeys, hplain, hvalues⟩

/-- Members in good shape make an object that is, unless there are none. -/
theorem Growing.grown {members : Members} (h : Growing members) (hne : members ≠ []) :
    Grown (.object members) :=
  .object hne h.keys h.plain h.values

/-! ## Members -/

/-- What is found under a key is a member. -/
theorem mem_of_find? {key : String} {v : Json} {members : Members}
    (h : members.find? key = some v) : (key, v) ∈ members := by
  induction members with
  | nil => cases h
  | cons m rest ih =>
    obtain ⟨k, w⟩ := m
    by_cases hk : k = key
    · rw [Members.find?, if_pos hk] at h
      cases h
      rw [hk]
      exact List.mem_cons_self
    · rw [Members.find?, if_neg hk] at h
      exact List.mem_cons_of_mem _ (ih h)

/-- Among distinct keys, every member is the one that its key finds. -/
theorem find?_of_mem {key : String} {v : Json} {members : Members} (hkeys : members.keys.Nodup)
    (h : (key, v) ∈ members) : members.find? key = some v := by
  induction members with
  | nil => simp at h
  | cons m rest ih =>
    obtain ⟨k, w⟩ := m
    obtain ⟨hnew, hrest⟩ := List.nodup_cons.mp hkeys
    rcases List.mem_cons.mp h with hm | hm
    · cases hm
      rw [Members.find?, if_pos rfl]
    · have hk : k ≠ key := by
        rintro rfl
        exact hnew (List.mem_map.mpr ⟨(k, v), hm, rfl⟩)
      rw [Members.find?, if_neg hk]
      exact ih hrest hm

/-- A member after a put is the one that was put, or was there before. -/
theorem mem_put {key : String} {v : Json} {members : Members} {m : String × Json}
    (h : m ∈ members.put key v) : m = (key, v) ∨ m ∈ members := by
  induction members with
  | nil => simpa [Members.put] using h
  | cons first rest ih =>
    obtain ⟨k, w⟩ := first
    by_cases hk : k = key
    · rw [Members.put, if_pos hk, hk] at h
      rcases List.mem_cons.mp h with h | h
      · exact .inl h
      · exact .inr (List.mem_cons_of_mem _ h)
    · rw [Members.put, if_neg hk] at h
      rcases List.mem_cons.mp h with h | h
      · exact .inr (h ▸ List.mem_cons_self)
      · exact (ih h).imp_right (List.mem_cons_of_mem _)

/-- What holds of all members, and of a new one, holds of all members with the new one put in. -/
theorem forall_mem_put {motive : String × Json → Prop} {key : String} {v : Json}
    {members : Members} (hmembers : ∀ m ∈ members, motive m) (hnew : motive (key, v)) :
    ∀ m ∈ members.put key v, motive m := by
  intro m hm
  rcases mem_put hm with rfl | hm
  · exact hnew
  · exact hmembers m hm

/-- After a put there is a member. -/
theorem put_ne_nil (key : String) (v : Json) (members : Members) : members.put key v ≠ [] := by
  cases members with
  | nil => simp [Members.put]
  | cons m rest =>
    rw [Members.put]
    split <;> simp

/-- A put keeps the keys apart. -/
theorem nodup_keys_put {members : Members} (h : members.keys.Nodup) (key : String) (v : Json) :
    (members.put key v).keys.Nodup := by
  rw [Members.keys_put]
  split
  · exact h
  · next hnew =>
    rw [List.nodup_append]
    refine ⟨h, by simp, ?_⟩
    intro k hk other hother heq
    rw [List.mem_singleton.mp hother] at heq
    exact hnew (heq ▸ hk)

/-- A put of a value in good shape under a plain key keeps the members so. -/
theorem Growing.put {members : Members} (h : Growing members) {key : String} (hkey : PlainKey key)
    {v : Json} (hv : Grown v) : Growing (members.put key v) where
  keys := nodup_keys_put h.keys key v
  plain := forall_mem_put h.plain hkey
  values := forall_mem_put h.values hv

/-- The members to go on with below a key are those of a grown object, or none. -/
theorem growing_membersAt {members : Members} (h : ∀ m ∈ members, Grown m.2) (key : String) :
    Growing (membersAt members key) := by
  unfold membersAt
  split
  · next inner hfind => exact (h _ (mem_of_find? hfind)).growing.2
  · exact growing_nil

/-! ## Putting values -/

/-- Putting a value under plain keys makes an object that is grown. -/
theorem growing_putKeys {value : Json} (hvalue : IsLeaf value) {keys : List String}
    (hne : keys ≠ []) (hplain : ∀ key ∈ keys, PlainKey key) {members : Members}
    (h : Growing members) :
    putKeys value keys members ≠ [] ∧ Growing (putKeys value keys members) := by
  induction keys generalizing members with
  | nil => exact absurd rfl hne
  | cons key rest ih =>
    obtain ⟨hkey, hrest⟩ := List.forall_mem_cons.mp hplain
    cases rest with
    | nil =>
      rw [putKeys]
      exact ⟨put_ne_nil key value members, h.put hkey (.leaf hvalue)⟩
    | cons next rest =>
      obtain ⟨hinner, hgrowing⟩ := ih (by simp) hrest (growing_membersAt h.values key)
      rw [putKeys]
      exact ⟨put_ne_nil key _ members, h.put hkey (hgrowing.grown hinner)⟩

/-- Settings without anything in them are in good shape. -/
theorem shaped_empty : Shaped .empty :=
  ⟨List.nodup_nil, by simp [Settings.empty], by simp [Settings.empty]⟩

/-- A put at the top keeps the shape if its key is a path, and a plain one above an object. -/
theorem Shaped.put_member {s : Settings} (h : Shaped s) {key : String} {v : Json} (hv : Grown v)
    (hpath : pathKeys key = [key] ∧ (PlainKey key ∨ IsLeaf v)) :
    Shaped ⟨s.members.put key v⟩ where
  keys := nodup_keys_put h.keys key v
  values := forall_mem_put h.values hv
  paths := forall_mem_put h.paths hpath

/-- Putting a leaf keeps settings in good shape. -/
theorem Shaped.put {s : Settings} (h : Shaped s) (path : String) {value : Json}
    (hvalue : IsLeaf value) : Shaped (s.put path value) := by
  unfold Settings.put
  rcases hkeys : pathKeys path with _ | ⟨key, _ | ⟨next, rest⟩⟩
  · exact absurd hkeys (pathKeys_ne_nil path)
  · -- one key: it is the path, plain or not, and leads to no object
    have hpath : key = path := by
      have hdotted := dotted_pathKeys path
      rwa [hkeys, dotted_singleton] at hdotted
    rw [← hpath] at hkeys
    rw [putKeys]
    exact h.put_member (.leaf hvalue) ⟨hkeys, .inr hvalue⟩
  · -- several keys: all of them are plain, and the first leads to an object
    obtain ⟨hkey, hplain⟩ := plainKey_of_pathKeys hkeys
    obtain ⟨hinner, hgrowing⟩ := growing_putKeys hvalue (by simp) hplain
      (growing_membersAt h.values key)
    rw [putKeys]
    exact h.put_member (hgrowing.grown hinner) ⟨pathKeys_plain hkey, .inl hkey⟩

/-- Puts values at paths, one after the other. -/
def putAll (puts : List (String × Json)) (s : Settings) : Settings :=
  puts.foldl (fun s p => s.put p.1 p.2) s

/-- No puts change nothing. -/
@[simp] theorem putAll_nil (s : Settings) : s.putAll [] = s :=
  rfl

/-- Puts are carried out one by one. -/
@[simp] theorem putAll_cons (put : String × Json) (puts : List (String × Json)) (s : Settings) :
    s.putAll (put :: puts) = (s.put put.1 put.2).putAll puts :=
  rfl

/-- Putting leaves keeps settings in good shape. -/
theorem Shaped.putAll {s : Settings} (h : Shaped s) {puts : List (String × Json)}
    (hputs : ∀ p ∈ puts, IsLeaf p.2) : Shaped (s.putAll puts) := by
  induction puts generalizing s with
  | nil => exact h
  | cons p puts ih =>
    obtain ⟨hput, hrest⟩ := List.forall_mem_cons.mp hputs
    exact ih (h.put p.1 hput) hrest

/-! ## What keys lead to -/

/-- What is reached in members in good shape is so itself. -/
theorem grown_getKeys {keys : List String} {members : Members} {v : Json}
    (h : ∀ m ∈ members, Grown m.2) (hget : getKeys keys members = some v) : Grown v := by
  induction keys generalizing members with
  | nil => cases hget
  | cons key rest ih =>
    cases rest with
    | nil => exact h _ (mem_of_find? hget)
    | cons next rest =>
      rw [getKeys] at hget
      split at hget
      · next inner hfind => exact ih (h _ (mem_of_find? hfind)).growing.2.values hget
      · cases hget

end Scaffolding.Settings
