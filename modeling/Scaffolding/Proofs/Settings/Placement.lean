import Scaffolding.Proofs.Settings.Leaves

/-!
# What a put changes

Putting a value at a path is seen from every place of the settings, a place being a list of keys. At
the path and beyond it stands the value that was put. On the way to it stand objects, which keep
their members in order and get at most one more, the next key of the path, at their end. From any
other place nothing is seen of the put, also where it shares the start of the path and a value that
was no object had to make room.

All of this comes from one law about the object that stands above the rest of the path: it is the old
object of that place with the value put under the rest. Putting at a path again forgets what was put
there first.
-/

set_option autoImplicit false

namespace Scaffolding.Settings

/-- The members of the object in a place; where there is no object there are none. -/
def objectAt (keys : List String) (v : Json) : Members :=
  (valueAt keys v).elim [] Json.members

/-! ## Places -/

/-- Keys lead into an object through the member under the first of them. -/
theorem valueAt_cons (key : String) (rest : List String) (members : Members) :
    valueAt (key :: rest) (.object members) = (members.find? key).bind (valueAt rest) := by
  rw [valueAt]

/-- Keys lead on from where others lead. -/
theorem valueAt_append (keys rest : List String) (v : Json) :
    valueAt (keys ++ rest) v = (valueAt keys v).bind (valueAt rest) := by
  induction keys generalizing v with
  | nil => rfl
  | cons key keys ih =>
    cases v with
    | object members =>
      rw [List.cons_append, valueAt_cons, valueAt_cons, Option.bind_assoc]
      congr 1
      funext w
      exact ih w
    | _ => rfl

/-- Whether a place is an object or not, its members tell what is found below it. -/
theorem valueAt_append_cons (keys : List String) (key : String) (rest : List String) (v : Json) :
    valueAt (keys ++ key :: rest) v = ((objectAt keys v).find? key).bind (valueAt rest) := by
  rw [valueAt_append, objectAt]
  cases valueAt keys v with
  | none => rfl
  | some w => cases w <;> rfl

/-- In an object, keys lead to what is got under them. -/
theorem getKeys_eq_valueAt {keys : List String} (hne : keys ≠ []) (members : Members) :
    getKeys keys members = valueAt keys (.object members) := by
  cases keys with
  | nil => exact absurd rfl hne
  | cons key rest => rw [getKeys_cons, valueAt_cons]

/-- A path leads to what its keys lead to. -/
theorem get?_eq_valueAt (path : String) (s : Settings) :
    s.get? path = valueAt (pathKeys path) s.toJson :=
  getKeys_eq_valueAt (pathKeys_ne_nil path) s.members

/-- The members under a key are those of the object there, or none. -/
theorem membersAt_eq_objectAt (members : Members) (key : String) :
    membersAt members key = objectAt [key] (.object members) := by
  unfold membersAt objectAt
  rw [valueAt_cons]
  cases members.find? key with
  | none => rfl
  | some v => cases v <;> rfl

/-- Keys lead on from the members under a key as they do from the object. -/
theorem objectAt_membersAt (members : Members) (key : String) (rest : List String) :
    objectAt rest (.object (membersAt members key)) = objectAt (key :: rest) (.object members) := by
  cases rest with
  | nil => exact membersAt_eq_objectAt members key
  | cons next rest =>
    have hplace := valueAt_append_cons [key] next rest (.object members)
    rw [List.singleton_append, ← membersAt_eq_objectAt] at hplace
    rw [objectAt, objectAt, hplace, valueAt_cons]

/-! ## The object above the rest of a path -/

/-- What is put under more keys is put into the object under the first of them. -/
theorem putKeys_cons_append {keys : List String} (hne : keys ≠ []) (value : Json) (key : String)
    (members : Members) :
    putKeys value (key :: keys) members =
      members.put key (.object (putKeys value keys (membersAt members key))) := by
  cases keys with
  | nil => exact absurd rfl hne
  | cons next rest => rw [putKeys]

/-- A put under keys changes the object in a place above the last key as a put under the rest of the
keys does. -/
theorem valueAt_putKeys (value : Json) (above : List String) (key : String) (rest : List String)
    (members : Members) :
    valueAt above (.object (putKeys value (above ++ key :: rest) members)) =
      some (.object (putKeys value (key :: rest) (objectAt above (.object members)))) := by
  induction above generalizing members with
  | nil => rfl
  | cons first above ih =>
    have hne : above ++ key :: rest ≠ [] := by simp
    rw [List.cons_append, putKeys_cons_append hne, valueAt_cons, Members.find?_put_self,
      Option.bind_some, ih, objectAt_membersAt]

/-- Putting changes no other member. -/
theorem find?_putKeys_of_ne {key other : String} (h : other ≠ key) (value : Json)
    (rest : List String) (members : Members) :
    (putKeys value (key :: rest) members).find? other = members.find? other := by
  cases rest with
  | nil => exact Members.find?_put_of_ne h value members
  | cons next rest => exact Members.find?_put_of_ne h _ members

/-- One object of the way keeps its keys, and gets the next one at its end if it is new. -/
theorem keys_putKeys (value : Json) (key : String) (rest : List String) (members : Members) :
    (putKeys value (key :: rest) members).keys =
      if key ∈ members.keys then members.keys else members.keys ++ [key] := by
  cases rest with
  | nil => exact Members.keys_put key value members
  | cons next rest => exact Members.keys_put key _ members

/-- What was put is found under its keys. -/
theorem valueAt_putKeys_self {keys : List String} (hne : keys ≠ []) (value : Json)
    (members : Members) : valueAt keys (.object (putKeys value keys members)) = some value := by
  have hsplit := List.dropLast_append_getLast hne
  have habove := valueAt_putKeys value keys.dropLast (keys.getLast hne) [] members
  rw [hsplit] at habove
  calc valueAt keys (.object (putKeys value keys members))
      = valueAt (keys.dropLast ++ [keys.getLast hne])
          (.object (putKeys value keys members)) := by rw [hsplit]
    _ = some value := by
      rw [valueAt_append, habove, Option.bind_some, putKeys, valueAt_cons, Members.find?_put_self]
      rfl

/-- Lists of which neither starts with the other go apart after a common start. -/
theorem exists_fork {keys others : List String} (h : ¬ keys <+: others) (h' : ¬ others <+: keys) :
    ∃ common key other rest more, key ≠ other ∧ keys = common ++ key :: rest ∧
      others = common ++ other :: more := by
  induction keys generalizing others with
  | nil => exact absurd List.nil_prefix h
  | cons key rest ih =>
    cases others with
    | nil => exact absurd List.nil_prefix h'
    | cons other more =>
      by_cases heq : key = other
      · subst heq
        rw [List.prefix_cons_inj] at h h'
        obtain ⟨common, k, o, r, m, hne, rfl, rfl⟩ := ih h h'
        exact ⟨key :: common, k, o, r, m, hne, rfl, rfl⟩
      · exact ⟨[], key, other, rest, more, heq, rfl, rfl⟩

/-- Keys that part from those of the put lead to what they led to. -/
theorem valueAt_putKeys_of_apart {keys others : List String} (h : ¬ keys <+: others)
    (h' : ¬ others <+: keys) (value : Json) (members : Members) :
    valueAt others (.object (putKeys value keys members)) = valueAt others (.object members) := by
  obtain ⟨common, key, other, rest, more, hne, rfl, rfl⟩ := exists_fork h h'
  have habove := valueAt_putKeys value common key rest members
  rw [valueAt_append, habove, Option.bind_some, valueAt_cons, find?_putKeys_of_ne hne.symm,
    ← valueAt_append_cons]

/-! ## Putting twice -/

/-- Of two values put under one key the second one counts. -/
theorem put_put (key : String) (first second : Json) (members : Members) :
    (members.put key first).put key second = members.put key second := by
  induction members with
  | nil => simp [Members.put]
  | cons m rest ih =>
    obtain ⟨k, v⟩ := m
    by_cases h : k = key <;> simp [Members.put, h, ih]

/-- Of two values put under the same keys the second one counts. -/
theorem putKeys_putKeys (keys : List String) (first second : Json) (members : Members) :
    putKeys second keys (putKeys first keys members) = putKeys second keys members := by
  induction keys generalizing members with
  | nil => rfl
  | cons key rest ih =>
    cases rest with
    | nil => exact put_put key first second members
    | cons next rest =>
      have hinner (inner : Members) : membersAt (members.put key (.object inner)) key = inner := by
        rw [membersAt, Members.find?_put_self]
      rw [putKeys, putKeys, hinner, ih, put_put, putKeys]

/-! ## Settings -/

/-- Putting at a path is putting under its keys. -/
theorem toJson_put (path : String) (value : Json) (s : Settings) :
    (s.put path value).toJson = .object (putKeys value (pathKeys path) s.members) :=
  rfl

/-- Above what was put there is an object with it. -/
theorem valueAt_put_above {path key : String} {keys rest : List String}
    (h : pathKeys path = keys ++ key :: rest) (value : Json) (s : Settings) :
    valueAt keys (s.put path value).toJson =
      some (.object (putKeys value (key :: rest) (objectAt keys s.toJson))) := by
  rw [toJson_put, h]
  exact valueAt_putKeys value keys key rest s.members

/-- Below what was put there is what it holds. -/
theorem valueAt_put_inside (path : String) (rest : List String) (value : Json) (s : Settings) :
    valueAt (pathKeys path ++ rest) (s.put path value).toJson = valueAt rest value := by
  rw [valueAt_append, toJson_put, valueAt_putKeys_self (pathKeys_ne_nil path)]
  rfl

/-- Apart from what was put there is what was there. -/
theorem valueAt_put_apart {path : String} {keys : List String} (h : ¬ pathKeys path <+: keys)
    (h' : ¬ keys <+: pathKeys path) (value : Json) (s : Settings) :
    valueAt keys (s.put path value).toJson = valueAt keys s.toJson :=
  valueAt_putKeys_of_apart h h' value s.members

/-- Keys that start like others are fewer by some. -/
theorem exists_rest_of_prefix {keys others : List String} (h : keys <+: others)
    (hne : keys ≠ others) : ∃ key rest, others = keys ++ key :: rest := by
  obtain ⟨more, rfl⟩ := h
  cases more with
  | nil => exact absurd (List.append_nil keys).symm hne
  | cons key rest => exact ⟨key, rest, rfl⟩

/-! ## Several puts -/

/-- Puts are carried out one after the other. -/
theorem putAll_append (first second : List (String × Json)) (s : Settings) :
    s.putAll (first ++ second) = (s.putAll first).putAll second := by
  rw [putAll, List.foldl_append]
  rfl

/-- Neither of two paths starts with the keys of the other. -/
def Apart (path other : String) : Prop :=
  ¬ pathKeys path <+: pathKeys other ∧ ¬ pathKeys other <+: pathKeys path

/-- A path apart from that of a put leads to what it led to. -/
theorem get?_put_of_apart {path other : String} (h : Apart path other) (value : Json)
    (s : Settings) : (s.put path value).get? other = s.get? other := by
  rw [get?_eq_valueAt, get?_eq_valueAt]
  exact valueAt_put_apart h.1 h.2 value s

/-- So does a path apart from those of all puts. -/
theorem get?_putAll_of_apart {path : String} {puts : List (String × Json)}
    (h : ∀ p ∈ puts, Apart p.1 path) (s : Settings) :
    (s.putAll puts).get? path = s.get? path := by
  induction puts generalizing s with
  | nil => rfl
  | cons p puts ih =>
    obtain ⟨hp, hrest⟩ := List.forall_mem_cons.mp h
    rw [putAll_cons, ih hrest, get?_put_of_apart hp]

/-- A value that is no object has been put in its place, or it was there before. -/
theorem leaf_of_put {s : Settings} {path : String} {value v : Json} {keys : List String}
    (hvalue : IsLeaf value) (hv : IsLeaf v) (h : valueAt keys (s.put path value).toJson = some v) :
    keys = pathKeys path ∧ v = value ∨ valueAt keys s.toJson = some v := by
  by_cases hinside : pathKeys path <+: keys
  · obtain ⟨rest, rfl⟩ := hinside
    rw [valueAt_put_inside] at h
    cases rest with
    | nil =>
      cases h
      exact .inl ⟨List.append_nil _, rfl⟩
    | cons key rest =>
      cases value with
      | object members => exact absurd rfl (hvalue members)
      | _ => cases h
  · by_cases habove : keys <+: pathKeys path
    · have hne : keys ≠ pathKeys path := by
        rintro rfl
        exact hinside List.prefix_rfl
      obtain ⟨key, rest, hpath⟩ := exists_rest_of_prefix habove hne
      rw [valueAt_put_above hpath] at h
      cases h
      exact absurd rfl (hv _)
    · rw [valueAt_put_apart hinside habove] at h
      exact .inr h

/-- A leaf after some puts is one of them or was there before. -/
theorem leaf_of_putAll {s : Settings} {puts : List (String × Json)} {v : Json} {keys : List String}
    (hputs : ∀ p ∈ puts, IsLeaf p.2) (hv : IsLeaf v)
    (h : valueAt keys (s.putAll puts).toJson = some v) :
    (∃ p ∈ puts, pathKeys p.1 = keys ∧ p.2 = v) ∨ valueAt keys s.toJson = some v := by
  induction puts generalizing s with
  | nil => exact .inr h
  | cons p puts ih =>
    obtain ⟨hp, hrest⟩ := List.forall_mem_cons.mp hputs
    rcases ih hrest h with ⟨q, hq, hkeys⟩ | hthere
    · exact .inl ⟨q, List.mem_cons_of_mem p hq, hkeys⟩
    · rcases leaf_of_put hp hv hthere with ⟨rfl, rfl⟩ | hbefore
      · exact .inl ⟨p, List.mem_cons_self, rfl, rfl⟩
      · exact .inr hbefore

/-! ## Placement -/

/-- What becomes of settings when a value is put at a path. Places are lists of keys, so that also
objects are told about to which no path leads. -/
structure Placed (path : String) (value : Json) (before after : Settings) : Prop where
  /-- Paths that go on where the path ends lead into the value. -/
  inside : ∀ q rest, pathKeys q = pathKeys path ++ rest → after.get? q = valueAt rest value
  /-- Paths that end before lead to objects. -/
  above : ∀ q, pathKeys q <+: pathKeys path → pathKeys q ≠ pathKeys path →
    ∃ members, after.get? q = some (.object members)
  /-- All other paths lead where they led. -/
  apart : ∀ q, Apart path q → after.get? q = before.get? q
  /-- An object on the way has the keys that it had, in their order, and the next key of the path
  after them if that is new. -/
  order : ∀ keys key rest, pathKeys path = keys ++ key :: rest →
    ∃ members : Members, valueAt keys after.toJson = some (.object members) ∧
      members.keys =
        if key ∈ (objectAt keys before.toJson).keys then (objectAt keys before.toJson).keys
        else (objectAt keys before.toJson).keys ++ [key]
  /-- Whatever is neither on the way nor in the value is as it was. -/
  untouched : ∀ keys, ¬ pathKeys path <+: keys → ¬ keys <+: pathKeys path →
    valueAt keys after.toJson = valueAt keys before.toJson

/-- A put places its value at the path and changes nothing else, and it leaves no trace of an earlier
put at the same path. -/
theorem put_placed (s : Settings) (path : String) (value : Json) :
    Placed path value s (s.put path value) ∧
      ∀ first, (s.put path first).put path value = s.put path value := by
  refine ⟨⟨?inside, ?above, ?apart, ?order, ?untouched⟩, ?again⟩
  case inside =>
    intro q rest hq
    rw [get?_eq_valueAt, hq]
    exact valueAt_put_inside path rest value s
  case above =>
    intro q hprefix hne
    obtain ⟨key, rest, hpath⟩ := exists_rest_of_prefix hprefix hne
    rw [get?_eq_valueAt, valueAt_put_above hpath]
    exact ⟨_, rfl⟩
  case apart =>
    intro q h
    exact get?_put_of_apart h value s
  case order =>
    intro keys key rest hpath
    refine ⟨_, valueAt_put_above hpath value s, ?_⟩
    exact keys_putKeys value key rest _
  case untouched =>
    intro keys h h'
    exact valueAt_put_apart h h' value s
  case again =>
    intro first
    have hmembers := putKeys_putKeys (pathKeys path) first value s.members
    exact congrArg Settings.mk hmembers

end Scaffolding.Settings
