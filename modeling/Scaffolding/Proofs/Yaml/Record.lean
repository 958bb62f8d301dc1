import Mathlib.Data.List.Nodup
import Scaffolding.Yaml.Record

/-!
# What a record holds

Reading a record goes through the entries of a mapping one by one and keeps what it finds under the
names of its fields. Here the result is told without the reading: in a record type in which no two
fields share a name, a field holds what stands under the first key that is one of its names, and
nothing if there is no such key. Later keys cannot change it, since a second key of the same field is
an error.

For fields that hold texts this says which text of the value a field of the record is.
-/

set_option autoImplicit false

namespace Scaffolding.Yaml

/-- The entries of a mapping under its tags; other values have none. -/
def Value.entries (v : Value) : List (Value × Value) :=
  match v.untag with
  | .mapping entries => entries
  | _ => []

/-- The key of an entry is one of these names. -/
def isUnder (names : List String) (entry : Value × Value) : Bool :=
  entry.1.untag.text?.any names.contains

/-- The text under the first key that is one of these names. -/
def Value.textUnder? (names : List String) (v : Value) : Option String :=
  (v.entries.find? (isUnder names)).bind fun entry => entry.2.untag.text?

/-- The items of a list; other values have none. -/
def Value.items : Value → List Value
  | .sequence items => items
  | _ => []

/-- The items of the list under the first key that is one of these names. -/
def Value.itemsUnder (names : List String) (v : Value) : List Value :=
  ((v.entries.find? (isUnder names)).map fun entry => entry.2.untag.items).getD []

/-- Only a string has a text. -/
theorem Value.text?_eq_some_iff {v : Value} {s : String} : v.text? = some s ↔ v = .string s := by
  cases v <;> simp [text?]

/-! ## Fields -/

def Field.names (f : Field) : List String :=
  f.name :: f.otherNames

/-- A field that holds a text if it holds anything. -/
def Field.IsText (f : Field) : Prop :=
  f.shape = .text ∨ f.shape = .optionalText

/-- No name belongs to two fields. -/
def RecordType.Distinct (t : RecordType) : Prop :=
  (t.fields.flatMap Field.names).Nodup

instance (t : RecordType) : Decidable t.Distinct :=
  inferInstanceAs (Decidable (List.Nodup _))

/-- A key names a field if it is its name or one of its other names. -/
theorem Field.isNamed_iff (f : Field) (key : String) :
    (f.name == key || f.otherNames.contains key) = true ↔ key ∈ f.names := by
  rw [Bool.or_eq_true, beq_iff_eq, List.contains_iff_mem, Field.names, List.mem_cons, eq_comm]

/-- The field that is found for a key has the key among its names. -/
theorem RecordType.mem_names_of_field? {t : RecordType} {key : String} {f : Field}
    (h : t.field? key = some f) : key ∈ f.names := by
  have hnamed := List.find?_some h
  exact (f.isNamed_iff key).mp hnamed

/-- Where no name belongs to two fields, a field is found under each of its names. -/
theorem find?_of_mem_names {fields : List Field} (hd : (fields.flatMap Field.names).Nodup)
    {f : Field} (hf : f ∈ fields) {key : String} (hkey : key ∈ f.names) :
    fields.find? (fun g => g.name == key || g.otherNames.contains key) = some f := by
  induction fields with
  | nil => cases hf
  | cons g rest ih =>
    rw [List.flatMap_cons, List.nodup_append] at hd
    obtain ⟨-, hrest, hapart⟩ := hd
    rcases List.mem_cons.mp hf with rfl | hmem
    · exact List.find?_cons_of_pos ((f.isNamed_iff key).mpr hkey)
    · have hother : key ∉ g.names := fun hg =>
        hapart key hg key (List.mem_flatMap.mpr ⟨f, hmem, hkey⟩) rfl
      have hunnamed := Bool.eq_false_iff.mpr (mt (g.isNamed_iff key).mp hother)
      rw [List.find?_cons, hunnamed]
      exact ih hrest hmem

/-! ## Texts -/

/-- The text that a field holds. -/
def Content.text? : Content → Option String
  | .text s => some s
  | _ => none

/-- The text under a name is the one that was read for it. -/
theorem Record.text?_eq (r : Record) (name : String) :
    r.text? name = (r.lookup name).bind Content.text? := by
  unfold Record.text?
  rcases r.lookup name with - | (- | - | - | -) <;> rfl

/-- A text field takes the text of its value, and holds no text if the value is something else. -/
theorem Field.IsText.text?_read {f : Field} (hf : f.IsText) (v : Value) :
    (f.shape.read v).toOption.bind Content.text? = v.untag.text? := by
  have hreadText : ((readText v).map Content.text).toOption.bind Content.text? = v.untag.text? := by
    unfold readText
    cases v.untag <;> rfl
  rcases hf with hshape | hshape <;> rw [hshape]
  · exact hreadText
  · cases v with
    | null => rfl
    | _ => exact hreadText

/-! ## Lists -/

/-- The items of the list that a field holds. -/
def Content.items : Content → List Value
  | .list items => items
  | _ => []

/-- The items under a name are those that were read for it, and none if it was not there. -/
theorem Record.items_eq (r : Record) (name : String) :
    r.items name = ((r.lookup name).map Content.items).getD [] := by
  unfold Record.items
  rcases r.lookup name with - | (- | - | - | -) <;> rfl

/-- A list field takes the items of its value, and holds none if the value is something else. -/
theorem items_read_optionalList (v : Value) :
    ((Shape.optionalList.read v).toOption.map Content.items).getD [] = v.untag.items := by
  have hreadList : (((readList v).map Content.list).toOption.map Content.items).getD [] =
      v.untag.items := by
    unfold readList
    cases v.untag <;> rfl
  cases v with
  | null => rfl
  | _ => exact hreadList

namespace RecordType

variable {t : RecordType} {f : Field} {done r : Record} {entry : Value × Value}
  {entries : List (Value × Value)}

/-- In a record type with distinct names a field is found under each of its names. -/
theorem Distinct.field? (hd : t.Distinct) (hf : f ∈ t.fields) {key : String}
    (hkey : key ∈ f.names) : t.field? key = some f :=
  find?_of_mem_names hd hf hkey

/-- In a record type with distinct names no two fields have one name. -/
theorem Distinct.eq_of_name (hd : t.Distinct) {g : Field} (hf : f ∈ t.fields) (hg : g ∈ t.fields)
    (h : f.name = g.name) : f = g := by
  have hfound := hd.field? hf (List.mem_cons_self : f.name ∈ f.names)
  rw [h, hd.field? hg (List.mem_cons_self : g.name ∈ g.names)] at hfound
  exact (Option.some.inj hfound).symm

/-! ## One entry -/

/-- An entry with an unknown key changes nothing. One with a known key adds what it holds to a record
that does not have the field yet. -/
theorem readEntry_cases (h : t.readEntry done entry = .ok r) :
    ∃ key, entry.1.untag = .string key ∧
      (t.field? key = none ∧ r = done ∨
        ∃ f content, t.field? key = some f ∧ done.lookup f.name = none ∧
          f.shape.read entry.2 = .ok content ∧ r = (f.name, content) :: done) := by
  unfold readEntry readKey at h
  split at h
  next key hkey =>
    refine ⟨key, hkey, ?_⟩
    simp only [bind, Except.bind, pure, Except.pure] at h
    split at h
    next hnone =>
      cases h
      exact .inl ⟨hnone, rfl⟩
    next f hfield =>
      refine .inr ⟨f, ?_⟩
      cases hdone : done.lookup f.name with
      | some content =>
        rw [hdone] at h
        cases h
      | none =>
        rw [hdone] at h
        cases hread : f.shape.read entry.2 with
        | error e =>
          rw [hread] at h
          cases h
        | ok content =>
          rw [hread] at h
          cases h
          exact ⟨content, hfield, rfl, rfl, rfl⟩
  next => cases h

/-- An entry under a name of the field is kept in a record that does not have the field yet. -/
theorem lookup_readEntry_of_isUnder (hd : t.Distinct) (hf : f ∈ t.fields)
    (h : t.readEntry done entry = .ok r) (hunder : isUnder f.names entry = true) :
    done.lookup f.name = none ∧
      ∃ content, f.shape.read entry.2 = .ok content ∧ r.lookup f.name = some content := by
  obtain ⟨key, hkey, hcases⟩ := readEntry_cases h
  have hname : key ∈ f.names := by
    simpa [isUnder, hkey, Value.text?] using hunder
  rw [hd.field? hf hname] at hcases
  rcases hcases with ⟨hnone, -⟩ | ⟨g, content, hg, hnew, hread, rfl⟩
  · cases hnone
  · cases hg
    exact ⟨hnew, content, hread, by simp⟩

/-- Reading an entry of another field leaves a field as it is. -/
theorem lookup_readEntry_of_not_isUnder (hd : t.Distinct) (hf : f ∈ t.fields)
    (h : t.readEntry done entry = .ok r) (hunder : isUnder f.names entry = false) :
    r.lookup f.name = done.lookup f.name := by
  obtain ⟨key, hkey, ⟨-, rfl⟩ | ⟨g, content, hg, -, -, rfl⟩⟩ := readEntry_cases h
  · rfl
  · have hne : f.name ≠ g.name := by
      intro hname
      have hmem := mem_names_of_field? hg
      rw [← hd.eq_of_name hf (List.mem_of_find?_eq_some hg) hname] at hmem
      simp [isUnder, hkey, Value.text?, hmem] at hunder
    rw [List.lookup_cons, beq_eq_false_iff_ne.mpr hne]

/-! ## All entries -/

/-- A field holds what it held before, or else what the first entry under one of its names holds. -/
theorem lookup_foldlM_readEntry (hd : t.Distinct) (hf : f ∈ t.fields)
    (h : entries.foldlM t.readEntry done = .ok r) :
    r.lookup f.name = (done.lookup f.name).or
      ((entries.find? (isUnder f.names)).bind fun entry => (f.shape.read entry.2).toOption) := by
  -- the record so far is generalized: what it holds of the field decides over all that follows
  induction entries generalizing done with
  | nil =>
    cases h
    simp
  | cons entry rest ih =>
    rw [List.foldlM_cons] at h
    cases hstep : t.readEntry done entry with
    | error e =>
      rw [hstep] at h
      cases h
    | ok next =>
      rw [hstep] at h
      rw [ih h]
      cases hunder : isUnder f.names entry with
      | true =>
        obtain ⟨hnew, content, hread, hheld⟩ := lookup_readEntry_of_isUnder hd hf hstep hunder
        rw [hheld, hnew, List.find?_cons_of_pos hunder]
        simp [hread, Except.toOption]
      | false =>
        rw [lookup_readEntry_of_not_isUnder hd hf hstep hunder,
          List.find?_cons_of_neg (by simp [hunder])]

/-- The entries of a record are read one by one, and nothing required is missing. -/
theorem readEntries_cases (h : t.readEntries entries = .ok r) :
    entries.foldlM t.readEntry [] = .ok r ∧ t.missing? r = none := by
  unfold readEntries at h
  cases hfold : entries.foldlM t.readEntry [] with
  | error e =>
    rw [hfold] at h
    cases h
  | ok read =>
    rw [hfold] at h
    simp only [bind, Except.bind] at h
    split at h
    · cases h
    · next hmissing =>
      cases h
      exact ⟨rfl, hmissing⟩

/-- A record is read from the entries of its value. -/
theorem read_cases {v : Value} (h : t.read v = .ok r) : t.readEntries v.entries = .ok r := by
  unfold read at h
  unfold Value.entries
  split at h
  · next hv => rwa [hv]
  · next hv => rwa [hv]
  · cases h

/-- A field of a record that was read holds what the first entry under one of its names holds. -/
theorem lookup_read (hd : t.Distinct) (hf : f ∈ t.fields) {v : Value} (h : t.read v = .ok r) :
    r.lookup f.name =
      (v.entries.find? (isUnder f.names)).bind fun entry => (f.shape.read entry.2).toOption := by
  obtain ⟨hfold, -⟩ := readEntries_cases (read_cases h)
  rw [lookup_foldlM_readEntry hd hf hfold]
  rfl

/-- A required field is in the record that was read. -/
theorem lookup_read_ne_none (hf : f ∈ t.fields) (hrequired : f.required = true) {v : Value}
    (h : t.read v = .ok r) : r.lookup f.name ≠ none := by
  obtain ⟨-, hmissing⟩ := readEntries_cases (read_cases h)
  unfold missing? at hmissing
  rw [Option.map_eq_none_iff, List.find?_eq_none] at hmissing
  simpa [hrequired] using hmissing f hf

/-- A text field of a record that was read holds the text under the first of its names. -/
theorem text?_read (hd : t.Distinct) (hf : f ∈ t.fields) (htext : f.IsText) {v : Value}
    (h : t.read v = .ok r) : r.text? f.name = v.textUnder? f.names := by
  rw [Record.text?_eq, lookup_read hd hf h, Option.bind_assoc]
  unfold Value.textUnder?
  congr 1
  funext entry
  exact htext.text?_read entry.2

/-- A list field of a record that was read holds the list under the first of its names. -/
theorem items_read (hd : t.Distinct) (hf : f ∈ t.fields) (hlist : f.shape = .optionalList)
    {v : Value} (h : t.read v = .ok r) : r.items f.name = v.itemsUnder f.names := by
  rw [Record.items_eq, lookup_read hd hf h, hlist]
  unfold Value.itemsUnder
  cases v.entries.find? (isUnder f.names) with
  | none => rfl
  | some entry => exact items_read_optionalList entry.2

/-- A required text is in the value that was read, under one of the names of its field. -/
theorem exists_text?_read (hd : t.Distinct) (hf : f ∈ t.fields) (htext : f.shape = .text)
    (hrequired : f.required = true) {v : Value} (h : t.read v = .ok r) :
    ∃ s, v.textUnder? f.names = some s := by
  obtain ⟨content, hheld⟩ := Option.ne_none_iff_exists'.mp (lookup_read_ne_none hf hrequired h)
  obtain ⟨entry, -, hread⟩ := Option.bind_eq_some_iff.mp ((lookup_read hd hf h).symm.trans hheld)
  rw [← text?_read hd hf (.inl htext) h, Record.text?_eq, hheld]
  rw [htext] at hread
  change ((readText entry.2).map Content.text).toOption = some content at hread
  cases hvalue : readText entry.2 with
  | error e =>
    rw [hvalue] at hread
    cases hread
  | ok s =>
    rw [hvalue] at hread
    cases hread
    exact ⟨s, rfl⟩

/-! ## A text for every field -/

/-- An entry with the name of a field for texts adds its text. -/
theorem readEntry_text (hd : t.Distinct) (hf : f ∈ t.fields) (htext : f.IsText)
    (hnew : done.lookup f.name = none) (s : String) :
    t.readEntry done (.string f.name, .string s) = .ok ((f.name, .text s) :: done) := by
  have hfield := hd.field? hf (List.mem_cons_self : f.name ∈ f.names)
  have hread : f.shape.read (.string s) = .ok (.text s) := by
    rcases htext with hshape | hshape <;> rw [hshape] <;> rfl
  have hkey : readKey (.string f.name) = .ok f.name := rfl
  simp only [readEntry, hkey, hread, bind, Except.bind, hfield, hnew, Option.isSome_none,
    Bool.false_eq_true, if_false, pure, Except.pure]

/-- Texts for fields that a record does not have yet are added to it. -/
theorem foldlM_readEntry_texts (hd : t.Distinct) (ht : ∀ f ∈ t.fields, f.IsText)
    {texts : List (Field × String)} (hfields : ∀ p ∈ texts, p.1 ∈ t.fields)
    (hnames : (texts.map fun p => p.1.name).Nodup)
    (hnew : ∀ p ∈ texts, done.lookup p.1.name = none) :
    ∃ r : Record, (texts.map fun p => (Value.string p.1.name, Value.string p.2)).foldlM
        t.readEntry done = .ok r ∧
      (∀ p ∈ texts, r.lookup p.1.name = some (.text p.2)) ∧
      ∀ name, name ∉ (texts.map fun p => p.1.name) → r.lookup name = done.lookup name := by
  induction texts generalizing done with
  | nil => exact ⟨done, rfl, by simp, fun _ _ => rfl⟩
  | cons p rest ih =>
    rw [List.map_cons, List.nodup_cons] at hnames
    have hp := hfields p List.mem_cons_self
    have hstep := readEntry_text hd hp (ht p.1 hp) (hnew p List.mem_cons_self) p.2
    have hnext : ∀ q ∈ rest, ((p.1.name, Content.text p.2) :: done).lookup q.1.name = none := by
      intro q hq
      have hne : q.1.name ≠ p.1.name := by
        intro heq
        exact hnames.1 (List.mem_map.mpr ⟨q, hq, heq⟩)
      rw [List.lookup_cons, beq_eq_false_iff_ne.mpr hne]
      exact hnew q (List.mem_cons_of_mem p hq)
    obtain ⟨r, hrest, htexts, hothers⟩ :=
      ih (fun q hq => hfields q (List.mem_cons_of_mem p hq)) hnames.2 hnext
    refine ⟨r, ?_, ?_, ?_⟩
    · rw [List.map_cons, List.foldlM_cons, hstep]
      exact hrest
    · intro q hq
      rcases List.mem_cons.mp hq with rfl | hq
      · rw [hothers q.1.name hnames.1, List.lookup_cons_self]
      · exact htexts q hq
    · intro name hname
      rw [List.map_cons, List.mem_cons, not_or] at hname
      rw [hothers name hname.2, List.lookup_cons, beq_eq_false_iff_ne.mpr hname.1]

/-- The names of the fields of a type are distinct. -/
theorem Distinct.nodup_names (hd : t.Distinct) : (t.fields.map Field.name).Nodup := by
  refine List.pairwise_map.mpr ((List.pairwise_flatMap.mp hd).2.imp ?_)
  intro f g hfg
  exact hfg f.name List.mem_cons_self g.name List.mem_cons_self

/-- A mapping with a text under the name of every field is read as these texts. -/
theorem read_texts (hd : t.Distinct) (ht : ∀ f ∈ t.fields, f.IsText)
    {texts : List (Field × String)} (hfields : texts.map Prod.fst = t.fields) :
    ∃ r, t.read (.mapping (texts.map fun p => (.string p.1.name, .string p.2))) = .ok r ∧
      ∀ p ∈ texts, r.text? p.1.name = some p.2 := by
  have hmem : ∀ p ∈ texts, p.1 ∈ t.fields := by
    intro p hp
    rw [← hfields]
    exact List.mem_map.mpr ⟨p, hp, rfl⟩
  have hnames : (texts.map fun p => p.1.name).Nodup := by
    have hnodup := hd.nodup_names
    rwa [← hfields, List.map_map] at hnodup
  obtain ⟨r, hfold, htexts, -⟩ := @foldlM_readEntry_texts t [] hd ht texts hmem hnames (by simp)
  have hnone : t.missing? r = none := by
    unfold missing?
    rw [Option.map_eq_none_iff, List.find?_eq_none]
    intro f hf
    rw [← hfields, List.mem_map] at hf
    obtain ⟨p, hp, rfl⟩ := hf
    simp [htexts p hp]
  refine ⟨r, ?_, ?_⟩
  · change t.readEntries _ = _
    rw [readEntries, hfold]
    simp only [bind, Except.bind, hnone, pure, Except.pure]
  · intro p hp
    rw [Record.text?_eq, htexts p hp]
    rfl

end RecordType

end Scaffolding.Yaml
