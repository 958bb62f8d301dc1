import Mathlib.Data.List.Nodup
import Scaffolding.Files.Basic

/-!
# Setting an entry

Setting an entry changes what stands at its place, under all the names that a file has there, and at no
other one. The places that have an entry stay in their order, with a new one as the last, so that
setting an entry changes the list of at most one directory, and that only if the place had no entry
before.
-/

set_option autoImplicit false

namespace Scaffolding.Files

variable {files : Files} {place p q : Place} {e : Entry}

/-- The places that have an entry, in the order in which they are held. -/
def places (files : Files) : List Place :=
  files.entries.map Prod.fst

/-- What stands at a place other than the root is its entry. -/
theorem at?_of_ne_nil (h : place ≠ []) : files.at? place = files.entries.lookup place := by
  cases place with
  | nil => exact absurd rfl h
  | cons name rest => rfl

/-- An entry is found exactly at the places of the entries. -/
theorem lookup_isSome_iff {α : Type} {entries : List (Place × α)} :
    (entries.lookup place).isSome = true ↔ place ∈ entries.map Prod.fst := by
  induction entries with
  | nil => simp
  | cons entry rest ih =>
    obtain ⟨p, x⟩ := entry
    by_cases h : place = p
    · simp [h]
    · have hne : (place == p) = false := by simpa using h
      simp only [List.lookup_cons, hne, List.map_cons, List.mem_cons, h, false_or]
      exact ih

/-- There is something at a place other than the root exactly if it is one of the places. -/
theorem isSome_at?_iff (h : place ≠ []) :
    (files.at? place).isSome = true ↔ place ∈ files.places := by
  rw [at?_of_ne_nil h]
  exact lookup_isSome_iff

/-! ## Names of one file -/

/-- A place is a name of its own file. -/
theorem sameFile_self (files : Files) (p : Place) : files.sameFile p p = true := by
  simp [sameFile]

/-- Names of one file are so in both directions. -/
theorem sameFile_comm (files : Files) (p q : Place) : files.sameFile p q = files.sameFile q p := by
  rw [Bool.eq_iff_iff]
  simp only [sameFile, Bool.or_eq_true, Bool.and_eq_true, beq_iff_eq]
  constructor <;>
  · rintro (rfl | ⟨hsome, heq⟩)
    · exact .inl rfl
    · exact .inr ⟨heq ▸ hsome, heq.symm⟩

/-- Names of one file have all their names in common. -/
theorem sameFile_trans {r : Place} (h : files.sameFile p q = true) (h' : files.sameFile q r = true) :
    files.sameFile p r = true := by
  simp only [sameFile, Bool.or_eq_true, Bool.and_eq_true, beq_iff_eq] at *
  rcases h with rfl | ⟨hsome, heq⟩
  · exact h'
  · rcases h' with rfl | ⟨-, heq'⟩
    · exact .inr ⟨hsome, heq⟩
    · exact .inr ⟨hsome, heq.trans heq'⟩

/-- Only files have numbers. -/
def Numbered (files : Files) : Prop :=
  ∀ p, (files.numbers.lookup p).isSome = true → ∃ text mode, files.at? p = some (.file text mode)

/-- It is enough to look at the numbers that are given. -/
theorem Numbered.of_forall
    (h : ∀ x ∈ files.numbers, ∃ text mode, files.at? x.1 = some (.file text mode)) :
    files.Numbered := by
  intro p hp
  obtain ⟨x, hx, rfl⟩ := List.mem_map.mp (lookup_isSome_iff.mp hp)
  exact h x hx

/-- What is no file has no other name. -/
theorem Numbered.eq_of_sameFile (h : files.Numbered) (hsame : files.sameFile p q = true)
    (hp : ∀ text mode, files.at? p ≠ some (.file text mode)) : q = p := by
  simp only [sameFile, Bool.or_eq_true, Bool.and_eq_true, beq_iff_eq] at hsame
  rcases hsame with heq | ⟨hsome, -⟩
  · exact heq.symm
  · obtain ⟨text, mode, hfile⟩ := h p hsome
    exact absurd hfile (hp text mode)

/-- All names of a file are there. -/
theorem Numbered.isSome_of_sameFile (h : files.Numbered) (hsame : files.sameFile p q = true)
    (hp : (files.at? p).isSome = true) : (files.at? q).isSome = true := by
  simp only [sameFile, Bool.or_eq_true, Bool.and_eq_true, beq_iff_eq] at hsame
  rcases hsame with rfl | ⟨hsome, heq⟩
  · exact hp
  · obtain ⟨text, mode, hfile⟩ := h q (heq ▸ hsome)
    rw [hfile]
    rfl

/-- What has two names is a file under both. -/
theorem Numbered.files_of_ne (h : files.Numbered) (hsame : files.sameFile p q = true) (hne : q ≠ p) :
    (∃ text mode, files.at? p = some (.file text mode)) ∧
      ∃ text mode, files.at? q = some (.file text mode) := by
  have hfile : ∀ {p q}, files.sameFile p q = true → q ≠ p →
      ∃ text mode, files.at? p = some (.file text mode) := by
    intro p q hsame hne
    by_contra hno
    exact hne (h.eq_of_sameFile hsame fun text mode hat => hno ⟨text, mode, hat⟩)
  refine ⟨hfile hsame hne, hfile ?_ hne.symm⟩
  rw [sameFile_comm]
  exact hsame

/-- The root is a name of nothing else. -/
theorem Numbered.root_only (h : files.Numbered) (hsame : files.sameFile place [] = true) :
    place = [] := by
  rw [sameFile_comm] at hsame
  exact h.eq_of_sameFile hsame fun text mode hfile => by cases hfile

/-! ## Setting an entry -/

/-- Replacing the entries at some places shows where there was one. -/
theorem lookup_replace (replaced : Place → Bool) (entries : List (Place × Entry)) :
    (entries.map fun (p, x) => if replaced p then (p, e) else (p, x)).lookup q =
      if replaced q then (entries.lookup q).map fun _ => e else entries.lookup q := by
  induction entries with
  | nil => simp
  | cons entry rest ih =>
    obtain ⟨p, x⟩ := entry
    have hkey : (if replaced p then (p, e) else (p, x)) = (p, if replaced p then e else x) := by
      split <;> rfl
    rw [List.map_cons]
    simp only [hkey, List.lookup_cons]
    by_cases hq : q = p
    · subst hq
      by_cases hreplaced : replaced q = true <;> simp [hreplaced]
    · have hne : (q == p) = false := by simpa using hq
      rw [hne]
      simpa only [hkey] using ih

/-- Setting an entry changes what stands at its place, under all its names. -/
theorem at?_set (hnumbers : files.Numbered) (h : place ≠ []) :
    (files.set place e).at? q = if files.sameFile place q then some e else files.at? q := by
  by_cases hq : q = []
  · subst hq
    rw [if_neg fun hsame => h (hnumbers.root_only hsame)]
    rfl
  · rw [at?_of_ne_nil hq, at?_of_ne_nil hq, Files.set]
    dsimp only
    split
    · next hthere =>
      rw [lookup_replace]
      split
      · next hsame =>
        rw [← at?_of_ne_nil h] at hthere
        have hother := hnumbers.isSome_of_sameFile hsame hthere
        rw [at?_of_ne_nil hq] at hother
        obtain ⟨x, hx⟩ := Option.isSome_iff_exists.mp hother
        rw [hx]
        rfl
      · rfl
    · next hnew =>
      rw [Option.not_isSome_iff_eq_none] at hnew
      rw [List.lookup_append]
      by_cases heq : q = place
      · subst heq
        simp [hnew, sameFile_self]
      · have hne : (q == place) = false := by simpa using heq
        have hother : ¬ files.sameFile place q = true := fun hsame =>
          heq (hnumbers.eq_of_sameFile hsame fun text mode hfile => by
            rw [at?_of_ne_nil h, hnew] at hfile
            cases hfile)
        simp [hother, List.lookup_cons, hne]

/-- What is put at a place stands there. -/
theorem at?_set_self (hnumbers : files.Numbered) (h : place ≠ []) :
    (files.set place e).at? place = some e := by
  rw [at?_set hnumbers h, if_pos (sameFile_self ..)]

/-- Where there was nothing, setting an entry changes nothing else. -/
theorem at?_set_of_none (hnumbers : files.Numbered) (h : place ≠ []) (hnone : files.at? place = none) :
    (files.set place e).at? q = if q = place then some e else files.at? q := by
  have hiff : files.sameFile place q = true ↔ q = place := by
    constructor
    · intro hsame
      exact hnumbers.eq_of_sameFile hsame fun text mode hfile => by simp [hnone] at hfile
    · rintro rfl
      exact sameFile_self ..
  rw [at?_set hnumbers h]
  simp only [hiff]

/-- A place is added to the places when something is put there for the first time. -/
theorem places_set :
    (files.set place e).places =
      if place ∈ files.places then files.places else files.places ++ [place] := by
  unfold Files.set places
  dsimp only
  by_cases h : place ∈ files.entries.map Prod.fst
  · rw [if_pos (lookup_isSome_iff.mpr h), if_pos h, List.map_map]
    apply List.map_congr_left
    intro entry _
    obtain ⟨p, x⟩ := entry
    dsimp only [Function.comp]
    split <;> rfl
  · have hnone : ¬ (files.entries.lookup place).isSome = true := fun hs =>
      h (lookup_isSome_iff.mp hs)
    rw [if_neg hnone, if_neg h]
    simp

/-! ## What setting an entry leaves alone -/

/-- Files that differ in nothing but their entries. -/
structure SameSetting (files now : Files) : Prop where
  here : now.here = files.here
  numbers : now.numbers = files.numbers
  refusal? : now.refusal? = files.refusal?

/-- Putting an entry somewhere leaves the setting as it is. -/
theorem sameSetting_set : files.SameSetting (files.set place e) :=
  ⟨rfl, rfl, rfl⟩

namespace SameSetting

variable {mid now : Files}

/-- The setting of files is their own. -/
theorem refl (files : Files) : files.SameSetting files :=
  ⟨rfl, rfl, rfl⟩

/-- Two states have their setting in common in both directions. -/
theorem symm (h : files.SameSetting now) : now.SameSetting files :=
  ⟨h.here.symm, h.numbers.symm, h.refusal?.symm⟩

/-- The setting stays over two changes if it stays over each. -/
theorem trans (h : files.SameSetting mid) (h' : mid.SameSetting now) : files.SameSetting now :=
  ⟨h'.here.trans h.here, h'.numbers.trans h.numbers, h'.refusal?.trans h.refusal?⟩

/-- In one setting the same places are names of one file. -/
theorem sameFile (h : files.SameSetting now) (p q : Place) : now.sameFile p q = files.sameFile p q := by
  unfold Files.sameFile
  rw [h.numbers]

/-- In one setting the same accesses are refused. -/
theorem refusal?_eq (h : files.SameSetting now) (access : Access) (p : Place) :
    now.refusal? access p = files.refusal? access p := by
  rw [h.refusal?]

/-- In one setting paths start at the same place. -/
theorem origin (h : files.SameSetting now) (path : String) : now.origin path = files.origin path := by
  unfold Files.origin
  rw [h.here]

end SameSetting

/-! ## Listing a directory -/

/-- The name of a place in a directory, if it lies there. -/
def nameIn? (directory place : Place) : Option String :=
  match place.getLast? with
  | some name => if place.dropLast == directory then some name else none
  | none => none

/-- A place has a name in a directory exactly if it is the directory followed by the name. -/
theorem nameIn?_eq_some_iff {directory : Place} {name : String} :
    nameIn? directory place = some name ↔ place = directory ++ [name] := by
  unfold nameIn?
  constructor
  · intro h
    split at h
    · next last hlast =>
      split at h
      · next hdirectory =>
        cases h
        have hne : place ≠ [] := by
          rintro rfl
          cases hlast
        have hget : place.getLast hne = name := by
          rw [List.getLast?_eq_some_getLast hne] at hlast
          exact Option.some.inj hlast
        rw [← beq_iff_eq.mp hdirectory, ← hget, List.dropLast_append_getLast]
      · cases h
    · cases h
  · rintro rfl
    simp

/-- A directory lists the names that the places have in it. -/
theorem list_eq (directory : Place) :
    files.list directory = files.places.filterMap (nameIn? directory) := by
  unfold list places
  rw [List.filterMap_map]
  rfl

/-- A name is listed in a directory exactly if it leads to a place there. -/
theorem mem_list_iff {directory : Place} {name : String} :
    name ∈ files.list directory ↔ directory ++ [name] ∈ files.places := by
  rw [list_eq, List.mem_filterMap]
  constructor
  · rintro ⟨p, hp, hname⟩
    rw [nameIn?_eq_some_iff.mp hname] at hp
    exact hp
  · intro h
    exact ⟨_, h, nameIn?_eq_some_iff.mpr rfl⟩

/-- No name is listed twice, if no place is. -/
theorem nodup_list (h : files.places.Nodup) (directory : Place) :
    (files.list directory).Nodup := by
  rw [list_eq]
  apply List.Nodup.filterMap _ h
  intro p p' name hp hp'
  rw [nameIn?_eq_some_iff.mp hp, nameIn?_eq_some_iff.mp hp']

/-- Setting an entry does not change the list of a directory in which it does not lie. -/
theorem list_set_of_ne {directory : Place} (h : ∀ name, place ≠ directory ++ [name]) :
    (files.set place e).list directory = files.list directory := by
  rw [list_eq, list_eq, places_set]
  split
  · rfl
  · have hnone : nameIn? directory place = none := by
      rw [Option.eq_none_iff_forall_not_mem]
      intro name hname
      exact h name (nameIn?_eq_some_iff.mp hname)
    rw [List.filterMap_append]
    simp [hnone]

end Scaffolding.Files
