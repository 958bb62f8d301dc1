import Mathlib.Data.List.Induction
import Scaffolding.Proofs.Files.Walk

/-!
# Paths below a path

Names joined to a path one by one lead further from where the path leads. What they lead to is what
a walk from the origin of the path by all the names comes to, and the way there goes through the
directory in which the last name stands.
-/

set_option autoImplicit false

namespace Scaffolding

namespace Files

/-- A name that an entry of a directory can have. -/
structure IsName (name : String) : Prop extends IsStep name where
  no_slash : '/' ∉ name.toList

instance (name : String) : Decidable (IsName name) :=
  decidable_of_iff
    (name ≠ "" ∧ name ≠ "." ∧ name ≠ ".." ∧ name.utf8ByteSize ≤ nameLimit ∧ '/' ∉ name.toList)
    ⟨fun ⟨hempty, hdot, hdots, hsize, hslash⟩ => ⟨⟨hempty, hdot, hdots, hsize⟩, hslash⟩,
      fun h => ⟨h.ne_empty, h.ne_dot, h.ne_dots, h.size_le, h.no_slash⟩⟩

/-- The path that leads further from a path by names. -/
def descend (path : String) (r : List String) : String :=
  r.foldl join path

/-- From a path, names lead to a place and to what stands there. -/
structure Leads (files : Files) (path : String) (r : List String) (place : Place) (e : Entry) :
    Prop where
  names : ∀ name ∈ r, IsName name
  found : files.find (descend path r) = .ok (place, e)

/-- No names lead to the path itself. -/
@[simp] theorem descend_nil (path : String) : descend path [] = path :=
  rfl

/-- The last of some names is joined to the path to which the names before it lead. -/
theorem descend_concat (path : String) (r : List String) (name : String) :
    descend path (r ++ [name]) = join (descend path r) name := by
  rw [descend, List.foldl_append]
  rfl

/-! ## Joining a name -/

variable {path name : String} {files : Files} {r : List String} {place : Place} {e : Entry}

/-- The names of a path are the pieces of its text that are not empty. -/
theorem names_of_toList {cs : List Char} (h : path.toList = cs) :
    names path = ((Text.splitChars '/' cs).map String.ofList).filter fun n => !n.isEmpty := by
  rw [names, Text.split, h]

/-- A name is the only name of its path. -/
theorem names_single (h : IsName name) : names name = [name] := by
  have hne : name.isEmpty = false := by simpa using h.ne_empty
  rw [names_of_toList rfl, Text.splitChars_of_not_mem h.no_slash]
  simp [hne]

/-- The names of a path are those before a slash and those behind it. -/
theorem names_slash {cs ds : List Char} (h : path.toList = cs ++ '/' :: ds) :
    names path = names (String.ofList cs) ++ names (String.ofList ds) := by
  rw [names_of_toList h, Text.splitChars_append_mark, List.map_append, List.filter_append,
    names_of_toList (String.toList_ofList), names_of_toList (String.toList_ofList)]

/-- A name does not start from the root. -/
theorem isAbsolute_eq_false (h : IsName name) : isAbsolute name = false := by
  unfold isAbsolute
  cases hcs : name.toList with
  | nil => rfl
  | cons c cs =>
    have hc : c ≠ '/' := by
      rintro rfl
      exact h.no_slash (by simp [hcs])
    simpa using hc

/-- A name is joined to a path behind one slash, its own or a new one. -/
theorem toList_join (h : IsName name) (hpath : path ≠ "") :
    ∃ cs, (join path name).toList = cs ++ '/' :: name.toList ∧
      (path.toList = cs ∨ path.toList = cs ++ ['/']) := by
  have hne : path.isEmpty = false := by simpa using hpath
  unfold join
  rw [isAbsolute_eq_false h, hne, Bool.false_or]
  cases hslash : endsInSlash path with
  | true =>
    unfold endsInSlash at hslash
    obtain ⟨cs, hcs⟩ := List.getLast?_eq_some_iff.mp (beq_iff_eq.mp hslash)
    refine ⟨cs, ?_, .inr hcs⟩
    dsimp only
    rw [String.toList_append, hcs, List.append_assoc]
    rfl
  | false =>
    refine ⟨path.toList, ?_, .inl rfl⟩
    simp

/-- Joining a name adds it to the names of the path. -/
theorem names_join (h : IsName name) (hpath : path ≠ "") :
    names (join path name) = names path ++ [name] := by
  obtain ⟨cs, hjoin, hcs | hcs⟩ := toList_join h hpath
  · rw [names_slash hjoin, String.ofList_toList, names_single h, ← hcs, String.ofList_toList]
  · have hempty : names (String.ofList []) = [] := by decide
    rw [names_slash hjoin, String.ofList_toList, names_single h, names_slash hcs, hempty,
      List.append_nil]

/-- Joining a name does not change where a path starts. -/
theorem isAbsolute_join (h : IsName name) (hpath : path ≠ "") :
    isAbsolute (join path name) = isAbsolute path := by
  obtain ⟨cs, hjoin, hcs | hcs⟩ := toList_join h hpath
  · have hne : cs ≠ [] := by
      rintro rfl
      exact hpath (String.toList_eq_nil_iff.mp hcs)
    obtain ⟨c, rest, rfl⟩ := List.exists_cons_of_ne_nil hne
    simp [isAbsolute, hjoin, hcs]
  · cases cs with
    | nil => simp [isAbsolute, hjoin, hcs]
    | cons c rest => simp [isAbsolute, hjoin, hcs]

/-- A path to which a name was joined does not end in a slash. -/
theorem endsInSlash_join (h : IsName name) (hpath : path ≠ "") :
    endsInSlash (join path name) = false := by
  obtain ⟨cs, hjoin, -⟩ := toList_join h hpath
  have hne : name.toList ≠ [] := fun hnil => h.ne_empty (String.toList_eq_nil_iff.mp hnil)
  have hlast : name.toList.getLast hne ≠ '/' := fun heq =>
    h.no_slash (heq ▸ List.getLast_mem hne)
  unfold endsInSlash
  rw [hjoin, List.getLast?_append_of_ne_nil _ (by simp), List.getLast?_cons,
    List.getLast?_eq_some_getLast hne]
  simpa using hlast

/-- A path to which a name was joined is not empty. -/
theorem join_ne_empty (h : IsName name) (hpath : path ≠ "") : join path name ≠ "" := by
  obtain ⟨cs, hjoin, -⟩ := toList_join h hpath
  intro hempty
  rw [hempty] at hjoin
  simp at hjoin

/-- A path to which a name was joined has a zero byte if either of the two has one. -/
theorem contains_join (h : IsName name) (hpath : path ≠ "") :
    (join path name).contains '\x00' = (path.contains '\x00' || name.contains '\x00') := by
  obtain ⟨cs, hjoin, hcs⟩ := toList_join h hpath
  rw [String.contains_char_eq, String.contains_char_eq, String.contains_char_eq, hjoin]
  rcases hcs with hcs | hcs <;> simp [hcs]

/-- A name takes a byte of the path at least. -/
theorem size_lt_size_join (h : IsName name) (hpath : path ≠ "") :
    path.utf8ByteSize < (join path name).utf8ByteSize := by
  have hne : path.isEmpty = false := by simpa using hpath
  have hpos : 0 < name.utf8ByteSize := by
    rw [Nat.pos_iff_ne_zero]
    exact fun hzero => h.ne_empty (String.utf8ByteSize_eq_zero_iff.mp hzero)
  unfold join
  rw [isAbsolute_eq_false h, hne, Bool.false_or]
  cases endsInSlash path with
  | true =>
    dsimp only
    rw [String.utf8ByteSize_append]
    omega
  | false =>
    dsimp only
    rw [String.utf8ByteSize_append, String.utf8ByteSize_append]
    omega

/-! ## Leading further -/

/-- A path that the system looks at: there is something in it, no NUL, and not too much. -/
structure IsLegal (path : String) : Prop where
  ne_empty : path ≠ ""
  no_nul : path.contains '\x00' = false
  short : path.utf8ByteSize ≤ pathLimit

/-- A legal path is walked name by name. -/
theorem resolve_eq_walk (h : IsLegal path) :
    files.resolve path = files.walk true linkLimit (files.origin path) (steps path) := by
  have hne : ¬ path.isEmpty = true := by simpa using h.ne_empty
  have hnul : ¬ path.contains '\x00' = true := by simp [h.no_nul]
  rw [resolve, if_neg hne, if_neg hnul, if_neg (Nat.not_lt.mpr h.short)]

/-- A path leads to a place exactly if it is legal and its names can be walked to the place. -/
theorem resolve_eq_ok_iff : files.resolve path = .ok place ↔
    IsLegal path ∧ Walks files true linkLimit (files.origin path) (steps path) place := by
  constructor
  · intro hresolve
    have hlegal : IsLegal path := by
      rw [resolve] at hresolve
      split at hresolve
      · cases hresolve
      · next hne =>
        split at hresolve
        · cases hresolve
        · next hnul =>
          split at hresolve
          · cases hresolve
          · next hshort => exact ⟨by simpa using hne, by simpa using hnul, Nat.not_lt.mp hshort⟩
    rw [resolve_eq_walk hlegal, walk_eq_ok_iff] at hresolve
    exact ⟨hlegal, hresolve⟩
  · rintro ⟨hlegal, hwalk⟩
    rw [resolve_eq_walk hlegal, walk_eq_ok_iff]
    exact hwalk

/-- What it takes to lead somewhere by a walk from the origin of a path. -/
theorem find_eq_ok_iff : files.find path = .ok (place, e) ↔
    IsLegal path ∧ Walks files true linkLimit (files.origin path) (steps path) place ∧
      files.at? place = some e := by
  have hfind : files.find path = .ok (place, e) ↔
      files.resolve path = .ok place ∧ files.at? place = some e := by
    unfold find
    cases files.resolve path with
    | error err => simp [bind, Except.bind]
    | ok p =>
      simp only [bind, Except.bind]
      constructor
      · intro h
        split at h
        · next x hx =>
          cases h
          exact ⟨rfl, hx⟩
        · cases h
      · rintro ⟨hp, he⟩
        cases hp
        rw [he]
        rfl
  rw [hfind, resolve_eq_ok_iff, and_assoc]

/-- Two paths that both start from the root, or both do not, start at the same place. -/
theorem origin_eq_of_isAbsolute {path' : String} (h : isAbsolute path' = isAbsolute path) :
    files.origin path' = files.origin path := by
  unfold origin
  rw [h]

/-- A path starts at a directory. -/
theorem hasDirectory_origin (htree : files.IsTree) (path : String) :
    files.hasDirectory (files.origin path) = true := by
  unfold origin
  split
  · rfl
  · exact htree.here

/-- No name of a path is empty. -/
theorem empty_not_mem_names (path : String) : "" ∉ names path := by
  intro hmem
  have hname := (List.mem_filter.mp hmem).2
  simp at hname

/-- A walk by the names of a path to a directory is one by the path, with a slash at its end or
not. -/
theorem walks_steps (h : Walks files true linkLimit (files.origin path) (names path) place)
    (hplace : files.hasDirectory place = true) :
    Walks files true linkLimit (files.origin path) (steps path) place := by
  unfold steps
  cases endsInSlash path with
  | true => exact h.append_slash hplace
  | false =>
    rw [cond_false, List.append_nil]
    exact h

section

variable (hpath : path ≠ "")

include hpath

/-- A path does not become empty by going further. -/
theorem descend_ne_empty (h : ∀ name ∈ r, IsName name) : descend path r ≠ "" := by
  induction r using List.reverseRecOn with
  | nil => exact hpath
  | append_singleton r name ih =>
    rw [List.forall_mem_append, List.forall_mem_singleton] at h
    rw [descend_concat]
    exact join_ne_empty h.2 (ih h.1)

/-- Going further adds the names to those of the path. -/
theorem names_descend (h : ∀ name ∈ r, IsName name) : names (descend path r) = names path ++ r := by
  induction r using List.reverseRecOn with
  | nil => simp
  | append_singleton r name ih =>
    rw [List.forall_mem_append, List.forall_mem_singleton] at h
    rw [descend_concat, names_join h.2 (descend_ne_empty hpath h.1), ih h.1, List.append_assoc]

/-- Going further does not change where a path starts. -/
theorem origin_descend (h : ∀ name ∈ r, IsName name) :
    files.origin (descend path r) = files.origin path := by
  induction r using List.reverseRecOn with
  | nil => rfl
  | append_singleton r name ih =>
    rw [List.forall_mem_append, List.forall_mem_singleton] at h
    rw [descend_concat, ← ih h.1]
    exact origin_eq_of_isAbsolute (isAbsolute_join h.2 (descend_ne_empty hpath h.1))

/-- A path that goes further has a zero byte if the path or one of the names has one. -/
theorem contains_descend (h : ∀ name ∈ r, IsName name) :
    (descend path r).contains '\x00' = false ↔
      path.contains '\x00' = false ∧ ∀ name ∈ r, name.contains '\x00' = false := by
  induction r using List.reverseRecOn with
  | nil => simp
  | append_singleton r name ih =>
    rw [List.forall_mem_append, List.forall_mem_singleton] at h
    rw [descend_concat, contains_join h.2 (descend_ne_empty hpath h.1), Bool.or_eq_false_iff, ih h.1,
      List.forall_mem_append, List.forall_mem_singleton, and_assoc]

/-- A path that goes further does not end in a slash. -/
theorem endsInSlash_descend (h : ∀ name ∈ r, IsName name) (hr : r ≠ []) :
    endsInSlash (descend path r) = false := by
  obtain ⟨r, name, rfl⟩ := (List.eq_nil_or_concat' r).resolve_left hr
  rw [List.forall_mem_append, List.forall_mem_singleton] at h
  rw [descend_concat]
  exact endsInSlash_join h.2 (descend_ne_empty hpath h.1)

/-- A path that goes further is walked by its names and the names that were added. -/
theorem steps_descend (h : ∀ name ∈ r, IsName name) (hr : r ≠ []) :
    steps (descend path r) = names path ++ r := by
  rw [steps, names_descend hpath h, endsInSlash_descend hpath h hr, cond_false, List.append_nil]

/-- Each name takes a byte of the path. -/
theorem length_le_size_descend (h : ∀ name ∈ r, IsName name) :
    r.length ≤ (descend path r).utf8ByteSize := by
  induction r using List.reverseRecOn with
  | nil => exact Nat.zero_le _
  | append_singleton r name ih =>
    rw [List.forall_mem_append, List.forall_mem_singleton] at h
    have hlt := size_lt_size_join h.2 (descend_ne_empty hpath h.1)
    have hle := ih h.1
    rw [descend_concat, List.length_append, List.length_singleton]
    omega

/-- The path by names is legal if it is not too long. -/
theorem isLegal_descend (h : ∀ name ∈ r, IsName name) : IsLegal (descend path r) ↔
    path.contains '\x00' = false ∧ (∀ name ∈ r, name.contains '\x00' = false) ∧
      (descend path r).utf8ByteSize ≤ pathLimit := by
  rw [← and_assoc, ← contains_descend hpath h]
  constructor
  · intro hlegal
    exact ⟨hlegal.no_nul, hlegal.short⟩
  · rintro ⟨hnul, hshort⟩
    exact ⟨descend_ne_empty hpath h, hnul, hshort⟩

/-- To where names lead from a path, and to what, is a matter of one walk. -/
theorem leads_iff (hr : r ≠ []) : files.Leads path r place e ↔
    (∀ name ∈ r, IsName name) ∧ IsLegal (descend path r) ∧
      Walks files true linkLimit (files.origin path) (names path ++ r) place ∧
      files.at? place = some e := by
  constructor
  · rintro ⟨h, hfound⟩
    obtain ⟨hlegal, hwalk, hat⟩ := find_eq_ok_iff.mp hfound
    rw [steps_descend hpath h hr, origin_descend hpath h] at hwalk
    exact ⟨h, hlegal, hwalk, hat⟩
  · rintro ⟨h, hlegal, hwalk, hat⟩
    refine ⟨h, find_eq_ok_iff.mpr ⟨hlegal, ?_, hat⟩⟩
    rw [steps_descend hpath h hr, origin_descend hpath h]
    exact hwalk

end

namespace Leads

/-- What a path leads to stands at the place. -/
theorem at? (h : files.Leads path r place e) : files.at? place = some e :=
  (find_eq_ok_iff.mp h.found).2.2

/-- There is something where a path leads. -/
theorem isSome_at? (h : files.Leads path r place e) : (files.at? place).isSome = true := by
  rw [h.at?]
  rfl

/-- A path leads to one place and one entry. -/
theorem unique {place' : Place} {e' : Entry} (h : files.Leads path r place e)
    (h' : files.Leads path r place' e') : place' = place ∧ e' = e := by
  have heq := h'.found.symm.trans h.found
  cases heq
  exact ⟨rfl, rfl⟩

/-- A path that leads somewhere is legal. -/
theorem isLegal (h : files.Leads path r place e) : IsLegal (descend path r) :=
  (find_eq_ok_iff.mp h.found).1

/-- A path that leads somewhere is not empty. -/
theorem path_ne_empty (h : files.Leads path [] place e) : path ≠ "" :=
  h.isLegal.ne_empty

/-- In a tree no path leads to a link. -/
theorem not_link (htree : files.IsTree) (h : files.Leads path r place e) (target : String) :
    e ≠ .link target := by
  obtain ⟨-, hwalk, hat⟩ := find_eq_ok_iff.mp h.found
  rintro rfl
  exact hwalk.not_link htree (hasDirectory_origin htree _) target hat

/-- Where a path leads its names can be walked to. -/
theorem walks (hpath : path ≠ "") (h : files.Leads path r place e) :
    Walks files true linkLimit (files.origin path) (Files.names path ++ r) place := by
  by_cases hr : r = []
  · subst hr
    obtain ⟨-, hwalk, -⟩ := find_eq_ok_iff.mp h.found
    rw [List.append_nil]
    exact hwalk.undot (.of_steps path)
  · exact ((leads_iff hpath hr).mp h).2.2.1

/-- A path that leads somewhere has no zero byte, nor have the names. -/
theorem no_nul (hpath : path ≠ "") (h : files.Leads path r place e) :
    path.contains '\x00' = false ∧ ∀ name ∈ r, name.contains '\x00' = false := by
  obtain ⟨hfirst, hrest, -⟩ := (isLegal_descend hpath h.names).mp h.isLegal
  exact ⟨hfirst, hrest⟩

/-- What names lead to stands in a directory to which all but the last of them lead. It is what stands
there at the last name, unless that is a link. -/
theorem exists_parent (htree : files.IsTree) {start : Place}
    (hstart : files.Leads path [] start .directory) (h : files.Leads path (r ++ [name]) place e) :
    ∃ d, files.Leads path r d .directory ∧
      (place = d ++ [name] ∨ ∃ target, files.at? (d ++ [name]) = some (.link target)) := by
  have hpath := hstart.path_ne_empty
  have hwalk := h.walks hpath
  rw [← List.append_assoc] at hwalk
  have hnames := h.names
  rw [List.forall_mem_append, List.forall_mem_singleton] at hnames
  obtain ⟨d, links, hd, hdirectory, hlast⟩ := hwalk.split htree hnames.2.toIsStep
    (hasDirectory_origin htree path)
  refine ⟨d, ?_, hlast.single hnames.2.toIsStep⟩
  by_cases hr : r = []
  · subst hr
    have hwalk := hstart.walks hpath
    cases hwalk.unique hd
    exact hstart
  · have hshort : (descend path r).utf8ByteSize ≤ pathLimit := by
      have hlt := size_lt_size_join hnames.2 (descend_ne_empty hpath hnames.1)
      rw [← descend_concat] at hlt
      exact Nat.le_trans (Nat.le_of_lt hlt) h.isLegal.short
    obtain ⟨hfirst, hrest⟩ := h.no_nul hpath
    rw [List.forall_mem_append] at hrest
    exact (leads_iff hpath hr).mpr ⟨hnames.1,
      (isLegal_descend hpath hnames.1).mpr ⟨hfirst, hrest.1, hshort⟩, hd,
      hasDirectory_iff.mp hdirectory⟩

/-- What names lead to has its last name in the list of the directory to which the others lead. -/
theorem parent (htree : files.IsTree) {start : Place} (hstart : files.Leads path [] start .directory)
    (h : files.Leads path (r ++ [name]) place e) :
    ∃ d, files.Leads path r d .directory ∧ name ∈ files.list d := by
  obtain ⟨d, hd, hentry⟩ := hstart.exists_parent htree h
  refine ⟨d, hd, ?_⟩
  rw [mem_list_iff, ← isSome_at?_iff (by simp)]
  rcases hentry with rfl | ⟨target, hlink⟩
  · exact h.isSome_at?
  · rw [hlink]
    rfl

/-- Everything on the way leads to a directory, and has the next name in its list. -/
theorem before (htree : files.IsTree) {start : Place} {q : List String}
    (hstart : files.Leads path [] start .directory) (h : files.Leads path (r ++ name :: q) place e) :
    ∃ d, files.Leads path r d .directory ∧ name ∈ files.list d := by
  induction q using List.reverseRecOn generalizing place e with
  | nil => exact hstart.parent htree h
  | append_singleton q last ih =>
    have hsplit : r ++ name :: (q ++ [last]) = (r ++ name :: q) ++ [last] := by simp
    rw [hsplit] at h
    obtain ⟨d, hd, -⟩ := hstart.parent htree h
    exact ih hd

/-- Names lead to the same when more was made, if what they lead to is the same. -/
theorem grows {now : Files} (h : files.Leads path r place e) (hgrows : files.Grows now)
    (hsame : now.at? place = files.at? place) : now.Leads path r place e := by
  obtain ⟨hlegal, hwalk, hat⟩ := find_eq_ok_iff.mp h.found
  refine ⟨h.names, find_eq_ok_iff.mpr ⟨hlegal, ?_, hsame.trans hat⟩⟩
  rw [hgrows.setting.origin]
  exact hwalk.grows hgrows h.isSome_at?

end Leads

/-- The path of the root leads there. -/
theorem leads_root (files : Files) : files.Leads "/" [] [] .directory := by
  have hsteps : steps "/" = [""] := by decide
  have hlegal : IsLegal "/" := ⟨by decide, by simp [String.contains_char_eq], by decide⟩
  refine ⟨by simp, find_eq_ok_iff.mpr ⟨hlegal, ?_, rfl⟩⟩
  rw [descend_nil, hsteps]
  exact .slash rfl (.arrived _ _)

end Files

end Scaffolding
