import Scaffolding.Proofs.Files.Entries

/-!
# Walks that arrive

A walk that arrives at a place does one thing after the other: it stays in a directory, goes up, goes
into a directory, goes through a link, and ends at something that is no directory. Each of these takes
a directory that may be searched. Told as a relation, with one rule for each, it can be argued about by
induction on the walk.

A single dot changes nothing but that the directory is searched, walks can be put together at a
directory and taken apart before their last name, and a walk arrives again when more was made.
-/

set_option autoImplicit false

namespace Scaffolding.Files

/-- A name that stands for itself and is not too long. -/
structure IsStep (name : String) : Prop where
  ne_empty : name ≠ ""
  ne_dot : name ≠ "."
  ne_dots : name ≠ ".."
  size_le : name.utf8ByteSize ≤ nameLimit

/-- A walk may end at a place: there is no directory to go into and no link to go through. -/
structure IsEnd (files : Files) (follow : Bool) (place : Place) : Prop where
  not_directory : files.at? place ≠ some .directory
  not_followed : ∀ target, files.at? place = some (.link target) → follow = false

/-- What is left to walk at a link. A slash at its end asks for a directory. -/
def detour (target : String) (rest : List String) : List String :=
  names target ++ if endsInSlash target && rest.isEmpty then [""] else rest

/-- Where a link starts that stands in a directory. -/
def detourFrom (target : String) (place : Place) : Place :=
  if isAbsolute target then [] else place

/-- The directory at a place may be searched. -/
def MaySearch (files : Files) (place : Place) : Prop :=
  files.refusal? .search place = none

/-- Walks that arrive. -/
inductive Walks (files : Files) (follow : Bool) : Nat → Place → List String → Place → Prop
  | arrived (links : Nat) (place : Place) : Walks files follow links place [] place
  | slash {links : Nat} {place p : Place} {rest : List String}
      (here : files.hasDirectory place = true) (next : Walks files follow links place rest p) :
      Walks files follow links place ("" :: rest) p
  | stay {links : Nat} {place p : Place} {rest : List String} (search : files.MaySearch place)
      (here : files.hasDirectory place = true) (next : Walks files follow links place rest p) :
      Walks files follow links place ("." :: rest) p
  | up {links : Nat} {place p : Place} {rest : List String} (search : files.MaySearch place)
      (next : Walks files follow links place.dropLast rest p) :
      Walks files follow links place (".." :: rest) p
  | last {links : Nat} {place : Place} {name : String} (search : files.MaySearch place)
      (step : IsStep name) (ends : IsEnd files follow (place ++ [name])) :
      Walks files follow links place [name] (place ++ [name])
  | into {links : Nat} {place p : Place} {name : String} {rest : List String}
      (search : files.MaySearch place) (step : IsStep name)
      (there : files.at? (place ++ [name]) = some .directory)
      (next : Walks files follow links (place ++ [name]) rest p) :
      Walks files follow links place (name :: rest) p
  | through {links : Nat} {place p : Place} {name target : String} {rest : List String}
      (search : files.MaySearch place) (step : IsStep name)
      (there : files.at? (place ++ [name]) = some (.link target))
      (followed : rest = [] → follow = true)
      (allowed : files.refusal? .follow (place ++ [name]) = none) (leads : target ≠ "")
      (next : Walks files follow links (detourFrom target place) (detour target rest) p) :
      Walks files follow (links + 1) place (name :: rest) p

variable {files : Files} {follow : Bool} {links : Nat} {place p : Place} {ns : List String}

/-- There is a directory at a place exactly if it is what stands there. -/
theorem hasDirectory_iff : files.hasDirectory place = true ↔ files.at? place = some .directory := by
  simp [hasDirectory]

/-! ## The steps of a walk -/

/-- A slash at the end leads to the directory itself. -/
theorem walk_slash (h : files.hasDirectory place = true) (rest : List String) :
    files.walk follow links place ("" :: rest) = files.walk follow links place rest := by
  rw [walk, if_pos h]

/-- A single dot leads to the directory itself. -/
theorem walk_stay (h : files.MaySearch place) (here : files.hasDirectory place = true)
    (rest : List String) :
    files.walk follow links place ("." :: rest) = files.walk follow links place rest := by
  rw [walk, h]
  · dsimp only
    rw [if_pos rfl, if_pos here]
  · decide

/-- Two dots lead to the parent. -/
theorem walk_up (h : files.MaySearch place) (rest : List String) :
    files.walk follow links place (".." :: rest) = files.walk follow links place.dropLast rest := by
  rw [walk, h]
  · rfl
  · decide

/-- What a name does on a walk depends on what stands at it. -/
theorem walk_step {name : String} (h : files.MaySearch place) (hstep : IsStep name)
    (rest : List String) :
    files.walk follow links place (name :: rest) =
      match files.at? (place ++ [name]) with
      | none => if rest.isEmpty then .ok (place ++ [name]) else .error .noEntry
      | some .directory => files.walk follow links (place ++ [name]) rest
      | some (.file ..) => if rest.isEmpty then .ok (place ++ [name]) else .error .notDirectory
      | some (.link target) =>
        if rest.isEmpty && !follow then .ok (place ++ [name])
        else
          match links with
          | 0 => .error .tooManyLinks
          | links + 1 =>
            match files.refusal? .follow (place ++ [name]) with
            | some e => .error e
            | none =>
              if target.isEmpty then .error .noEntry
              else files.walk follow links (detourFrom target place) (detour target rest) := by
  rw [walk, h]
  · dsimp only
    rw [if_neg hstep.ne_dot, if_neg hstep.ne_dots, if_neg (Nat.not_lt.mpr hstep.size_le)]
    rfl
  · exact hstep.ne_empty

/-- A walk by a link goes on by what the link says. -/
theorem walk_through {name target : String} {rest : List String} (h : files.MaySearch place)
    (hstep : IsStep name) (hlink : files.at? (place ++ [name]) = some (.link target))
    (hfollow : rest = [] → follow = true)
    (hallowed : files.refusal? .follow (place ++ [name]) = none) (hleads : target ≠ "") :
    files.walk follow (links + 1) place (name :: rest) =
      files.walk follow links (detourFrom target place) (detour target rest) := by
  have hgo : (rest.isEmpty && !follow) = false := by
    cases rest with
    | nil => simp [hfollow rfl]
    | cons _ _ => rfl
  rw [walk_step h hstep, hlink]
  simp only [hgo, Bool.false_eq_true, if_false, hallowed]
  rw [if_neg (by simpa using hleads)]

/-- The relation tells of walks that arrive. -/
theorem Walks.walk_eq (h : Walks files follow links place ns p) :
    files.walk follow links place ns = .ok p := by
  induction h with
  | arrived => rw [walk]
  | slash here _ ih => rw [walk_slash here, ih]
  | stay search here _ ih => rw [walk_stay search here, ih]
  | up search _ ih => rw [walk_up search, ih]
  | @last links place name search step ends =>
    rw [walk_step search step]
    cases hat : files.at? (place ++ [name]) with
    | none => rfl
    | some entry =>
      cases entry with
      | file text mode => rfl
      | directory => exact absurd hat ends.not_directory
      | link target => simp [ends.not_followed target hat]
  | into search step there _ ih =>
    rw [walk_step search step, there]
    exact ih
  | through search step there followed allowed leads _ ih =>
    rw [walk_through search step there followed allowed leads, ih]

/-- It tells of all walks that arrive. -/
theorem walks_of_walk_eq (h : files.walk follow links place ns = .ok p) :
    Walks files follow links place ns p := by
  induction links, place, ns using walk.induct files follow with
  | case1 links place =>
    rw [walk] at h
    cases h
    exact .arrived _ _
  | case2 links place rest here ih =>
    rw [walk_slash here] at h
    exact .slash here (ih h)
  | case3 links place rest here =>
    rw [walk, if_neg here] at h
    cases h
  | case4 links place name rest hempty e hrefused =>
    rw [walk, hrefused] at h
    · cases h
    · exact hempty
  | case5 links place rest search here hempty ih =>
    rw [walk_stay search here] at h
    exact .stay search here (ih h)
  | case6 links place rest search here hempty =>
    rw [walk, search] at h
    · dsimp only at h
      rw [if_pos rfl, if_neg here] at h
      cases h
    · exact hempty
  | case7 links place rest search hdot hempty ih =>
    rw [walk_up search] at h
    exact .up search (ih h)
  | case8 links place name rest hempty search hdot hdots hlong =>
    rw [walk, search] at h
    · dsimp only at h
      rw [if_neg hdot, if_neg hdots, if_pos hlong] at h
      cases h
    · exact hempty
  | case9 links place name rest hempty search hdot hdots hshort next hnone hrest =>
    have step : IsStep name := ⟨hempty, hdot, hdots, Nat.not_lt.mp hshort⟩
    rw [List.isEmpty_iff] at hrest
    subst hrest
    rw [walk_step search step, hnone] at h
    cases h
    exact .last search step ⟨by simp [hnone, next], by simp [hnone, next]⟩
  | case10 links place name rest hempty search hdot hdots hshort next hnone hrest =>
    have step : IsStep name := ⟨hempty, hdot, hdots, Nat.not_lt.mp hshort⟩
    rw [walk_step search step, hnone] at h
    simp only [if_neg hrest] at h
    cases h
  | case11 links place name rest hempty search hdot hdots hshort next there ih =>
    have step : IsStep name := ⟨hempty, hdot, hdots, Nat.not_lt.mp hshort⟩
    rw [walk_step search step, there] at h
    exact .into search step there (ih h)
  | case12 links place name rest hempty search hdot hdots hshort next text mode hfile hrest =>
    have step : IsStep name := ⟨hempty, hdot, hdots, Nat.not_lt.mp hshort⟩
    rw [List.isEmpty_iff] at hrest
    subst hrest
    rw [walk_step search step, hfile] at h
    cases h
    exact .last search step ⟨by simp [hfile, next], by simp [hfile, next]⟩
  | case13 links place name rest hempty search hdot hdots hshort next text mode hfile hrest =>
    have step : IsStep name := ⟨hempty, hdot, hdots, Nat.not_lt.mp hshort⟩
    rw [walk_step search step, hfile] at h
    simp only [if_neg hrest] at h
    cases h
  | case14 links place name rest hempty search hdot hdots hshort next target hlink hkept =>
    have step : IsStep name := ⟨hempty, hdot, hdots, Nat.not_lt.mp hshort⟩
    rw [walk_step search step, hlink] at h
    simp only [if_pos hkept] at h
    cases h
    simp only [Bool.and_eq_true, List.isEmpty_iff, Bool.not_eq_true'] at hkept
    obtain ⟨rfl, hfollow⟩ := hkept
    exact .last search step ⟨by simp [hlink, next], fun _ _ => hfollow⟩
  | case15 place name rest hempty search hdot hdots hshort next target hlink hfollow =>
    have step : IsStep name := ⟨hempty, hdot, hdots, Nat.not_lt.mp hshort⟩
    rw [walk_step search step, hlink] at h
    simp only [if_neg hfollow] at h
    cases h
  | case16 place name rest hempty search hdot hdots hshort next target hlink hfollow links e hrefused =>
    have step : IsStep name := ⟨hempty, hdot, hdots, Nat.not_lt.mp hshort⟩
    rw [walk_step search step, hlink] at h
    simp only [if_neg hfollow, next, hrefused] at h
    cases h
  | case17 place name rest hempty search hdot hdots hshort next target hlink hfollow links hallowed
      hleads =>
    have step : IsStep name := ⟨hempty, hdot, hdots, Nat.not_lt.mp hshort⟩
    rw [walk_step search step, hlink] at h
    simp only [if_neg hfollow, next, hallowed, if_pos hleads] at h
    cases h
  | case18 place name rest hempty search hdot hdots hshort next target hlink hfollow links hallowed
      hleads ih =>
    have step : IsStep name := ⟨hempty, hdot, hdots, Nat.not_lt.mp hshort⟩
    have hfollowed : rest = [] → follow = true := by
      rintro rfl
      simpa using hfollow
    have hleads : target ≠ "" := by simpa using hleads
    rw [walk_through search step hlink hfollowed hallowed hleads] at h
    exact .through search step hlink hfollowed hallowed hleads (ih h)

/-- The relation tells the walks that arrive, and no others. -/
theorem walk_eq_ok_iff :
    files.walk follow links place ns = .ok p ↔ Walks files follow links place ns p :=
  ⟨walks_of_walk_eq, Walks.walk_eq⟩

/-- A walk arrives at one place. -/
theorem Walks.unique {q : Place} (h : Walks files follow links place ns p)
    (h' : Walks files follow links place ns q) : q = p := by
  have heq := h'.walk_eq.symm.trans h.walk_eq
  cases heq
  rfl

/-! ## Dots -/

/-- Names without the single dots among them. -/
def undotted (ns : List String) : List String :=
  ns.filter (· != ".")

/-- A single dot does not count. -/
theorem undotted_dot (rest : List String) : undotted ("." :: rest) = undotted rest := by
  simp [undotted]

/-- A name other than a single dot counts. -/
theorem undotted_cons {name : String} (h : name ≠ ".") (rest : List String) :
    undotted (name :: rest) = name :: undotted rest := by
  simp [undotted, h]

/-- A beginning of names without dots has no dots. -/
theorem undotted_left {xs ys : List String} (h : undotted ns = xs ++ ys) : undotted xs = xs := by
  unfold undotted
  rw [List.filter_eq_self]
  intro n hn
  have hmem : n ∈ undotted ns := h ▸ List.mem_append_left _ hn
  exact (List.mem_filter.mp hmem).2

/-- Lists of names of which the second one lacks some single dots and empty names, or only asks for a
directory where there is a dot. -/
inductive Undot : List String → List String → Prop
  | nil : Undot [] []
  | keep (name : String) {xs ys : List String} (rest : Undot xs ys) :
      Undot (name :: xs) (name :: ys)
  | drop {name : String} {xs ys : List String} (dot : name = "." ∨ name = "")
      (rest : Undot xs ys) : Undot (name :: xs) ys
  | loosen {dot slash : String} {xs ys : List String} (dots : dot = ".") (slashes : slash = "")
      (rest : Undot xs ys) : Undot (dot :: xs) (slash :: ys)

namespace Undot

variable {xs ys : List String}

/-- Names lead as far as they are. -/
theorem refl (xs : List String) : Undot xs xs := by
  induction xs with
  | nil => exact .nil
  | cons name xs ih => exact .keep name ih

/-- Dots alone do not make names. -/
theorem ne_nil (h : Undot xs ys) (hys : ys ≠ []) : xs ≠ [] := by
  rintro rfl
  cases h
  exact hys rfl

/-- The same names may stand in front. -/
theorem append_left (zs : List String) (h : Undot xs ys) : Undot (zs ++ xs) (zs ++ ys) := by
  induction zs with
  | nil => exact h
  | cons name zs ih => exact .keep name ih

/-- Names lead as far as without their dots. -/
theorem of_undotted (xs : List String) : Undot xs (undotted xs) := by
  induction xs with
  | nil => exact .nil
  | cons name xs ih =>
    by_cases h : name = "."
    · subst h
      rw [undotted_dot]
      exact .drop (.inl rfl) ih
    · rw [undotted_cons h]
      exact .keep name ih

/-- The empty name for a slash can be left out. -/
theorem of_steps (path : String) : Undot (Files.steps path) (names path) := by
  have htail : Undot (bif endsInSlash path then [""] else []) [] := by
    cases endsInSlash path with
    | true => exact .drop (.inr rfl) .nil
    | false => exact .nil
  have h := htail.append_left (names path)
  rw [List.append_nil] at h
  exact h

/-- What is left to walk at a link lacks the same dots. -/
theorem detour (target : String) (h : Undot xs ys) :
    Undot (detour target xs) (detour target ys) := by
  apply append_left
  cases h with
  | nil => exact refl _
  | keep name rest => simpa using rest.keep name
  | loosen dot slash rest => simpa using rest.loosen dot slash
  | @drop name xs ys dot rest =>
    rw [List.isEmpty_cons, Bool.and_false, if_neg Bool.false_ne_true]
    split
    · next hslash =>
      simp only [Bool.and_eq_true, List.isEmpty_iff] at hslash
      rw [hslash.2] at rest
      -- the name that is left out stands for the slash at the end of the link
      rcases dot with rfl | rfl
      · exact .loosen rfl rfl rest
      · exact .keep "" rest
    · exact .drop dot rest

/-- Nor is the empty name needed that stands for a slash at the end of the link. -/
theorem detour_names (target : String) (h : Undot xs ys) :
    Undot (Files.detour target xs) (names target ++ ys) := by
  apply append_left
  split
  · next hslash =>
    simp only [Bool.and_eq_true, List.isEmpty_iff] at hslash
    rw [hslash.2] at h
    cases h
    exact .drop (.inr rfl) .nil
  · exact h

end Undot

/-- Where names are walked, dots and slashes make no step. -/
theorem IsStep.not_dot {name : String} (h : IsStep name) : ¬ (name = "." ∨ name = "") :=
  not_or.mpr ⟨h.ne_dot, h.ne_empty⟩

namespace Walks

/-- From the directory at which a walk arrives, one can walk on, also without some of the dots on the
way there. -/
theorem append_undot {d : Place} {xs ys : List String} (h : Walks files true links place ns d)
    (hd : files.hasDirectory d = true) (hys : ys ≠ [])
    (hnext : ∀ links, Walks files follow links d ys p) (hdots : Undot ns xs) :
    Walks files follow links place (xs ++ ys) p := by
  induction h generalizing xs with
  | arrived =>
    cases hdots
    exact hnext _
  | slash here _ ih =>
    cases hdots with
    | keep _ rest => exact .slash here (ih hd hnext rest)
    | drop _ rest => exact ih hd hnext rest
    | loosen dot => simp at dot
  | stay search here _ ih =>
    cases hdots with
    | keep _ rest => exact .stay search here (ih hd hnext rest)
    | drop _ rest => exact ih hd hnext rest
    | loosen _ slash rest => exact slash ▸ .slash here (ih hd hnext rest)
  | up search _ ih =>
    cases hdots with
    | keep _ rest => exact .up search (ih hd hnext rest)
    | drop dot => simp at dot
    | loosen dot => simp at dot
  | last _ _ ends => exact absurd (hasDirectory_iff.mp hd) ends.not_directory
  | into search step there _ ih =>
    cases hdots with
    | keep _ rest => exact .into search step there (ih hd hnext rest)
    | drop dot => exact absurd dot step.not_dot
    | loosen dot => exact absurd dot step.ne_dot
  | @through links place d name target rest search step there _ allowed leads _ ih =>
    cases hdots with
    | @keep _ _ xs kept =>
      -- more names follow the link, so it is followed and nothing is put behind it
      have hmore : xs ++ ys ≠ [] := by simp [hys]
      have hdetour : detour target (xs ++ ys) = names target ++ xs ++ ys := by
        simp [detour, hys]
      rw [List.cons_append]
      refine .through search step there (fun hnil => absurd hnil hmore) allowed leads ?_
      rw [hdetour]
      exact ih hd hnext (kept.detour_names target)
    | drop dot => exact absurd dot step.not_dot
    | loosen dot => exact absurd dot step.ne_dot

/-- A walk to a directory goes on from there. -/
theorem append {d : Place} {ys : List String} (h : Walks files true links place ns d)
    (hd : files.hasDirectory d = true) (hys : ys ≠ [])
    (hnext : ∀ links, Walks files follow links d ys p) :
    Walks files follow links place (ns ++ ys) p :=
  h.append_undot hd hys hnext (.refl ns)

/-- At a directory it makes no difference whether the path ends in a slash. -/
theorem append_slash (h : Walks files true links place ns p) (hp : files.hasDirectory p = true) :
    Walks files true links place (ns ++ [""]) p :=
  h.append hp (by simp) fun _ => .slash hp (.arrived _ _)

/-- A walk arrives at the same place without some of its dots. -/
theorem undot {xs : List String} (h : Walks files true links place ns p) (hdots : Undot ns xs) :
    Walks files true links place xs p := by
  induction h generalizing xs with
  | arrived =>
    cases hdots
    exact .arrived _ _
  | slash here _ ih =>
    cases hdots with
    | keep _ rest => exact .slash here (ih rest)
    | drop _ rest => exact ih rest
    | loosen dot => simp at dot
  | stay search here _ ih =>
    cases hdots with
    | keep _ rest => exact .stay search here (ih rest)
    | drop _ rest => exact ih rest
    | loosen _ slash rest => exact slash ▸ .slash here (ih rest)
  | up search _ ih =>
    cases hdots with
    | keep _ rest => exact .up search (ih rest)
    | drop dot => simp at dot
    | loosen dot => simp at dot
  | last search step ends =>
    cases hdots with
    | keep _ rest =>
      cases rest
      exact .last search step ends
    | drop dot => exact absurd dot step.not_dot
    | loosen dot => exact absurd dot step.ne_dot
  | into search step there _ ih =>
    cases hdots with
    | keep _ rest => exact .into search step there (ih rest)
    | drop dot => exact absurd dot step.not_dot
    | loosen dot => exact absurd dot step.ne_dot
  | through search step there _ allowed leads _ ih =>
    cases hdots with
    | keep _ rest => exact .through search step there (fun _ => rfl) allowed leads (ih (rest.detour _))
    | drop dot => exact absurd dot step.not_dot
    | loosen dot => exact absurd dot step.ne_dot

end Walks

/-- Files that hang together: no place has two entries, everything stands in a directory, and only
files have several names. -/
structure IsTree (files : Files) : Prop where
  nodup : files.places.Nodup
  here : files.hasDirectory files.here = true
  parent : ∀ place ∈ files.places, files.hasDirectory place.dropLast = true
  numbered : files.Numbered

/-- The parent of a directory is a directory. -/
theorem IsTree.dropLast (h : files.IsTree) (hplace : files.hasDirectory place = true) :
    files.hasDirectory place.dropLast = true := by
  by_cases hnil : place = []
  · subst hnil
    rfl
  · have hsome : (files.at? place).isSome = true := by
      rw [hasDirectory_iff.mp hplace]
      rfl
    exact h.parent place ((isSome_at?_iff hnil).mp hsome)

/-- A detour starts at a directory. -/
theorem hasDirectory_detourFrom (target : String) (h : files.hasDirectory place = true) :
    files.hasDirectory (detourFrom target place) = true := by
  unfold detourFrom
  split
  · rfl
  · exact h

/-- A walk goes through the directory in which its last name stands. -/
theorem Walks.split (htree : files.IsTree) {name : String} (hname : IsStep name)
    (h : Walks files true links place (ns ++ [name]) p) (hplace : files.hasDirectory place = true) :
    ∃ d links', Walks files true links place ns d ∧ files.hasDirectory d = true ∧
      Walks files true links' d [name] p := by
  generalize hall : ns ++ [name] = all at h
  induction h generalizing ns with
  | arrived => simp at hall
  | @slash links place p rest here next ih =>
    rcases List.append_eq_cons_iff.mp hall with ⟨rfl, hsingle⟩ | ⟨ns', rfl, rfl⟩
    · cases hsingle
      exact absurd rfl hname.ne_empty
    · obtain ⟨d, links', hd, hthere, hlast⟩ := ih hplace rfl
      exact ⟨d, links', .slash here hd, hthere, hlast⟩
  | @stay links place p rest search here next ih =>
    rcases List.append_eq_cons_iff.mp hall with ⟨rfl, hsingle⟩ | ⟨ns', rfl, rfl⟩
    · cases hsingle
      exact absurd rfl hname.ne_dot
    · obtain ⟨d, links', hd, hthere, hlast⟩ := ih hplace rfl
      exact ⟨d, links', .stay search here hd, hthere, hlast⟩
  | @up links place p rest search next ih =>
    rcases List.append_eq_cons_iff.mp hall with ⟨rfl, hsingle⟩ | ⟨ns', rfl, rfl⟩
    · cases hsingle
      exact absurd rfl hname.ne_dots
    · obtain ⟨d, links', hd, hthere, hlast⟩ := ih (htree.dropLast hplace) rfl
      exact ⟨d, links', .up search hd, hthere, hlast⟩
  | @last links place last search step ends =>
    rcases List.append_eq_cons_iff.mp hall with ⟨rfl, hsingle⟩ | ⟨ns', rfl, hnil⟩
    · cases hsingle
      exact ⟨place, links, .arrived _ _, hplace, .last search step ends⟩
    · simp at hnil
  | @into links place p first rest search step there next ih =>
    rcases List.append_eq_cons_iff.mp hall with ⟨rfl, hsingle⟩ | ⟨ns', rfl, rfl⟩
    · cases hsingle
      exact ⟨place, links, .arrived _ _, hplace, .into search step there next⟩
    · obtain ⟨d, links', hd, hthere, hlast⟩ := ih (hasDirectory_iff.mpr there) rfl
      exact ⟨d, links', .into search step there hd, hthere, hlast⟩
  | @through links place p first target rest search step there followed allowed leads next ih =>
    rcases List.append_eq_cons_iff.mp hall with ⟨rfl, hsingle⟩ | ⟨ns', rfl, rfl⟩
    · cases hsingle
      exact ⟨place, links + 1, .arrived _ _, hplace, .through search step there followed allowed leads next⟩
    · -- the last name is also the last one of the way that the link leads on
      have hrest : (names target ++ ns') ++ [name] = detour target (ns' ++ [name]) := by
        simp [detour]
      obtain ⟨d, links', hd, hthere, hlast⟩ := ih (hasDirectory_detourFrom target hplace) hrest
      refine ⟨d, links', .through search step there (fun _ => rfl) allowed leads ?_, hthere, hlast⟩
      unfold detour
      split
      · next hslash =>
        simp only [Bool.and_eq_true, List.isEmpty_iff] at hslash
        rw [hslash.2, List.append_nil] at hd
        exact hd.append_slash hthere
      · exact hd

/-- A walk by one name arrives at what stands there, unless it is a link. -/
theorem Walks.single {name : String} (hname : IsStep name)
    (h : Walks files true links place [name] p) :
    p = place ++ [name] ∨ ∃ target, files.at? (place ++ [name]) = some (.link target) := by
  cases h with
  | slash => exact absurd rfl hname.ne_empty
  | stay => exact absurd rfl hname.ne_dot
  | up => exact absurd rfl hname.ne_dots
  | last => exact .inl rfl
  | into _ _ _ next =>
    cases next
    exact .inl rfl
  | through _ _ there => exact .inr ⟨_, there⟩

/-- A walk that follows links does not arrive at one. -/
theorem Walks.not_link (htree : files.IsTree) (h : Walks files true links place ns p)
    (hplace : files.hasDirectory place = true) (target : String) :
    files.at? p ≠ some (.link target) := by
  induction h with
  | arrived =>
    rw [hasDirectory_iff.mp hplace]
    simp
  | slash _ _ ih => exact ih hplace
  | stay _ _ _ ih => exact ih hplace
  | up _ _ ih => exact ih (htree.dropLast hplace)
  | last _ _ ends =>
    intro hlink
    exact absurd (ends.not_followed target hlink) (by simp)
  | into _ _ there _ ih => exact ih (hasDirectory_iff.mpr there)
  | through _ _ _ _ _ _ _ ih => exact ih (hasDirectory_detourFrom _ hplace)

/-! ## Walks when more was made -/

/-- Files in which everything is still there, though files may hold something else. -/
structure Grows (files now : Files) : Prop where
  setting : files.SameSetting now
  entry : ∀ q e, files.at? q = some e → now.at? q = some e ∨
    ∃ text mode text' mode', e = .file text mode ∧ now.at? q = some (.file text' mode')

namespace Grows

variable {mid now : Files}

/-- States that have the same everywhere grow into each other. -/
theorem of_same (setting : files.SameSetting now) (h : ∀ q, now.at? q = files.at? q) :
    files.Grows now :=
  ⟨setting, fun q _ hq => .inl ((h q).trans hq)⟩

/-- Files grow over two changes if they grow over each. -/
theorem trans (h : files.Grows mid) (h' : mid.Grows now) : files.Grows now := by
  refine ⟨h.setting.trans h'.setting, fun q e hq => ?_⟩
  rcases h.entry q e hq with hmid | ⟨text, mode, text', mode', rfl, hmid⟩
  · exact h'.entry q e hmid
  · right
    rcases h'.entry q _ hmid with hnow | ⟨_, _, text'', mode'', -, hnow⟩
    · exact ⟨text, mode, text', mode', rfl, hnow⟩
    · exact ⟨text, mode, text'', mode'', rfl, hnow⟩

/-- A directory stays one. -/
theorem directory (h : files.Grows now) (hplace : files.at? place = some .directory) :
    now.at? place = some .directory := by
  rcases h.entry place _ hplace with hsame | ⟨_, _, _, _, he, -⟩
  · exact hsame
  · cases he

/-- There stays a directory at its place. -/
theorem hasDirectory (h : files.Grows now) (hplace : files.hasDirectory place = true) :
    now.hasDirectory place = true :=
  hasDirectory_iff.mpr (h.directory (hasDirectory_iff.mp hplace))

/-- A link stays the same. -/
theorem link {target : String} (h : files.Grows now)
    (hplace : files.at? place = some (.link target)) : now.at? place = some (.link target) := by
  rcases h.entry place _ hplace with hsame | ⟨_, _, _, _, he, -⟩
  · exact hsame
  · cases he

/-- What is missing in the end was missing at the start. -/
theorem none_of_none (h : files.Grows now) (hnow : now.at? place = none) :
    files.at? place = none := by
  cases hat : files.at? place with
  | none => rfl
  | some e =>
    rcases h.entry place e hat with hsame | ⟨_, _, _, _, -, hfile⟩
    · rw [hsame] at hnow
      cases hnow
    · rw [hfile] at hnow
      cases hnow

/-- An access that was let through still is. -/
theorem allowed {access : Access} (h : files.Grows now) (hplace : files.refusal? access place = none) :
    now.refusal? access place = none :=
  (h.setting.refusal?_eq ..).trans hplace

/-- A directory that could be searched still can be. -/
theorem search (h : files.Grows now) (hplace : files.MaySearch place) : now.MaySearch place :=
  h.allowed hplace

/-- Only files have numbers still. -/
theorem numbered (h : files.Grows now) (hnumbers : files.Numbered) : now.Numbered := by
  intro p hp
  rw [h.setting.numbers] at hp
  obtain ⟨text, mode, hfile⟩ := hnumbers p hp
  rcases h.entry p _ hfile with hsame | ⟨_, _, text', mode', -, hnow⟩
  · exact ⟨text, mode, hsame⟩
  · exact ⟨text', mode', hnow⟩

end Grows

/-- A walk arrives again when more was made. If it arrived at nothing, there may be a file now. -/
theorem Walks.grows_of_end {now : Files} (h : Walks files follow links place ns p)
    (hgrows : files.Grows now) (hp : files.at? p = none → IsEnd now follow p) :
    Walks now follow links place ns p := by
  induction h with
  | arrived => exact .arrived _ _
  | slash here _ ih => exact .slash (hgrows.hasDirectory here) (ih hp)
  | stay search here _ ih => exact .stay (hgrows.search search) (hgrows.hasDirectory here) (ih hp)
  | up search _ ih => exact .up (hgrows.search search) (ih hp)
  | @last links place name search step ends =>
    apply Walks.last (hgrows.search search) step
    cases he : files.at? (place ++ [name]) with
    | none => exact hp he
    | some e =>
      rcases hgrows.entry _ e he with hsame | ⟨text, mode, text', mode', -, hnow⟩
      · refine ⟨?_, ?_⟩
        · rw [hsame, ← he]
          exact ends.not_directory
        · intro target htarget
          rw [hsame, ← he] at htarget
          exact ends.not_followed target htarget
      · exact ⟨by simp [hnow], by simp [hnow]⟩
  | into search step there _ ih =>
    exact .into (hgrows.search search) step (hgrows.directory there) (ih hp)
  | through search step there followed allowed leads _ ih =>
    exact .through (hgrows.search search) step (hgrows.link there) followed (hgrows.allowed allowed) leads (ih hp)

/-- A walk to something arrives there again when more was made. -/
theorem Walks.grows {now : Files} (h : Walks files follow links place ns p)
    (hgrows : files.Grows now) (hp : (files.at? p).isSome = true) :
    Walks now follow links place ns p := by
  apply h.grows_of_end hgrows
  intro hnone
  rw [hnone] at hp
  cases hp

/-- A walk that arrived at nothing arrives at the directory that was made there. -/
theorem Walks.grows_of_made {now : Files} (h : Walks files false links place ns p)
    (hgrows : files.Grows now) (hnone : files.at? p = none)
    (hmade : now.hasDirectory p = true) (hplace : files.hasDirectory place = true)
    (htree : files.IsTree) : Walks now true links place ns p := by
  induction h with
  | arrived => exact .arrived _ _
  | slash here _ ih => exact .slash (hgrows.hasDirectory here) (ih hnone hmade hplace)
  | stay search here _ ih =>
    exact .stay (hgrows.search search) (hgrows.hasDirectory here) (ih hnone hmade hplace)
  | up search _ ih =>
    exact .up (hgrows.search search) (ih hnone hmade (htree.dropLast hplace))
  | last search step _ =>
    exact .into (hgrows.search search) step (hasDirectory_iff.mp hmade) (.arrived _ _)
  | into search step there _ ih =>
    exact .into (hgrows.search search) step (hgrows.directory there)
      (ih hnone hmade (hasDirectory_iff.mpr there))
  | through search step there _ allowed leads _ ih =>
    exact .through (hgrows.search search) step (hgrows.link there) (fun _ => rfl)
      (hgrows.allowed allowed) leads
      (ih hnone hmade (hasDirectory_detourFrom _ hplace))

/-! ## Walks by names through directories -/

/-- Names are walked one by one where they lead through directories. -/
theorem walks_names (hsteps : ∀ name ∈ ns, IsStep name)
    (hsearch : ∀ before after, after ≠ [] → ns = before ++ after →
      files.MaySearch (place ++ before))
    (hthrough : ∀ before after, before ≠ [] → after ≠ [] → ns = before ++ after →
      files.at? (place ++ before) = some .directory)
    (hlink : ∀ target, files.at? (place ++ ns) ≠ some (.link target)) :
    Walks files follow links place ns (place ++ ns) := by
  induction ns generalizing place with
  | nil =>
    rw [List.append_nil]
    exact .arrived _ _
  | cons name rest ih =>
    have hstep := hsteps name (List.mem_cons_self ..)
    have hfirst : files.MaySearch place := by
      have h := hsearch [] (name :: rest) (by simp) rfl
      rwa [List.append_nil] at h
    by_cases hdirectory : files.at? (place ++ [name]) = some .directory
    · rw [List.append_cons] at hlink ⊢
      refine .into hfirst hstep hdirectory (ih ?_ ?_ ?_ hlink)
      · intro other hother
        exact hsteps other (List.mem_cons_of_mem _ hother)
      · intro before after hafter hrest
        rw [← List.append_cons]
        exact hsearch (name :: before) after hafter (by rw [hrest]; rfl)
      · intro before after _ hafter hrest
        rw [← List.append_cons]
        exact hthrough (name :: before) after (by simp) hafter (by rw [hrest]; rfl)
    · have hrest : rest = [] := by
        by_contra hne
        exact hdirectory (hthrough [name] rest (by simp) hne rfl)
      subst hrest
      exact .last hfirst hstep ⟨hdirectory, fun target htarget => absurd htarget (hlink target)⟩

/-- From the directory at which a walk arrives, names lead on through directories. -/
theorem Walks.append_names {d : Place} {ys : List String} (h : Walks files true links place ns d)
    (hd : files.hasDirectory d = true) (hys : ys ≠ []) (hsteps : ∀ name ∈ ys, IsStep name)
    (hsearch : ∀ before after, after ≠ [] → ys = before ++ after →
      files.MaySearch (d ++ before))
    (hthrough : ∀ before after, before ≠ [] → after ≠ [] → ys = before ++ after →
      files.at? (d ++ before) = some .directory)
    (hlink : ∀ target, files.at? (d ++ ys) ≠ some (.link target)) :
    Walks files follow links place (ns ++ ys) (d ++ ys) :=
  h.append hd hys fun _ => walks_names hsteps hsearch hthrough hlink

/-! ## Walks beyond nothing -/

/-- The dots in front of a name are walked where the directory is searched for it. -/
theorem exists_walk_eq {xs ys : List String} {name : String} (hplace : files.hasDirectory place = true)
    (hsearch : files.MaySearch place) (hname : name ≠ "") (hdots : Undot xs (name :: ys)) :
    ∃ zs, Undot zs ys ∧
      ∀ follow links, files.walk follow links place xs = files.walk follow links place (name :: zs) := by
  generalize hall : name :: ys = all at hdots
  induction hdots with
  | nil => cases hall
  | keep name' rest _ =>
    cases hall
    exact ⟨_, rest, fun _ _ => rfl⟩
  | drop dot _ ih =>
    obtain ⟨zs, hzs, hwalk⟩ := ih hall
    refine ⟨zs, hzs, fun follow links => ?_⟩
    rw [← hwalk]
    rcases dot with rfl | rfl
    · exact walk_stay hsearch hplace _
    · exact walk_slash hplace _
  | loosen _ slash =>
    cases hall
    exact absurd slash hname

/-- Where a walk arrives at nothing, no walk goes on, be it with more dots on the way. -/
theorem Walks.walk_beyond (htree : files.IsTree) (h : Walks files false links place ns p)
    (hplace : files.hasDirectory place = true) (hnone : files.at? p = none)
    (hempty : "" ∉ ns) {xs more : List String} (hmore : more ≠ []) (hdots : Undot xs (ns ++ more)) :
    files.walk follow links place xs = .error .noEntry := by
  induction h generalizing xs with
  | arrived =>
    rw [hasDirectory_iff.mp hplace] at hnone
    cases hnone
  | slash => exact absurd (List.mem_cons_self ..) hempty
  | stay search here _ ih =>
    obtain ⟨zs, hzs, hwalk⟩ := exists_walk_eq hplace search (by decide) hdots
    rw [hwalk, walk_stay search here]
    exact ih hplace hnone (fun h => hempty (List.mem_cons_of_mem _ h)) hzs
  | up search _ ih =>
    obtain ⟨zs, hzs, hwalk⟩ := exists_walk_eq hplace search (by decide) hdots
    rw [hwalk, walk_up search]
    exact ih (htree.dropLast hplace) hnone (fun h => hempty (List.mem_cons_of_mem _ h)) hzs
  | last search step _ =>
    obtain ⟨zs, hzs, hwalk⟩ := exists_walk_eq hplace search step.ne_empty hdots
    rw [hwalk, walk_step search step, hnone]
    simp [hzs.ne_nil hmore]
  | into search step there _ ih =>
    obtain ⟨zs, hzs, hwalk⟩ := exists_walk_eq hplace search step.ne_empty hdots
    rw [hwalk, walk_step search step, there]
    exact ih (hasDirectory_iff.mpr there) hnone (fun h => hempty (List.mem_cons_of_mem _ h)) hzs
  | @through links place p name target rest search step there followed allowed leads _ ih =>
    obtain ⟨zs, hzs, hwalk⟩ := exists_walk_eq hplace search step.ne_empty hdots
    have hrest : rest ≠ [] := fun hnil => absurd (followed hnil) (by simp)
    have hzs_ne : zs ≠ [] := hzs.ne_nil (by simp [hmore])
    have hdetour : ∀ ys, ys ≠ [] → detour target ys = names target ++ ys := by
      intro ys hys
      simp [detour, hys]
    rw [hwalk, walk_through search step there (fun hnil => absurd hnil hzs_ne) allowed leads,
      hdetour zs hzs_ne]
    apply ih (hasDirectory_detourFrom target hplace) hnone
    · rw [hdetour rest hrest, List.mem_append, not_or]
      refine ⟨fun hmem => ?_, fun h => hempty (List.mem_cons_of_mem _ h)⟩
      have hname := (List.mem_filter.mp hmem).2
      simp at hname
    · rw [hdetour rest hrest, List.append_assoc]
      exact hzs.append_left _

end Scaffolding.Files
