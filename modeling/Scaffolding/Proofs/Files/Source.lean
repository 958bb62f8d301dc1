import Scaffolding.Proofs.Files.Path

/-!
# What can be copied

A directory can be copied to a place if every name in it, and in what can be reached from there, leads
to a file or a directory that may be read, if no directory is found again below itself, and if nothing
that can be reached lies in the place or leads to it. What stands in the place already has to be of the
same kind as what is copied over it, and a file there may be written.

More has to be given that is not a matter of the directory: the paths of the copies are not too long,
the system lets them be made, and no file that is written over is another name of a file that is copied
or written over as well.
-/

set_option autoImplicit false

namespace Scaffolding.Files

variable {files : Files} {path source target : String} {place p start into : Place}
  {r q : List String} {name : String} {e x : Entry}

/-- Something can be reached from a path by names. -/
def Reaches (files : Files) (source : String) (r : List String) : Prop :=
  ∃ place e, files.Leads source r place e

/-- A file can be reached from a path by names. -/
def ReachesFile (files : Files) (source : String) (r : List String) (place : Place) : Prop :=
  ∃ text mode, files.Leads source r place (.file text mode)

/-- Both are directories, or both are files. -/
def Entry.SameKind (x e : Entry) : Prop :=
  x = .directory ∧ e = .directory ∨
    ∃ text mode text' mode', x = .file text mode ∧ e = .file text' mode'

instance (x e : Entry) : Decidable (x.SameKind e) :=
  match x, e with
  | .directory, .directory => isTrue (.inl ⟨rfl, rfl⟩)
  | .file .., .file .. => isTrue (.inr ⟨_, _, _, _, rfl, rfl⟩)
  | .link _, _ | _, .link _ | .directory, .file .. | .file .., .directory =>
    isFalse (by simp [Entry.SameKind])

/-- A directory whose contents can be copied to a place. -/
structure Copyable (files : Files) (source : String) (into : Place) : Prop where
  tree : files.IsTree
  start : ∃ place, files.Leads source [] place .directory
  /-- Every entry can be had. -/
  resolves : ∀ r d, files.Leads source r d .directory → ∀ name ∈ files.list d,
    files.Reaches source (r ++ [name])
  /-- Every file and directory may be read. -/
  readable : ∀ r place e, files.Leads source r place e → files.refusal? .read place = none
  /-- No directory is found again below itself. -/
  loopless : ∀ r q d, files.Leads source r d .directory → files.Leads source (r ++ q) d .directory →
    q = []
  /-- Nothing lies in the target or is on the way to it. -/
  apart : ∀ r place e, files.Leads source r place e → ¬ into <+: place ∧ ¬ place <+: into
  /-- What is in the target already is of the same kind. -/
  same : ∀ r place e x, files.Leads source r place e → files.at? (into ++ r) = some x →
    x.SameKind e
  /-- A file that is in the target already may be written. -/
  writable : ∀ r place x, files.ReachesFile source r place → files.at? (into ++ r) = some x →
    files.refusal? .overwrite (into ++ r) = none

/-- Nothing hinders a copy to a path, the place of the target being known. -/
structure Unhindered (files : Files) (source target : String) (into : Place) : Prop where
  /-- The paths of the copies are not too long. -/
  short : ∀ r, files.Reaches source r → (descend target r).utf8ByteSize ≤ pathLimit
  /-- The directories of the copies may be searched. -/
  search : ∀ r name, files.Reaches source (r ++ [name]) → files.MaySearch (into ++ r)
  /-- What is missing in the target may be made. -/
  make : ∀ r, files.Reaches source r → files.at? (into ++ r) = none →
    files.refusal? .make (into ++ r) = none
  /-- The copies of files may be written, and their modes may be set. -/
  write : ∀ r place, files.ReachesFile source r place → files.refusal? .write (into ++ r) = none
  setMode : ∀ r place, files.ReachesFile source r place → files.refusal? .setMode (into ++ r) = none
  /-- The bits by which a file is run as its owner or group are not set, or they stay. -/
  keepId : ∀ r place text mode, files.Leads source r place (.file text mode) →
    mode &&& 0o6000 = 0 ∨ files.refusal? .keepId (into ++ r) = none
  /-- No file is written over under two names. -/
  distinct : ∀ r r' place place', files.ReachesFile source r place →
    files.ReachesFile source r' place' → files.sameFile (into ++ r) (into ++ r') = true → r' = r
  /-- No file that is copied is written over under another name. -/
  unshared : ∀ r r' place place', files.ReachesFile source r place →
    files.ReachesFile source r' place' → files.sameFile (into ++ r) place' = false

namespace Copyable

variable (h : files.Copyable source into)

include h

/-- What is on the way to what can be reached can be reached. -/
theorem reaches_of_append (hr : files.Reaches source (r ++ q)) : files.Reaches source r := by
  obtain ⟨start, hstart⟩ := h.start
  cases q with
  | nil =>
    rw [List.append_nil] at hr
    exact hr
  | cons name q =>
    obtain ⟨place, e, hr⟩ := hr
    obtain ⟨d, hd, -⟩ := hstart.before h.tree hr
    exact ⟨d, _, hd⟩

/-- Below a file there is nothing. -/
theorem eq_of_file (hr : files.ReachesFile source r place) (hq : files.Leads source q p e)
    (hbelow : r <+: q) : q = r := by
  obtain ⟨start, hstart⟩ := h.start
  obtain ⟨text, mode, hr⟩ := hr
  obtain ⟨t, rfl⟩ := hbelow
  cases t with
  | nil => exact List.append_nil r
  | cons name t =>
    obtain ⟨d, hd, -⟩ := hstart.before h.tree hq
    obtain ⟨-, hentry⟩ := hr.unique hd
    cases hentry

/-- What is below a directory is the directory, or below a name in its list. -/
theorem below_directory {d : Place} (hr : files.Leads source r d .directory)
    (hq : files.Leads source q p e) (hbelow : r <+: q) :
    q = r ∨ ∃ name ∈ files.list d, r ++ [name] <+: q := by
  obtain ⟨start, hstart⟩ := h.start
  obtain ⟨t, rfl⟩ := hbelow
  cases t with
  | nil => exact .inl (List.append_nil r)
  | cons name t =>
    obtain ⟨d', hd', hmem⟩ := hstart.before h.tree hq
    obtain ⟨rfl, -⟩ := hr.unique hd'
    exact .inr ⟨name, hmem, t, by simp⟩

/-- An entry in a directory that is copied does not lie in the target, nor is it on the way there. -/
theorem entry_apart {d : Place} (hr : files.Leads source r d .directory) (name : String) :
    ¬ into <+: d ++ [name] ∧ ¬ d ++ [name] <+: into := by
  obtain ⟨hin, hon⟩ := h.apart r d .directory hr
  constructor
  · intro hbelow
    rcases List.prefix_concat_iff.mp hbelow with heq | hbelow
    · exact hon (heq ▸ List.prefix_append _ _)
    · exact hin hbelow
  · intro habove
    exact hon ((List.prefix_append _ _).trans habove)

end Copyable

/-! ## What is not written over -/

/-- Where a file is in the target, a file is copied. -/
theorem Copyable.reachesFile (h : files.Copyable source into) (hr : files.Leads source r place e)
    {text : String} {mode : Nat} (hat : files.at? (into ++ r) = some (.file text mode)) :
    files.ReachesFile source r place := by
  rcases h.same r place e _ hr hat with ⟨hx, -⟩ | ⟨_, _, text', mode', -, rfl⟩
  · cases hx
  · exact ⟨text', mode', hr⟩

/-- The copy of what can be reached is under no other name what lies apart from the target, unless both
are files. -/
theorem Copyable.not_sameFile (h : files.Copyable source into) (hr : files.Leads source r place e)
    (hq : ¬ into <+: q) (hentry : (∀ text mode, e ≠ .file text mode) ∨
      ∀ text mode, files.at? q ≠ some (.file text mode)) :
    files.sameFile (into ++ r) q = false := by
  rw [Bool.eq_false_iff]
  intro hsame
  have hne : q ≠ into ++ r := by
    rintro rfl
    exact hq (List.prefix_append _ _)
  rcases hentry with hentry | hfile
  · apply hne
    apply h.tree.numbered.eq_of_sameFile hsame
    intro text mode hat
    obtain ⟨text', mode', hfile⟩ := h.reachesFile hr hat
    exact hentry text' mode' (hfile.unique hr).2
  · rw [sameFile_comm] at hsame
    exact hne (h.tree.numbered.eq_of_sameFile hsame hfile).symm

/-- What is copied is not written over. -/
theorem Unhindered.not_sameFile (hcopy : files.Copyable source into)
    (h : files.Unhindered source target into) {r' : List String} {place' : Place} {e' : Entry}
    (hr : files.Leads source r place e) (hr' : files.Leads source r' place' e') :
    files.sameFile (into ++ r) place' = false := by
  have hin := (hcopy.apart r' place' e' hr').1
  by_cases hfile : (∃ text mode, e = .file text mode) ∧ ∃ text mode, e' = .file text mode
  · obtain ⟨⟨text, mode, rfl⟩, text', mode', rfl⟩ := hfile
    exact h.unshared r r' place place' ⟨text, mode, hr⟩ ⟨text', mode', hr'⟩
  · apply hcopy.not_sameFile hr hin
    rcases not_and_or.mp hfile with hfile | hfile
    · exact .inl fun text mode heq => hfile ⟨text, mode, heq⟩
    · refine .inr fun text mode heq => hfile ⟨text, mode, ?_⟩
      rw [hr'.at?] at heq
      exact Option.some.inj heq

/-- Copies of different names are no two names of one file. -/
theorem Unhindered.eq_of_sameFile (hcopy : files.Copyable source into)
    (h : files.Unhindered source target into) {r' : List String} {place' : Place} {e' : Entry}
    (hr : files.Leads source r place e) (hr' : files.Leads source r' place' e')
    (hsame : files.sameFile (into ++ r) (into ++ r') = true) : r' = r := by
  by_cases heq : into ++ r' = into ++ r
  · exact List.append_cancel_left heq
  · obtain ⟨⟨_, _, hat⟩, _, _, hat'⟩ := hcopy.tree.numbered.files_of_ne hsame heq
    exact h.distinct r r' place place' (hcopy.reachesFile hr hat) (hcopy.reachesFile hr' hat') hsame

/-! ## Lists of what can be reached -/

/-- A list of all that can be reached from a path, each with its place and what stands there. -/
structure IsCatalogue (files : Files) (source : String)
    (reached : List (List String × Place × Entry)) : Prop where
  tree : files.IsTree
  start : ∃ place, ([], place, .directory) ∈ reached
  leads : ∀ x ∈ reached, files.Leads source x.1 x.2.1 x.2.2
  closed : ∀ x ∈ reached, x.2.2 = .directory → ∀ name ∈ files.list x.2.1,
    ∃ y ∈ reached, y.1 = x.1 ++ [name]

namespace IsCatalogue

variable {reached : List (List String × Place × Entry)} (h : files.IsCatalogue source reached)

include h

/-- Nothing else can be reached. -/
theorem mem (hr : files.Leads source r place e) : (r, place, e) ∈ reached := by
  have hknown : ∀ {r place e} x, x ∈ reached → x.1 = r → files.Leads source r place e →
      (r, place, e) ∈ reached := by
    rintro r place e ⟨r', place', e'⟩ hmem rfl hr
    obtain ⟨rfl, rfl⟩ := (h.leads _ hmem).unique hr
    exact hmem
  obtain ⟨start, hstart⟩ := h.start
  induction r using List.reverseRecOn generalizing place e with
  | nil => exact hknown ([], start, .directory) hstart rfl hr
  | append_singleton r name ih =>
    obtain ⟨d, hd, hname⟩ := (h.leads _ hstart).parent h.tree hr
    obtain ⟨y, hy, hnames⟩ := h.closed _ (ih hd) rfl name hname
    exact hknown y hy hnames hr

/-- What can be copied can be told from the list. -/
theorem copyable (readable : ∀ x ∈ reached, files.refusal? .read x.2.1 = none)
    (loopless : ∀ x ∈ reached, ∀ y ∈ reached, x.1 <+: y.1 → x.2 = y.2 → y.1 = x.1)
    (apart : ∀ x ∈ reached, ¬ into <+: x.2.1 ∧ ¬ x.2.1 <+: into)
    (same : ∀ x ∈ reached, ∀ y ∈ files.at? (into ++ x.1), y.SameKind x.2.2)
    (writable : ∀ x ∈ reached, files.refusal? .overwrite (into ++ x.1) = none) :
    files.Copyable source into where
  tree := h.tree
  start := by
    obtain ⟨start, hstart⟩ := h.start
    exact ⟨start, h.leads _ hstart⟩
  resolves := by
    intro r d hd name hname
    obtain ⟨⟨r', place, e⟩, hmem, rfl⟩ := h.closed _ (h.mem hd) rfl name hname
    exact ⟨place, e, h.leads _ hmem⟩
  readable := fun r place e hr => readable _ (h.mem hr)
  loopless := by
    intro r q d hd hq
    have heq := loopless _ (h.mem hd) _ (h.mem hq) (List.prefix_append _ _) rfl
    simpa using heq
  apart := fun r place e hr => apart _ (h.mem hr)
  same := fun r place e x hr hx => same _ (h.mem hr) x hx
  writable := by
    rintro r place x ⟨text, mode, hr⟩ -
    exact writable _ (h.mem hr)

/-- So can what is not hindered. -/
theorem unhindered (short : ∀ x ∈ reached, (descend target x.1).utf8ByteSize ≤ pathLimit)
    (allowed : ∀ x ∈ reached, ∀ access ∈ [Access.search, .make, .write, .setMode, .keepId],
      files.refusal? access (into ++ x.1) = none)
    (distinct : ∀ x ∈ reached, ∀ y ∈ reached, files.sameFile (into ++ x.1) (into ++ y.1) = true →
      y.1 = x.1)
    (unshared : ∀ x ∈ reached, ∀ y ∈ reached, files.sameFile (into ++ x.1) y.2.1 = false) :
    files.Unhindered source target into where
  short := by
    rintro r ⟨place, e, hr⟩
    exact short _ (h.mem hr)
  search := by
    rintro r name ⟨place, e, hr⟩
    obtain ⟨start, hstart⟩ := h.start
    obtain ⟨d, hd, -⟩ := (h.leads _ hstart).parent h.tree hr
    exact allowed _ (h.mem hd) .search (by simp)
  make := by
    rintro r ⟨place, e, hr⟩ -
    exact allowed _ (h.mem hr) .make (by simp)
  write := by
    rintro r place ⟨text, mode, hr⟩
    exact allowed _ (h.mem hr) .write (by simp)
  setMode := by
    rintro r place ⟨text, mode, hr⟩
    exact allowed _ (h.mem hr) .setMode (by simp)
  keepId := by
    intro r place text mode hr
    exact .inr (allowed _ (h.mem hr) .keepId (by simp))
  distinct := by
    rintro r r' place place' ⟨text, mode, hr⟩ ⟨text', mode', hr'⟩ hsame
    exact distinct _ (h.mem hr) _ (h.mem hr') hsame
  unshared := by
    rintro r r' place place' ⟨text, mode, hr⟩ ⟨text', mode', hr'⟩
    exact unshared _ (h.mem hr) _ (h.mem hr')

end IsCatalogue

end Scaffolding.Files
