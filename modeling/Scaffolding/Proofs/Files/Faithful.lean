import Mathlib
import Scaffolding.Proofs.Files.Copy
import Scaffolding.Proofs.Files.Order

/-!
# A copy is faithful and confined

When the contents of a directory were copied, every file that can be reached in it is in the target, as
a real file with the same text that its owner may write, and so is every directory. The files are
counted. Everything else is as it was, but for the other names of files that were written over, and for
the directories on the way to a target that was missing. All of it is so in whatever order the
directories are listed.

It takes a target at which a directory can be had, and nothing that hinders the copy: no access that is
refused, no path that is too long, no file that is written over and copied as well. All of it is about
files that hold texts, with names that are texts and are told apart exactly, and about directories that
stand at one place each.
-/

set_option autoImplicit false

namespace Scaffolding.Files

variable {files made now other : Files} {source target : String} {into place p q : Place}
  {r : List String} {e : Entry} {n : Nat}

/-! ## What a copy leaves -/

/-- A directory was made for a target that was missing: there was nothing, and a beginning of the path
of the target leads there. -/
structure MadeFor (files : Files) (target : String) (now : Files) (q : Place) : Prop where
  missing : files.exists? target = false
  before : files.at? q = none
  directory : now.at? q = some .directory
  way : ∃ k, k <+: undotted (names target) ∧ Walks now true linkLimit (now.origin target) k q

/-- The contents of a directory were copied to a place: what the files are now, and how many files
were copied. -/
structure Copied (files : Files) (source target : String) (into : Place) (n : Nat) (now : Files) :
    Prop where
  /-- Each file that can be reached is counted once. -/
  counted : ∃ rs : List (List String), rs.Nodup ∧ rs.length = n ∧
    ∀ r, r ∈ rs ↔ ∃ place, files.ReachesFile source r place
  file : ∀ r place text mode, files.Leads source r place (.file text mode) →
    now.Leads target r (into ++ r) (.file text (mode ||| 0o200))
  directory : ∀ r place, files.Leads source r place .directory →
    now.Leads target r (into ++ r) .directory
  /-- What is no name of a copy is as it was, in the target and outside of it, unless it was made for
  the target. -/
  kept : ∀ q, (∀ r, files.Reaches source r → files.sameFile (into ++ r) q = false) →
    now.at? q = files.at? q ∨ files.MadeFor target now q

/-- Where a path leads to a directory, nothing is made for it. -/
theorem Makeable.eq_of_found (htree : files.IsTree) (h : files.Makeable target into made)
    (hfound : files.find target = .ok (place, .directory)) : made = files := by
  have hnone := does_makeDirectories_of_found hfound
  have hmake := h.does_makeDirectories htree
  have heq : _ = _ := hmake.symm.trans hnone
  cases heq
  rfl

/-- What is made for a path is made because it was missing. -/
theorem Makeable.exists?_eq_false (htree : files.IsTree) (h : files.Makeable target into made)
    (hq : made.at? q ≠ files.at? q) : files.exists? target = false := by
  unfold exists?
  cases hfound : files.find target with
  | error e => rfl
  | ok found =>
    exfalso
    obtain ⟨p, e⟩ := found
    have hleads : files.Leads target [] p e := ⟨by simp, hfound⟩
    have hgrown := hleads.grows (h.had htree).grows (by
      by_contra hne
      have hat := hleads.at?
      rw [((h.had htree).made p hne).1] at hat
      cases hat)
    obtain ⟨-, rfl⟩ := (h.leads htree).unique hgrown
    rw [h.eq_of_found htree hfound] at hq
    exact hq rfl

/-- How many files were copied is a matter of what can be reached. -/
theorem Copied.count_unique {n' : Nat} {now' : Files} (h : files.Copied source target into n now)
    (h' : files.Copied source target into n' now') : n = n' := by
  obtain ⟨rs, hnodup, rfl, hmem⟩ := h.counted
  obtain ⟨rs', hnodup', rfl, hmem'⟩ := h'.counted
  have hperm : rs.Perm rs' := by
    rw [List.perm_ext_iff_of_nodup hnodup hnodup']
    exact fun r => (hmem r).trans (hmem' r).symm
  exact hperm.length_eq

section

variable (hcopy : files.Copyable source into) (hmake : files.Makeable target into made)
  (hfree : files.Unhindered source target into) (haside : files.Aside source into made)

include hcopy hmake hfree haside

/-- With the entries in any order, all that can be reached is copied. -/
theorem exists_copied (horder : files.Reordered other) :
    ∃ n now, Does (copyContents source target) other n now ∧ files.Copied source target into n now := by
  have hhad := hmake.had hcopy.tree
  obtain ⟨made', hmake', hmade⟩ := hmake.reordered hcopy.tree horder
  have hcopy' := (hcopy.of_made hmake haside).reordered hmade
  have hfree' := (hfree.of_made hcopy hmake haside).reordered hhad.tree hmade
  have htarget := hmake'.leads (horder.isTree hcopy.tree)
  have hleads : ∀ {r place e}, made'.Leads source r place e ↔ files.Leads source r place e :=
    (hmade.leads_iff hhad.tree).trans (haside.leads_iff hcopy hmake)
  obtain ⟨rs, now, hdoes, hfiles, hnow⟩ := copies_copyInto hcopy' hfree' htarget
  have hset := hmade.setting.symm.trans hhad.grows.setting.symm
  refine ⟨rs.length, now, (hmake'.does_makeDirectories (horder.isTree hcopy.tree)).bind hdoes,
    ⟨rs, hfiles.nodup, rfl, fun r => ?_⟩, ?_, ?_, ?_⟩
  · rw [hfiles.mem_iff, true_and]
    unfold ReachesFile
    simp only [hleads]
  · intro r place text mode hr
    rw [← hleads] at hr
    exact hnow.leads_copy hcopy' hfree' htarget ⟨place, _, hr⟩ hr
  · intro r place hr
    rw [← hleads] at hr
    exact hnow.leads_copy hcopy' hfree' htarget ⟨place, _, hr⟩ hr
  · intro q hq
    have hkept : now.at? q = made.at? q := by
      rw [← hmade.at? hhad.tree]
      apply hnow.kept
      rintro r ⟨place, e, hr⟩
      rw [← hset.sameFile]
      exact hq r ⟨place, e, hleads.mp hr⟩
    by_cases hsame : made.at? q = files.at? q
    · exact .inl (hkept.trans hsame)
    · obtain ⟨hbefore, hmade_q, k, hk, hway⟩ := hhad.made q hsame
      have hgrows := (hmade.grows hhad.tree).trans (hnow.grows hcopy')
      have horigin := (hhad.grows.setting.trans hgrows.setting).origin target
      refine .inr ⟨hmake.exists?_eq_false hcopy.tree hsame, hbefore, hkept.trans hmade_q, k, hk, ?_⟩
      rw [horigin]
      exact hway.grows hgrows (by rw [hmade_q]; rfl)

end

/-- Where the target is a directory nothing has to be made for it. -/
theorem exists_copied_of_directory (hcopy : files.Copyable source into)
    (htarget : files.Leads target [] into .directory)
    (hfree : files.Unhindered source target into) (horder : files.Reordered other) :
    ∃ n now, Does (copyContents source target) other n now ∧
      files.Copied source target into n now := by
  have haside : files.Aside source into files := ⟨fun q hq => absurd rfl hq, fun q hq => absurd rfl hq⟩
  exact exists_copied hcopy (.of_leads htarget) hfree haside horder

/-! ## A link to a directory -/

/-- A directory that holds a file and a link to another directory, and a target that holds a file of
the same name. The file that is copied has another name, and may not be written over itself. -/
def linked : Files where
  entries :=
    [(["s"], .directory), (["s", "a"], .file "x" 0o444), (["s", "l"], .link "/d"),
      (["d"], .directory), (["d", "b"], .file "y" 0o444), (["t"], .directory),
      (["t", "a"], .file "z" 0o644), (["o"], .file "x" 0o444)]
  here := []
  numbers := [(["s", "a"], 1), (["o"], 1)]
  refusal? := fun access place =>
    if access = .overwrite ∧ place = ["s", "a"] then some .permissionDenied else none

/-- What can be reached, with the place and the entry. -/
def linkedReached : List (List String × Place × Entry) :=
  [([], ["s"], .directory), (["a"], ["s", "a"], .file "x" 0o444), (["l"], ["d"], .directory),
    (["l", "b"], ["d", "b"], .file "y" 0o444)]

/-- Nothing else can be reached in the directory with the link. -/
theorem isCatalogue_linked : linked.IsCatalogue "/s" linkedReached where
  tree := by
    refine ⟨by decide, by decide, by decide, .of_forall ?_⟩
    simp only [linked, List.forall_mem_cons]
    exact ⟨⟨_, _, rfl⟩, ⟨_, _, rfl⟩, by simp⟩
  start := ⟨["s"], by decide⟩
  leads := by
    simp only [linkedReached, List.forall_mem_cons]
    exact ⟨⟨by decide, by cbv⟩, ⟨by decide, by cbv⟩, ⟨by decide, by cbv⟩, ⟨by decide, by cbv⟩,
      by simp⟩
  closed := by decide

/-- It can be copied to the target. -/
theorem copyable_linked : linked.Copyable "/s" ["t"] :=
  isCatalogue_linked.copyable (by decide) (by decide) (by decide) (by decide) (by decide)

/-- Nothing hinders the copy, as what is refused is not needed for it. -/
theorem unhindered_linked : linked.Unhindered "/s" "/x/../t" ["t"] :=
  isCatalogue_linked.unhindered (by decide) (by decide) (by decide) (by decide)

/-- A directory is made beside the target, since its path goes through it. -/
theorem makeable_linked : linked.Makeable "/x/../t" ["t"] (linked.set ["x"] .directory) := by
  have hnames : names "/x/../t" = ["x", "..", "t"] := by decide
  have horigin : linked.origin "/x/../t" = [] := by decide
  refine ⟨⟨by decide, by simp [String.contains_char_eq], by decide⟩, ?_⟩
  rw [hnames, horigin]
  have hmade : linked.Obtains [] ["x"] ["x"] (linked.set ["x"] .directory) :=
    .atOnce (.made (walks_of_walk_eq (by cbv)) (by decide) (by decide))
  have hback : linked.Obtains [] ["x", ".."] [] (linked.set ["x"] .directory) :=
    .afterParent (by decide : undotted ["x", ".."] = ["x"] ++ [".."]) hmade
      (.there (walks_of_walk_eq (by cbv)) (by decide))
  exact .afterParent (by decide : undotted ["x", "..", "t"] = ["x", ".."] ++ ["t"]) hback
    (.there (walks_of_walk_eq (by cbv)) (by decide))

/-- The directory beside the target is neither in what is copied nor in the way of the copy. -/
theorem aside_linked : linked.Aside "/s" ["t"] (linked.set ["x"] .directory) := by
  have hnew : ∀ q, (linked.set ["x"] .directory).at? q ≠ linked.at? q → q = ["x"] := by
    intro q hq
    rw [at?_set_of_none isCatalogue_linked.tree.numbered (by decide) (by decide)] at hq
    by_contra hne
    exact hq (if_neg hne)
  constructor
  · intro q hq _ r d hd
    have hall : ∀ x ∈ linkedReached, [] ≠ x.2.1 := by decide
    rw [hnew q hq]
    exact hall _ (isCatalogue_linked.mem hd)
  · rintro q hq _ r place ⟨text, mode, hr⟩
    have hall : ∀ x ∈ linkedReached, ["x"] ≠ ["t"] ++ x.1 := by decide
    rw [hnew q hq]
    exact hall _ (isCatalogue_linked.mem hr)

/-- A directory that holds two files, with more beside it. -/
def besides (more : List (Place × Entry)) : Files where
  entries :=
    [(["s"], .directory), (["s", "a"], .file "x" 0o4755), (["s", "b"], .file "y" 0o444)] ++ more
  here := []

/-- What can be reached in the directory. -/
def besidesReached : List (List String × Place × Entry) :=
  [([], ["s"], .directory), (["a"], ["s", "a"], .file "x" 0o4755),
    (["b"], ["s", "b"], .file "y" 0o444)]

/-- Nothing but the two files can be reached in the directory. -/
theorem isCatalogue_besides (htree : files.IsTree) (hlist : files.list ["s"] = ["a", "b"])
    (hs : files.find "/s" = .ok (["s"], .directory))
    (ha : files.find "/s/a" = .ok (["s", "a"], .file "x" 0o4755))
    (hb : files.find "/s/b" = .ok (["s", "b"], .file "y" 0o444)) :
    files.IsCatalogue "/s" besidesReached where
  tree := htree
  start := ⟨["s"], by decide⟩
  leads := by
    simp only [besidesReached, List.forall_mem_cons]
    exact ⟨⟨by decide, hs⟩, ⟨by decide, ha⟩, ⟨by decide, hb⟩, by simp⟩
  closed := by
    intro x hx hdirectory name hname
    have hroot : ∀ x ∈ besidesReached, x.2.2 = .directory → x = ([], ["s"], .directory) := by decide
    rw [hroot x hx hdirectory, hlist] at hname
    have hall : ∀ name ∈ ["a", "b"], ∃ y ∈ besidesReached, y.1 = [] ++ [name] := by decide
    rw [hroot x hx hdirectory]
    exact hall name hname

/-- It can be copied, if the files beside it are in order and what is in the target is of the same kinds
and may be written. -/
theorem copyable_besides (htree : files.IsTree) (hlist : files.list ["s"] = ["a", "b"])
    (hs : files.find "/s" = .ok (["s"], .directory))
    (ha : files.find "/s/a" = .ok (["s", "a"], .file "x" 0o4755))
    (hb : files.find "/s/b" = .ok (["s", "b"], .file "y" 0o444))
    (readable : ∀ x ∈ besidesReached, files.refusal? .read x.2.1 = none)
    (apart : ∀ x ∈ besidesReached, ¬ into <+: x.2.1 ∧ ¬ x.2.1 <+: into)
    (same : ∀ x ∈ besidesReached, ∀ y ∈ files.at? (into ++ x.1), y.SameKind x.2.2)
    (writable : ∀ x ∈ besidesReached, files.refusal? .overwrite (into ++ x.1) = none) :
    files.Copyable "/s" into :=
  (isCatalogue_besides htree hlist hs ha hb).copyable readable (by decide) apart same writable

/-- The path of the target goes on below a file. -/
def blocked : Files :=
  besides [(["f"], .file "z" 0o644)]

/-- There is no directory below a file, and nothing is copied. -/
theorem refuses_blocked : blocked.Copyable "/s" ["f", "t"] ∧ blocked.exists? "/f/t" = false ∧
    Refuses (copyContents "/s" "/f/t") blocked .notDirectory := by
  have hcopy : blocked.Copyable "/s" ["f", "t"] :=
    copyable_besides ⟨by decide, by decide, by decide, .of_forall (by simp [blocked, besides])⟩
      (by decide) (by cbv) (by cbv) (by cbv) (by decide) (by decide) (by decide) (by decide)
  refine ⟨hcopy, by cbv, ?_⟩
  unfold Refuses
  cbv

/-- Nothing may be made in the target. -/
def sealed : Files :=
  { besides [(["t"], .directory)] with
    refusal? := fun access place =>
      if access = .make ∧ place.dropLast = ["t"] then some .permissionDenied else none }

/-- A target in which nothing may be made takes nothing. -/
theorem refuses_sealed : sealed.Copyable "/s" ["t"] ∧ sealed.find "/t" = .ok (["t"], .directory) ∧
    Refuses (copyContents "/s" "/t") sealed .permissionDenied := by
  have hcopy : sealed.Copyable "/s" ["t"] :=
    copyable_besides ⟨by decide, by decide, by decide, .of_forall (by simp [sealed, besides])⟩
      (by decide) (by cbv) (by cbv) (by cbv) (by decide) (by decide) (by decide) (by decide)
  refine ⟨hcopy, by cbv, ?_⟩
  unfold Refuses
  cbv

/-- A file in the target has another name outside of it. -/
def shared : Files :=
  { besides [(["t"], .directory), (["t", "a"], .file "z" 0o644), (["o"], .file "z" 0o644)] with
    numbers := [(["t", "a"], 1), (["o"], 1)] }

/-- The other name of a file that is written over has the new text as well. -/
theorem changes_shared : shared.Copyable "/s" ["t"] ∧ shared.find "/t" = .ok (["t"], .directory) ∧
    shared.at? ["o"] = some (.file "z" 0o644) ∧
    ∃ now, Does (copyContents "/s" "/t") shared 2 now ∧ now.at? ["o"] = some (.file "x" 0o4755) := by
  have hnumbered : shared.Numbered := by
    apply Numbered.of_forall
    simp only [shared, List.forall_mem_cons]
    exact ⟨⟨_, _, rfl⟩, ⟨_, _, rfl⟩, by simp⟩
  have hcopy : shared.Copyable "/s" ["t"] :=
    copyable_besides ⟨by decide, by decide, by decide, hnumbered⟩ (by decide) (by cbv) (by cbv)
      (by cbv) (by decide) (by decide) (by decide) (by decide)
  refine ⟨hcopy, by cbv,
    rfl, { shared with entries := (besides [(["t"], .directory), (["t", "a"], .file "x" 0o4755),
      (["o"], .file "x" 0o4755), (["t", "b"], .file "y" 0o644)]).entries }, ?_, rfl⟩
  unfold Does
  cbv

/-- A file in the target is another name of the one that is copied over it. -/
def emptied : Files :=
  { besides [(["t"], .directory), (["t", "a"], .file "x" 0o4755)] with
    numbers := [(["s", "a"], 1), (["t", "a"], 1)] }

/-- A file that is written over with itself under another name is left empty. -/
theorem changes_emptied : emptied.Copyable "/s" ["t"] ∧
    emptied.find "/t" = .ok (["t"], .directory) ∧
    ∃ now, Does (copyContents "/s" "/t") emptied 2 now ∧
      now.at? ["t", "a"] = some (.file "" 0o4755) := by
  have hnumbered : emptied.Numbered := by
    apply Numbered.of_forall
    simp only [emptied, List.forall_mem_cons]
    exact ⟨⟨_, _, rfl⟩, ⟨_, _, rfl⟩, by simp⟩
  have hcopy : emptied.Copyable "/s" ["t"] :=
    copyable_besides ⟨by decide, by decide, by decide, hnumbered⟩ (by decide) (by cbv) (by cbv)
      (by cbv) (by decide) (by decide) (by decide) (by decide)
  refine ⟨hcopy, by cbv,
    { emptied with entries := [(["s"], .directory), (["s", "a"], .file "" 0o4755),
      (["s", "b"], .file "y" 0o444), (["t"], .directory), (["t", "a"], .file "" 0o4755),
      (["t", "b"], .file "y" 0o644)] }, ?_, rfl⟩
  unfold Does
  cbv

/-- Two files in the target are names of one. -/
def twins : Files :=
  { besides [(["t"], .directory), (["t", "a"], .file "z" 0o644), (["t", "b"], .file "z" 0o644)] with
    numbers := [(["t", "a"], 1), (["t", "b"], 1)] }

/-- Of two files that are written over as one, both have the last text. -/
theorem changes_twins : twins.Copyable "/s" ["t"] ∧ twins.find "/t" = .ok (["t"], .directory) ∧
    ∃ now, Does (copyContents "/s" "/t") twins 2 now ∧
      now.at? ["t", "a"] = some (.file "y" 0o644) := by
  have hnumbered : twins.Numbered := by
    apply Numbered.of_forall
    simp only [twins, List.forall_mem_cons]
    exact ⟨⟨_, _, rfl⟩, ⟨_, _, rfl⟩, by simp⟩
  have hcopy : twins.Copyable "/s" ["t"] :=
    copyable_besides ⟨by decide, by decide, by decide, hnumbered⟩ (by decide) (by cbv) (by cbv)
      (by cbv) (by decide) (by decide) (by decide) (by decide)
  refine ⟨hcopy, by cbv,
    { twins with entries := (besides [(["t"], .directory), (["t", "a"], .file "y" 0o644),
      (["t", "b"], .file "y" 0o644)]).entries }, ?_, rfl⟩
  unfold Does
  cbv

/-- The bits by which a file is run as its owner or group are taken away when it is written. -/
def stripped : Files :=
  { besides [(["t"], .directory)] with
    refusal? := fun access _ => if access = .keepId then some .permissionDenied else none }

/-- A copy loses the bits that the system takes away. -/
theorem changes_stripped : stripped.Copyable "/s" ["t"] ∧
    stripped.find "/t" = .ok (["t"], .directory) ∧
    ∃ now, Does (copyContents "/s" "/t") stripped 2 now ∧
      now.at? ["t", "a"] = some (.file "x" 0o755) := by
  have hcopy : stripped.Copyable "/s" ["t"] :=
    copyable_besides ⟨by decide, by decide, by decide, .of_forall (by simp [stripped, besides])⟩
      (by decide) (by cbv) (by cbv) (by cbv) (by decide) (by decide) (by decide) (by decide)
  refine ⟨hcopy, by cbv,
    { stripped with entries := (besides [(["t"], .directory), (["t", "a"], .file "x" 0o755),
      (["t", "b"], .file "y" 0o644)]).entries }, ?_, rfl⟩
  unfold Does
  cbv

/-- The path of the target goes through a directory that is not there, at the place of a copy. -/
def wound : Files :=
  besides [(["t"], .directory)]

/-- The directory that is made on the way is in the way of the copy of a file. -/
theorem refuses_wound : wound.Copyable "/s" ["t"] ∧ wound.exists? "/t/a/.." = false ∧
    (copyContents "/s" "/t/a/..").run.run wound =
      (.error .isDirectory, besides [(["t"], .directory), (["t", "a"], .directory)]) := by
  have hcopy : wound.Copyable "/s" ["t"] :=
    copyable_besides ⟨by decide, by decide, by decide, .of_forall (by simp [wound, besides])⟩
      (by decide) (by cbv) (by cbv) (by cbv) (by decide) (by decide) (by decide) (by decide)
  refine ⟨hcopy, by cbv, ?_⟩
  cbv

/-- A way through the directory that is copied leaves more in it, and in the copy. -/
theorem changes_wound : wound.Copyable "/s" ["t"] ∧ wound.exists? "/s/x/../../t" = false ∧
    wound.at? ["t", "x"] = none ∧
    ∃ now, Does (copyContents "/s" "/s/x/../../t") wound 2 now ∧
      now.at? ["t", "x"] = some .directory := by
  refine ⟨refuses_wound.1, by cbv, rfl, besides [(["t"], .directory), (["s", "x"], .directory),
    (["t", "a"], .file "x" 0o4755), (["t", "b"], .file "y" 0o644), (["t", "x"], .directory)], ?_, rfl⟩
  unfold Does
  cbv

/-- Relative paths start at the target. -/
def nameless : Files :=
  { besides [(["t"], .directory)] with here := ["t"] }

/-- With an empty path the contents are copied to where relative paths start, and the path still leads
nowhere. -/
theorem misses_nameless : nameless.Copyable "/s" ["t"] ∧ nameless.exists? "" = false ∧
    ∃ now, Does (copyContents "/s" "") nameless 2 now ∧ now.exists? "" = false := by
  have hcopy : nameless.Copyable "/s" ["t"] :=
    copyable_besides ⟨by decide, by decide, by decide, .of_forall (by simp [nameless, besides])⟩
      (by decide) (by cbv) (by cbv) (by cbv) (by decide) (by decide) (by decide) (by decide)
  refine ⟨hcopy, by cbv,
    { nameless with entries := (besides [(["t"], .directory), (["t", "a"], .file "x" 0o4755),
      (["t", "b"], .file "y" 0o644)]).entries }, ?_, by cbv⟩
  unfold Does
  cbv

/-- A path that is too long leads nowhere, and nothing is copied there. -/
theorem refuses_of_long (hne : target ≠ "") (hnul : target.contains '\x00' = false)
    (hlong : pathLimit < target.utf8ByteSize) : files.exists? target = false ∧
      Refuses (copyContents source target) files .nameTooLong := by
  have hsome : ¬ target.isEmpty = true := by simpa using hne
  have hplain : ¬ target.contains '\x00' = true := by simp [hnul]
  constructor
  · rw [exists?, find, resolve, if_neg hsome, if_neg hplain, if_pos hlong]
    rfl
  · have hmake : Refuses (makeDirectories target) files .nameTooLong := by
      unfold makeDirectories
      rw [if_neg hplain, if_pos hlong]
      rfl
    exact hmake.bind _

/-- A path to the target with more slashes at its end than a path may have bytes. -/
def lengthy : String :=
  "/t" ++ String.ofList (List.replicate pathLimit '/')

/-- The bytes of slashes are as many as the slashes. -/
theorem size_ofList_replicate (n : Nat) :
    (String.ofList (List.replicate n '/')).utf8ByteSize = n := by
  induction n with
  | zero => decide
  | succ n ih =>
    have hone : (String.ofList ['/']).utf8ByteSize = 1 := by decide
    rw [List.replicate_succ', String.ofList_append, String.utf8ByteSize_append, ih, hone]

/-- There is no path of this length, although the directory is there. -/
theorem refuses_lengthy : wound.Copyable "/s" ["t"] ∧ wound.exists? lengthy = false ∧
    Refuses (copyContents "/s" lengthy) wound .nameTooLong := by
  have hnul : lengthy.contains '\x00' = false := by
    rw [String.contains_char_eq, lengthy, String.toList_append, String.toList_ofList]
    simp [List.mem_replicate]
  have hlong : pathLimit < lengthy.utf8ByteSize := by
    rw [lengthy, String.utf8ByteSize_append, size_ofList_replicate]
    have hpos : 0 < "/t".utf8ByteSize := by decide
    omega
  have hne : lengthy ≠ "" := by
    intro hempty
    rw [hempty] at hlong
    exact absurd hlong (by decide)
  exact ⟨refuses_wound.1, refuses_of_long hne hnul hlong⟩

end Scaffolding.Files
