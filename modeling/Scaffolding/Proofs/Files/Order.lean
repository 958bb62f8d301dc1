import Scaffolding.Proofs.Files.Make
import Scaffolding.Proofs.Files.Source

/-!
# Files in which the same can be copied

What can be copied is a matter of what can be reached, of what the directories hold that are reached, and
of what is in the target. So it is the same in files with the same entries in another order, and in files
in which the directories were made that lead to the target, if none of them gets in the way.
-/

set_option autoImplicit false

namespace Scaffolding.Files

variable {files other made now : Files} {path source target : String} {place into origin q : Place}
  {r ns : List String} {name : String} {e x : Entry}

/-! ## What copying depends on -/

/-- What can be copied can be copied in other files with the same to be reached, if nothing but
directories for directories is new in the target. -/
theorem Copyable.transfer (h : files.Copyable source into) (htree : other.IsTree)
    (hsetting : files.SameSetting other)
    (hleads : ∀ r place e, other.Leads source r place e ↔ files.Leads source r place e)
    (hlist : ∀ r d, files.Leads source r d .directory → ∀ name ∈ other.list d, name ∈ files.list d)
    (hinto : ∀ r place e x, files.Leads source r place e → other.at? (into ++ r) = some x →
      files.at? (into ++ r) = some x ∨ x = .directory ∧ e = .directory) :
    other.Copyable source into := by
  refine ⟨htree, ?_, ?_, ?_, ?_, ?_, ?_, ?_⟩
  · obtain ⟨start, hstart⟩ := h.start
    exact ⟨start, (hleads ..).mpr hstart⟩
  · intro r d hd name hname
    rw [hleads] at hd
    obtain ⟨place, e, hr⟩ := h.resolves r d hd name (hlist r d hd name hname)
    exact ⟨place, e, (hleads ..).mpr hr⟩
  · intro r place e hr
    exact (hsetting.refusal?_eq ..).trans (h.readable r place e ((hleads ..).mp hr))
  · intro r q d hd hq
    exact h.loopless r q d ((hleads ..).mp hd) ((hleads ..).mp hq)
  · intro r place e hr
    exact h.apart r place e ((hleads ..).mp hr)
  · intro r place e x hr hx
    rw [hleads] at hr
    rcases hinto r place e x hr hx with hold | hnew
    · exact h.same r place e x hr hold
    · exact .inl hnew
  · rintro r place x ⟨text, mode, hr⟩ hx
    rw [hleads] at hr
    rcases hinto r place _ x hr hx with hold | ⟨-, he⟩
    · exact (hsetting.refusal?_eq ..).trans (h.writable r place x ⟨text, mode, hr⟩ hold)
    · cases he

/-- What is not hindered is not hindered in other files with the same to be reached, and with no less in
them. -/
theorem Unhindered.transfer (h : files.Unhindered source target into)
    (hsetting : files.SameSetting other)
    (hleads : ∀ r place e, other.Leads source r place e ↔ files.Leads source r place e)
    (hnone : ∀ q, other.at? q = none → files.at? q = none) : other.Unhindered source target into := by
  have hreaches : ∀ {r}, other.Reaches source r → files.Reaches source r := by
    rintro r ⟨place, e, hr⟩
    exact ⟨place, e, (hleads ..).mp hr⟩
  have hfile : ∀ {r place}, other.ReachesFile source r place → files.ReachesFile source r place := by
    rintro r place ⟨text, mode, hr⟩
    exact ⟨text, mode, (hleads ..).mp hr⟩
  constructor
  · intro r hr
    exact h.short r (hreaches hr)
  · intro r name hr
    exact (hsetting.refusal?_eq ..).trans (h.search r name (hreaches hr))
  · intro r hr hat
    exact (hsetting.refusal?_eq ..).trans (h.make r (hreaches hr) (hnone _ hat))
  · intro r place hr
    exact (hsetting.refusal?_eq ..).trans (h.write r place (hfile hr))
  · intro r place hr
    exact (hsetting.refusal?_eq ..).trans (h.setMode r place (hfile hr))
  · intro r place text mode hr
    rw [hsetting.refusal?_eq]
    exact h.keepId r place text mode ((hleads ..).mp hr)
  · intro r r' place place' hr hr' hsame
    rw [hsetting.sameFile] at hsame
    exact h.distinct r r' place place' (hfile hr) (hfile hr') hsame
  · intro r r' place place' hr hr'
    rw [hsetting.sameFile]
    exact h.unshared r r' place place' (hfile hr) (hfile hr')

/-! ## The order of entries -/

/-- The same entries, held in some other order. -/
structure Reordered (files other : Files) : Prop where
  entries : other.entries.Perm files.entries
  setting : files.SameSetting other

/-- What is found does not depend on the order of the entries. -/
theorem lookup_perm {xs ys : List (Place × Entry)} (h : xs.Perm ys) (hnodup : (xs.map Prod.fst).Nodup)
    (q : Place) : xs.lookup q = ys.lookup q := by
  induction h with
  | nil => rfl
  | cons x _ ih =>
    obtain ⟨p, x⟩ := x
    rw [List.map_cons, List.nodup_cons] at hnodup
    rw [List.lookup_cons, List.lookup_cons, ih hnodup.2]
  | swap x y xs =>
    obtain ⟨p, x⟩ := x
    obtain ⟨p', y⟩ := y
    have hne : p' ≠ p := by
      rintro rfl
      simp at hnodup
    simp only [List.lookup_cons]
    by_cases hp : q = p
    · subst hp
      have hother : (q == p') = false := by simpa using Ne.symm hne
      rw [hother]
    · have hother : (q == p) = false := by simpa using hp
      rw [hother]
  | trans h _ ih ih' => rw [ih hnodup, ih' ((h.map Prod.fst).nodup hnodup)]

namespace Reordered

/-- Files are in an order of their own. -/
theorem refl (files : Files) : files.Reordered files :=
  ⟨.refl _, .refl files⟩

variable (h : files.Reordered other)

include h

/-- In any order there are the same places. -/
theorem places : other.places.Perm files.places :=
  h.entries.map Prod.fst

/-- In any order a directory lists the same names. -/
theorem mem_list_iff {d : Place} : name ∈ other.list d ↔ name ∈ files.list d := by
  rw [Files.mem_list_iff, Files.mem_list_iff]
  exact h.places.mem_iff

variable (htree : files.IsTree)

include htree

/-- In any order the same stands at a place. -/
theorem at? (q : Place) : other.at? q = files.at? q := by
  cases q with
  | nil => rfl
  | cons name rest => exact lookup_perm h.entries (h.places.symm.nodup htree.nodup) _

/-- Files grow into any other order of them. -/
theorem grows : files.Grows other :=
  .of_same h.setting (h.at? htree)

/-- In any order a tree is a tree. -/
theorem isTree : other.IsTree := by
  refine ⟨h.places.symm.nodup htree.nodup, ?_, ?_, (h.grows htree).numbered htree.numbered⟩
  · rw [h.setting.here]
    exact (h.grows htree).hasDirectory htree.here
  · intro place hplace
    exact (h.grows htree).hasDirectory (htree.parent place (h.places.mem_iff.mp hplace))

/-- In any order a path leads to the same. -/
theorem leads_iff : other.Leads path r place e ↔ files.Leads path r place e := by
  have hback : other.Grows files := .of_same h.setting.symm fun q => (h.at? htree q).symm
  exact ⟨fun hr => hr.grows hback (h.at? htree _).symm,
    fun hr => hr.grows (h.grows htree) (h.at? htree _)⟩

/-- The same directory can be had, and leaves the same entries. -/
theorem ensures (hhad : Ensures files origin ns place now) :
    ∃ now', Ensures other origin ns place now' ∧ now.Reordered now' := by
  cases hhad with
  | there way directory =>
    have hsome : (files.at? place).isSome = true := by
      rw [hasDirectory_iff.mp directory]
      rfl
    exact ⟨other, .there (way.grows (h.grows htree) hsome) ((h.grows htree).hasDirectory directory), h⟩
  | made way absent allowed =>
    have hnone := (h.at? htree place).trans absent
    have hway := way.grows_of_end (h.grows htree) fun _ => ⟨by simp [hnone], by simp [hnone]⟩
    refine ⟨_, .made hway hnone ((h.setting.refusal?_eq ..).trans allowed), ?_, ?_⟩
    · have hlookup : ∀ {files : Files}, files.at? place = none →
          ¬ (files.entries.lookup place).isSome = true := by
        intro files hnone hsome
        have hne : place ≠ [] := by
          rintro rfl
          cases hnone
        rw [← at?_of_ne_nil hne, hnone] at hsome
        cases hsome
      unfold Files.set
      rw [if_neg (hlookup absent), if_neg (hlookup hnone)]
      exact h.entries.append_right _
    · exact (sameSetting_set.symm.trans h.setting).trans sameSetting_set

end Reordered

/-- In any order a directory can be had, and the states after it differ in their order only. -/
theorem Obtains.reordered (htree : files.IsTree) (horigin : files.hasDirectory origin = true)
    (hhad : Obtains files origin ns place now) (h : files.Reordered other) :
    ∃ now', Obtains other origin ns place now' ∧ now.Reordered now' := by
  induction hhad with
  | atOnce had =>
    obtain ⟨now', had', hnow⟩ := h.ensures htree had
    exact ⟨now', .atOnce had', hnow⟩
  | afterParent split above had ih =>
    obtain ⟨mid', above', hmid⟩ := ih
    obtain ⟨now', had', hnow⟩ := hmid.ensures (above.had htree horigin).tree had
    exact ⟨now', .afterParent split above' had', hnow⟩

/-- In any order the directory at a path can be had, and the states after it differ in their order
only. -/
theorem Makeable.reordered (htree : files.IsTree) (hmake : files.Makeable path place made)
    (h : files.Reordered other) : ∃ made', other.Makeable path place made' ∧ made.Reordered made' := by
  obtain ⟨made', hway, hmade⟩ := hmake.way.reordered htree (hasDirectory_origin htree path) h
  rw [← h.setting.origin] at hway
  exact ⟨made', ⟨hmake.legal, hway⟩, hmade⟩

/-- In any order a directory can be copied. -/
theorem Copyable.reordered (hcopy : files.Copyable source into) (h : files.Reordered other) :
    other.Copyable source into := by
  apply hcopy.transfer (h.isTree hcopy.tree) h.setting fun _ _ _ => h.leads_iff hcopy.tree
  · intro r d _ name hname
    exact h.mem_list_iff.mp hname
  · intro r place e x _ hx
    exact .inl ((h.at? hcopy.tree _).symm.trans hx)

/-- In any order a copy is unhindered. -/
theorem Unhindered.reordered (htree : files.IsTree) (hfree : files.Unhindered source target into)
    (h : files.Reordered other) : other.Unhindered source target into :=
  hfree.transfer h.setting (fun _ _ _ => h.leads_iff htree) fun q hq =>
    (h.at? htree q).symm.trans hq

/-! ## The directories that lead to the target -/

/-- The directories that are made for a target lead to it, or they keep out of the directories that are
copied and from the places of the copies of files. -/
structure Aside (files : Files) (source : String) (into : Place) (made : Files) : Prop where
  out_of_source : ∀ q, made.at? q ≠ files.at? q → ¬ q <+: into →
    ∀ r d, files.Leads source r d .directory → q.dropLast ≠ d
  off_copies : ∀ q, made.at? q ≠ files.at? q → ¬ q <+: into →
    ∀ r place, files.ReachesFile source r place → q ≠ into ++ r

section

variable (hcopy : files.Copyable source into) (hmake : files.Makeable target into made)
  (haside : files.Aside source into made)

include hcopy hmake

/-- Something stands where it stood after the directories for the target were made. -/
theorem Makeable.at?_eq (hx : files.at? q = some x) : made.at? q = files.at? q := by
  by_contra hne
  rw [((hmake.had hcopy.tree).made q hne).1] at hx
  cases hx

include haside

omit hmake in
/-- A directory that is copied holds no directory that was made for the target. -/
theorem Aside.mem_list {d : Place} (hd : files.Leads source r d .directory)
    (hname : name ∈ made.list d) : name ∈ files.list d := by
  rw [mem_list_iff, ← isSome_at?_iff (by simp)] at hname ⊢
  by_cases hsame : made.at? (d ++ [name]) = files.at? (d ++ [name])
  · rwa [hsame] at hname
  · exfalso
    by_cases habove : d ++ [name] <+: into
    · exact (hcopy.entry_apart hd name).2 habove
    · exact haside.out_of_source _ hsame habove r d hd List.dropLast_concat

/-- The same can be reached after the directories for the target were made. -/
theorem Aside.leads_iff : made.Leads source r place e ↔ files.Leads source r place e := by
  have hhad := hmake.had hcopy.tree
  have hgrown : ∀ {r place e}, files.Leads source r place e → made.Leads source r place e :=
    fun hr => hr.grows hhad.grows (hmake.at?_eq hcopy hr.at?)
  refine ⟨fun hr => ?_, hgrown⟩
  obtain ⟨start, hstart⟩ := hcopy.start
  induction r using List.reverseRecOn generalizing place e with
  | nil =>
    obtain ⟨rfl, rfl⟩ := (hgrown hstart).unique hr
    exact hstart
  | append_singleton r name ih =>
    obtain ⟨d, hd, hname⟩ := (hgrown hstart).parent hhad.tree hr
    have hold := ih hd
    obtain ⟨place', e', hr'⟩ := hcopy.resolves r d hold name (haside.mem_list hcopy hold hname)
    obtain ⟨rfl, rfl⟩ := (hgrown hr').unique hr
    exact hr'

/-- What can be copied can be copied when the directories for the target were made. -/
theorem Copyable.of_made : made.Copyable source into := by
  have hhad := hmake.had hcopy.tree
  apply hcopy.transfer hhad.tree hhad.grows.setting fun _ _ _ => haside.leads_iff hcopy hmake
  · intro r d hd name hname
    exact haside.mem_list hcopy hd hname
  · intro r place e x hr hx
    by_cases hsame : made.at? (into ++ r) = files.at? (into ++ r)
    · exact .inl (hsame.symm.trans hx)
    · right
      rw [(hhad.made _ hsame).2.1] at hx
      cases hx
      refine ⟨rfl, ?_⟩
      cases e with
      | directory => rfl
      | link text => exact absurd rfl (hr.not_link hcopy.tree text)
      | file text mode =>
        exfalso
        by_cases habove : into ++ r <+: into
        · -- only the directory itself is copied to a place above the target
          obtain ⟨start, hstart⟩ := hcopy.start
          have hlength := habove.length_le
          rw [List.length_append] at hlength
          have hnil : r = [] := List.eq_nil_of_length_eq_zero (by omega)
          subst hnil
          have hentry := (hstart.unique hr).2
          cases hentry
        · exact haside.off_copies _ hsame habove r place ⟨text, mode, hr⟩ rfl

/-- A copy stays unhindered when the directories for its target are made. -/
theorem Unhindered.of_made (hfree : files.Unhindered source target into) :
    made.Unhindered source target into := by
  have hgrows := (hmake.had hcopy.tree).grows
  exact hfree.transfer hgrows.setting (fun _ _ _ => haside.leads_iff hcopy hmake)
    fun q hq => hgrows.none_of_none hq

end

end Scaffolding.Files
