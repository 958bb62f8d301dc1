import Scaffolding.Proofs.Version.Precedence
import Scaffolding.Version.Notice

/-!
# Notices along the order of versions

Which notice a registry gets is told by the order of versions: the one about newer versions if its
version comes after the expected one, and the one about older versions if its major version is lower.
Going up in the order, the first notice never stops and the second never starts.

Build metadata takes part in the order, though not in precedence. So precedence alone settles a notice
only where the expected version has another precedence; otherwise the build metadata decides.
-/

set_option autoImplicit false

namespace Scaffolding.Version

variable {expected found other upgrade : String} {s : Standing} {e v w : Version}

/-! ## Standings -/

/-- A version is found to be newer exactly if the expected one comes before it. -/
theorem standing_eq_newer_iff : standing e v = .newer ↔ e.Before v := by
  rw [← compare_eq_gt_iff, standing]
  split
  · next h => exact iff_of_true rfl h
  · next h => split <;> exact iff_of_false (by simp) h

/-- A version is found to be older exactly if its major number is smaller. -/
theorem standing_eq_older_iff : standing e v = .older ↔ v.major < e.major := by
  rw [standing]
  split
  · next h =>
    have hle := (compare_eq_gt_iff.mp h).major_le
    exact iff_of_false (by simp) (by omega)
  · split
    · next hlt => exact iff_of_true rfl hlt
    · next hle => exact iff_of_false (by simp) hle

/-- A version is fine if it is neither newer nor older. -/
theorem standing_eq_fine_iff : standing e v = .fine ↔ ¬ e.Before v ∧ ¬ v.major < e.major := by
  rw [← standing_eq_newer_iff, ← standing_eq_older_iff]
  cases standing e v <;> simp

/-- There is a standing exactly if both versions can be read. -/
theorem standing?_eq_some_iff :
    standing? expected found = some s ↔
      ∃ e v, read? expected = some e ∧ read? found = some v ∧ standing e v = s := by
  unfold standing?
  cases read? expected <;> cases read? found <;> simp

/-- What cannot be read is not compared. -/
theorem standing?_of_unread (h : read? expected = none ∨ read? found = none) :
    standing? expected found = none := by
  unfold standing?
  rcases h with h | h <;> rw [h]
  · rfl
  · cases read? expected <;> rfl

/-! ## Notices -/

/-- What a registry gets is the notice of a standing, which is none if the standing is fine. -/
def Gets (s : Standing) (expected found upgrade : String) : Prop :=
  notice? expected found upgrade = s.notice? expected found upgrade

/-- The notices for a newer and for an older registry are different texts. -/
theorem Standing.notice?_newer_ne_older :
    Standing.newer.notice? expected found upgrade ≠
      Standing.older.notice? expected found upgrade := by
  intro h
  have htext := congrArg String.toList (Option.some.inj h)
  simp only [String.toList_append, List.append_assoc] at htext
  have hrest := List.append_cancel_left (List.append_cancel_left htext)
  -- behind the registry's version, one goes on with "newer" and the other one with "older"
  have hthird := congrArg (fun cs => cs[2]?) hrest
  simp at hthird

/-- A notice tells which standing it is for. -/
theorem Standing.notice?_inj {a b : Standing}
    (h : a.notice? expected found upgrade = b.notice? expected found upgrade) : a = b := by
  cases a <;> cases b
  case newer.older => exact absurd h notice?_newer_ne_older
  case older.newer => exact absurd h.symm notice?_newer_ne_older
  all_goals first | rfl | cases h

/-- A notice is that of a standing exactly if the versions have this standing, fine being the one of
versions that cannot be read. -/
theorem gets_iff :
    Gets s expected found upgrade ↔ (standing? expected found).getD .fine = s := by
  have hnotice : notice? expected found upgrade =
      ((standing? expected found).getD .fine).notice? expected found upgrade := by
    unfold notice?
    cases standing? expected found <;> rfl
  rw [Gets, hnotice]
  constructor
  · exact Standing.notice?_inj
  · rintro rfl
    rfl

/-- There is no notice exactly for what is fine. -/
theorem gets_fine_iff : Gets .fine expected found upgrade ↔ notice? expected found upgrade = none :=
  Iff.rfl

/-- Between versions that were read the notice is the one of their standing. -/
theorem gets_iff_of_read (he : read? expected = some e) (hv : read? found = some v) :
    Gets s expected found upgrade ↔ standing e v = s := by
  rw [gets_iff, standing?, he, hv]
  rfl

/-- There is no notice about a version that cannot be read. -/
theorem gets_fine_of_unread (h : read? expected = none ∨ read? found = none) :
    Gets .fine expected found upgrade := by
  rw [gets_iff, standing?_of_unread h]
  rfl

/-- A standing that is not fine is one of two versions that were read. -/
theorem gets_iff_exists (hfine : s ≠ .fine) :
    Gets s expected found upgrade ↔
      ∃ e v, read? expected = some e ∧ read? found = some v ∧ standing e v = s := by
  rw [gets_iff, ← standing?_eq_some_iff]
  cases standing? expected found with
  | none => exact iff_of_false (Ne.symm hfine) (by simp)
  | some other => simp

/-- The notice about a newer registry is given exactly if the expected version comes before the one
found. -/
theorem gets_newer_iff :
    Gets .newer expected found upgrade ↔
      ∃ e v, read? expected = some e ∧ read? found = some v ∧ e.Before v := by
  simp only [gets_iff_exists (s := .newer) (by decide), standing_eq_newer_iff]

/-- The notice about an older registry is given exactly if the major number found is smaller. -/
theorem gets_older_iff :
    Gets .older expected found upgrade ↔
      ∃ e v, read? expected = some e ∧ read? found = some v ∧ v.major < e.major := by
  simp only [gets_iff_exists (s := .older) (by decide), standing_eq_older_iff]

/-! ## Along the order -/

/-- The notices that registries get where a version is expected follow the order of versions. -/
structure FollowsOrder (expected upgrade : String) : Prop where
  newer_up : ∀ {found other v w}, read? found = some v → read? other = some w → ¬ w.Before v →
    Gets .newer expected found upgrade → Gets .newer expected other upgrade
  older_down : ∀ {found other v w}, read? found = some v → read? other = some w → ¬ w.Before v →
    Gets .older expected other upgrade → Gets .older expected found upgrade
  newer_iff : ∀ found, Gets .newer expected found upgrade ↔
    ∃ e v, read? expected = some e ∧ read? found = some v ∧ e.Before v
  older_iff : ∀ found, Gets .older expected found upgrade ↔
    ∃ e v, read? expected = some e ∧ read? found = some v ∧ v.major < e.major
  same : ∀ {found v}, read? found = some v → read? expected = some v →
    notice? expected found upgrade = none
  unread : ∀ {found}, read? expected = none ∨ read? found = none →
    notice? expected found upgrade = none

/-- The notices about the versions that can be found follow their order. -/
theorem notices_follow_order (expected upgrade : String) : FollowsOrder expected upgrade where
  newer_up := by
    intro found other v w hv hw hnot hnewer
    obtain ⟨e, v', he, hv', hbefore⟩ := gets_newer_iff.mp hnewer
    cases hv.symm.trans hv'
    refine gets_newer_iff.mpr ⟨e, w, he, hw, ?_⟩
    rcases before_trichotomy v w with hvw | rfl | hwv
    · exact hbefore.trans hvw
    · exact hbefore
    · exact absurd hwv hnot
  older_down := by
    intro found other v w hv hw hnot holder
    obtain ⟨e, w', he, hw', hlower⟩ := gets_older_iff.mp holder
    cases hw.symm.trans hw'
    refine gets_older_iff.mpr ⟨e, v, he, hv, ?_⟩
    rcases before_trichotomy v w with hvw | rfl | hwv
    · exact Nat.lt_of_le_of_lt hvw.major_le hlower
    · exact hlower
    · exact absurd hwv hnot
  newer_iff := fun _ => gets_newer_iff
  older_iff := fun _ => gets_older_iff
  same := by
    intro found v hv he
    rw [← gets_fine_iff, gets_iff_of_read he hv, standing, compare_eq_eq_iff.mpr rfl]
    simp
  unread := gets_fine_of_unread

/-! ## Versions of one precedence -/

/-- Two versions that differ in their builds only are both after another one, or both not, unless
the builds decide. -/
theorem Alike.before_iff_before (h : v.Alike w) :
    (e.Before v ↔ e.Before w) ↔
      (e.Alike v → (IdentifiersBefore e.build v.build ↔ IdentifiersBefore e.build w.build)) := by
  by_cases he : e.Alike v
  · rw [he.before_iff, (he.trans h).before_iff]
    exact ⟨fun hbuild _ => hbuild, fun hbuild => hbuild he⟩
  · have he' : ¬ e.Alike w := fun hw => he (hw.trans h.symm)
    rw [before_iff_precedes he, before_iff_precedes he']
    exact iff_of_true ⟨h.precedes, h.symm.precedes⟩ fun hv => absurd hv he

/-- Two versions that differ in their builds only have the same standing exactly if both are newer,
or both are not. -/
theorem Alike.standing_eq_iff (h : v.Alike w) :
    standing e v = standing e w ↔ (e.Before v ↔ e.Before w) := by
  constructor
  · intro hstanding
    rw [← standing_eq_newer_iff, ← standing_eq_newer_iff, hstanding]
  · intro hbefore
    rw [← compare_eq_gt_iff, ← compare_eq_gt_iff] at hbefore
    simp only [standing, hbefore, h.major]

/-- Registries whose versions are of one precedence are both too old or neither. They get the same
notice exactly if the expected version has another precedence, or comes before both of them or before
neither by its build metadata. A registry with the precedence that is expected gets no notice exactly
if it does not come later by its build metadata. -/
theorem notice?_of_alike_iff (expected upgrade : String) {found other : String} {v w : Version}
    (hv : read? found = some v) (hw : read? other = some w) (halike : v.Alike w) :
    (Gets .older expected found upgrade ↔ Gets .older expected other upgrade) ∧
      ((∀ s, Gets s expected found upgrade ↔ Gets s expected other upgrade) ↔
        ∀ e, read? expected = some e → e.Alike v →
          (IdentifiersBefore e.build v.build ↔ IdentifiersBefore e.build w.build)) ∧
      ∀ e, read? expected = some e → e.Alike v →
        (notice? expected found upgrade = none ↔ ¬ IdentifiersBefore e.build v.build) := by
  cases he : read? expected with
  | none =>
    have hgets (s : Standing) : Gets s expected found upgrade ↔ Gets s expected other upgrade := by
      rw [gets_iff, gets_iff, standing?_of_unread (.inl he), standing?_of_unread (.inl he)]
    refine ⟨hgets .older, iff_of_true hgets ?_, ?_⟩
    · intro e he'
      cases he'
    · intro e he'
      cases he'
  | some e =>
    simp only [gets_iff_of_read he hv, gets_iff_of_read he hw, ← gets_fine_iff, Option.some.injEq,
      forall_eq']
    refine ⟨?_, ?_, fun halike' => ?_⟩
    · rw [standing_eq_older_iff, standing_eq_older_iff, halike.major]
    · rw [← halike.before_iff_before, ← halike.standing_eq_iff]
      exact ⟨fun h => ((h _).mp rfl).symm, fun h _ => by rw [h]⟩
    · rw [standing_eq_fine_iff, halike'.before_iff, halike'.major]
      simp

/-- Both are candidates for the release that is expected, and their build metadata is not compared. -/
theorem notice?_of_alike_candidates :
    ∃ v w, read? "1.0.0-rc.1+7" = some v ∧ read? " v1.0.0-rc.1+007.x" = some w ∧ v.Alike w ∧
      ∀ s, Gets s "1" "1.0.0-rc.1+7" "update" ↔ Gets s "1" " v1.0.0-rc.1+007.x" "update" := by
  let v : Version := ⟨1, 0, 0, ["rc".toList, "1".toList], ["7".toList]⟩
  let w : Version := ⟨1, 0, 0, ["rc".toList, "1".toList], ["007".toList, "x".toList]⟩
  have hv : read? "1.0.0-rc.1+7" = some v := by decide +kernel
  have hw : read? " v1.0.0-rc.1+007.x" = some w := by decide +kernel
  have he : read? "1" = some ⟨1, 0, 0, [], []⟩ := by decide +kernel
  have halike : v.Alike w := ⟨rfl, rfl, rfl, rfl⟩
  refine ⟨v, w, hv, hw, halike, (notice?_of_alike_iff "1" "update" hv hw halike).2.1.mpr ?_⟩
  intro e he' hsame
  cases he.symm.trans he'
  cases hsame.preRelease

/-- A registry that was published again as another build of the expected version counts as newer. -/
theorem notice?_of_another_build :
    ∃ v w, read? "1.0.0" = some v ∧ read? "1.0.0+build.5" = some w ∧ v.Alike w ∧
      notice? "1.0.0" "1.0.0" "update" = none ∧
      Gets .newer "1.0.0" "1.0.0+build.5" "update" ∧
      notice? "1.0.0" "1.0.0+build.5" "update" ≠ none := by
  refine ⟨⟨1, 0, 0, [], []⟩, ⟨1, 0, 0, [], ["build".toList, "5".toList]⟩, by decide +kernel,
    by decide +kernel, ⟨rfl, rfl, rfl, rfl⟩, by decide +kernel, ?_, by decide +kernel⟩
  rw [Gets]
  decide +kernel

end Scaffolding.Version
