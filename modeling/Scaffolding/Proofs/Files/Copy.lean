import Scaffolding.Files.Copy
import Scaffolding.Proofs.Files.Make
import Scaffolding.Proofs.Files.Source

/-!
# The copy of a directory

A copy that is under way has some entries done: each is in the target, as a real file that the owner
may write or as a directory, and everything else is as it was when the copy began. Every step does one
entry more. So after the last one all is done that can be reached, and nothing else.

The invariant speaks of the entries that are done and not of the order in which they were done, so
the order in which a directory is listed does not matter. An entry that is done is so under all the
names that its copy has.
-/

set_option autoImplicit false

namespace Scaffolding.Files

/-- What a copy of an entry is. -/
def Entry.copied : Entry → Entry
  | .file text mode => .file text (mode ||| 0o200)
  | e => e

variable {files now mid after : Files} {source target path : String} {into q place p : Place}
  {r : List String} {name : String} {e x : Entry} {done : List String → Prop}

/-- What is copied stays of its kind. -/
theorem Entry.SameKind.copied (h : x.SameKind e) : x.SameKind e.copied := by
  rcases h with ⟨rfl, rfl⟩ | ⟨text, mode, text', mode', rfl, rfl⟩
  · exact .inl ⟨rfl, rfl⟩
  · exact .inr ⟨text, mode, text', mode' ||| 0o200, rfl, rfl⟩

/-! ## Putting one entry -/

/-- Between two states of the files an entry was put at a place, under all its names, and nothing else
was changed. -/
structure Puts (now after : Files) (q : Place) (e : Entry) : Prop where
  setting : now.SameSetting after
  at? : ∀ p, after.at? p = if now.sameFile q p then some e else now.at? p
  list : ∀ d, (∀ name, q ≠ d ++ [name]) → after.list d = now.list d

namespace Puts

/-- Putting an entry at a place puts it there, under all its names. -/
theorem of_set (hnumbers : now.Numbered) (hq : q ≠ []) : Puts now (now.set q e) q e :=
  ⟨sameSetting_set, fun _ => at?_set hnumbers hq, fun _ => list_set_of_ne⟩

/-- Nothing has to be put where it is already, under all names. -/
theorem of_there (h : ∀ p, now.sameFile q p = true → now.at? p = some e) : Puts now now q e := by
  refine ⟨.refl now, fun p => ?_, fun _ _ => rfl⟩
  split
  · next hsame => exact h p hsame
  · rfl

/-- A directory has one name. -/
theorem of_directory (hnumbers : now.Numbered) (h : now.at? q = some .directory) :
    Puts now now q .directory := by
  apply of_there
  intro p hsame
  rw [hnumbers.eq_of_sameFile hsame (by simp [h]), h]

/-- Of two entries put at one place the second one counts. -/
theorem trans (h : Puts now mid q x) (h' : Puts mid after q e) : Puts now after q e := by
  refine ⟨h.setting.trans h'.setting, fun p => ?_, fun d hd => (h'.list d hd).trans (h.list d hd)⟩
  rw [h'.at?, h.setting.sameFile, h.at?]
  split <;> rfl

/-- The entry stands at every name of its file. -/
theorem at?_name (h : Puts now after q e) (hsame : after.sameFile q p = true) :
    after.at? p = some e := by
  rw [h.setting.sameFile] at hsame
  rw [h.at?, if_pos hsame]

/-- The entry stands at its place. -/
theorem at?_self (h : Puts now after q e) : after.at? q = some e :=
  h.at?_name (sameFile_self ..)

/-- Putting a file over nothing or over a file keeps everything there. -/
theorem grows {text : String} {mode : Nat} (h : Puts now after q (.file text mode))
    (hnumbers : now.Numbered)
    (hkind : ∀ x, now.at? q = some x → ∃ text mode, x = .file text mode) : now.Grows after := by
  refine ⟨h.setting, fun p x hx => ?_⟩
  rw [h.at?]
  split
  · next hsame =>
    right
    by_cases heq : p = q
    · subst heq
      obtain ⟨text', mode', rfl⟩ := hkind x hx
      exact ⟨text', mode', text, mode, rfl, rfl⟩
    · obtain ⟨-, text', mode', hat⟩ := hnumbers.files_of_ne hsame heq
      rw [hx] at hat
      cases hat
      exact ⟨text', mode', text, mode, rfl, rfl⟩
  · exact .inl hx

end Puts

/-! ## Copying one file -/

variable {origin : Place} {text : String} {mode : Nat}

/-- Opening a file puts an empty one. -/
theorem does_openEmpty (hnumbers : now.Numbered) (hq : q ≠ [])
    (hkind : ∀ x, now.at? q = some x → ∃ text mode, x = .file text mode)
    (hwrite : ∀ x, now.at? q = some x → now.refusal? .overwrite q = none)
    (hmake : now.at? q = none → now.refusal? .make q = none) :
    ∃ after mode', Does (openEmpty q mode) now () after ∧ Puts now after q (.file "" mode') := by
  cases hat : now.at? q with
  | none =>
    refine ⟨_, mode, ?_, .of_set hnumbers hq⟩
    unfold openEmpty
    apply Does.get_bind
    rw [hat]
    exact (does_permit (hmake hat)).bind (does_modify _ now)
  | some x =>
    obtain ⟨text', mode', rfl⟩ := hkind x hat
    refine ⟨_, mode', ?_, .of_set hnumbers hq⟩
    unfold openEmpty
    apply Does.get_bind
    rw [hat]
    exact (does_permit (hwrite _ hat)).bind (does_modify _ now)

/-- A text is written into a file that was emptied, with its mode unless bits of it are taken away. -/
theorem does_writeText (hnumbers : now.Numbered) (hq : q ≠ [])
    (hempty : ∀ p, now.sameFile q p = true → now.at? p = some (.file "" mode))
    (hwrite : now.refusal? .write q = none)
    (hkeep : mode &&& 0o6000 = 0 ∨ now.refusal? .keepId q = none) :
    ∃ after, Does (writeText q text mode) now () after ∧ Puts now after q (.file text mode) := by
  have hmode : now.writtenMode q mode = mode := by
    unfold writtenMode
    rcases hkeep with hplain | hkept
    · simp [hplain]
    · simp [hkept]
  by_cases htext : text = ""
  · subst htext
    exact ⟨now, does_pure () now, .of_there hempty⟩
  · refine ⟨_, ?_, .of_set hnumbers hq⟩
    have hsome : ¬ text.isEmpty = true := by simpa using htext
    unfold writeText
    rw [if_neg hsome]
    apply (does_permit hwrite).bind
    have hmodify := does_modify
      (fun files => files.set q (.file text (files.writtenMode q mode))) now
    rw [hmode] at hmodify
    exact hmodify

/-- What it takes to copy the file at a place to a path. -/
structure Writes (now : Files) (place : Place) (mode : Nat) (target : String) (q : Place) : Prop where
  numbered : now.Numbered
  ne_root : q ≠ []
  legal : IsLegal target
  way : Walks now true linkLimit (now.origin target) (steps target) q
  other : now.sameFile q place = false
  /-- There is nothing at the target, or a file. -/
  file : ∀ x, now.at? q = some x → ∃ text mode, x = .file text mode
  read : now.refusal? .read place = none
  overwrite : ∀ x, now.at? q = some x → now.refusal? .overwrite q = none
  make : now.at? q = none → now.refusal? .make q = none
  write : now.refusal? .write q = none
  setMode : now.refusal? .setMode q = none
  keepId : mode &&& 0o6000 = 0 ∨ now.refusal? .keepId q = none

/-- Writing a copy puts it where its path leads, and lets the owner write it. -/
theorem Writes.does_writeCopy (h : Writes now place mode target q)
    (hfound : now.find source = .ok (place, .file text mode)) :
    ∃ after, Does (writeCopy source target) now () after ∧
      Puts now after q (.file text (mode ||| 0o200)) := by
  have hallowed : ∀ {access mid}, now.SameSetting mid → now.refusal? access q = none →
      mid.refusal? access q = none := fun hset hnow => (hset.refusal?_eq ..).trans hnow
  obtain ⟨opened, mode', hopen, hopened⟩ :=
    does_openEmpty h.numbered h.ne_root h.file h.overwrite h.make
  have hnumbers := (hopened.grows h.numbered h.file).numbered h.numbered
  have hempty := hopened.trans (.of_set (e := .file "" mode) hnumbers h.ne_root)
  have hnumbers' := (hempty.grows h.numbered h.file).numbered h.numbered
  obtain ⟨written, hwrite, hwritten⟩ : ∃ written,
      Does (writeText q text mode) (opened.set q (.file "" mode)) () written ∧
        Puts (opened.set q (.file "" mode)) written q (.file text mode) :=
    does_writeText hnumbers' h.ne_root (fun _ => hempty.at?_name)
      (hallowed hempty.setting h.write) (h.keepId.imp_right (hallowed hempty.setting))
  have hput := hempty.trans hwritten
  have hgrows := hput.grows h.numbered h.file
  have hsame : ¬ (opened.set q (.file "" mode)).sameFile q place = true := by
    rw [hempty.setting.sameFile, h.other]
    exact Bool.false_ne_true
  have hcopy : Does (copyFile source target) now () written := by
    apply (does_ask hfound).bind
    apply (does_permit h.read).bind
    apply (does_ask (resolve_eq_ok_iff.mpr ⟨h.legal, h.way⟩)).bind
    apply hopen.bind
    apply (does_permit (hallowed hopened.setting h.setMode)).bind
    apply (does_modify _ opened).bind
    apply Does.get_bind
    rw [if_neg hsame]
    exact hwrite
  have hagain : written.find target = .ok (q, .file text mode) := by
    refine find_eq_ok_iff.mpr ⟨h.legal, ?_, hput.at?_self⟩
    rw [hput.setting.origin]
    apply h.way.grows_of_end hgrows
    intro _
    exact ⟨by simp [hput.at?_self], by simp [hput.at?_self]⟩
  refine ⟨_, hcopy.bind ?_, hput.trans (.of_set (hgrows.numbered h.numbered) h.ne_root)⟩
  apply (does_ask hagain).bind
  apply (does_permit (hallowed hput.setting h.setMode)).bind
  exact does_modify _ _

/-! ## A copy under way -/

/-- A copy of which some entries are done. -/
structure Partial (files : Files) (source : String) (into : Place) (done : List String → Prop)
    (now : Files) : Prop where
  setting : files.SameSetting now
  reached : ∀ r, done r → files.Reaches source r
  root : done []
  /-- An entry is done after the directories in which it stands. -/
  above : ∀ r name, done (r ++ [name]) → done r
  copied : ∀ r place e q, done r → files.Leads source r place e →
    files.sameFile (into ++ r) q = true → now.at? q = some e.copied
  kept : ∀ q, (∀ r, done r → files.sameFile (into ++ r) q = false) → now.at? q = files.at? q
  listed : ∀ r d, files.Leads source r d .directory → now.list d = files.list d

/-- It does not matter how it is said what is done. -/
theorem Partial.congr {done' : List String → Prop} (h : Partial files source into done now)
    (hiff : ∀ r, done r ↔ done' r) : Partial files source into done' now := by
  have heq : done = done' := funext fun r => propext (hiff r)
  rw [← heq]
  exact h

section

variable (hcopy : files.Copyable source into) (hfree : files.Unhindered source target into)
  (htarget : files.Leads target [] into .directory)

include hcopy

include htarget in
/-- The path of a copy is legal. -/
theorem Unhindered.isLegal (hfree : files.Unhindered source target into)
    (hr : files.Leads source r place e) : IsLegal (descend target r) := by
  obtain ⟨start, hstart⟩ := hcopy.start
  refine (isLegal_descend htarget.path_ne_empty hr.names).mpr ⟨htarget.isLegal.no_nul,
    (hr.no_nul hstart.path_ne_empty).2, hfree.short r ⟨place, e, hr⟩⟩

include htarget in
/-- When there is a target, its directory is done. -/
theorem Partial.start : Partial files source into (· = []) files := by
  obtain ⟨start, hstart⟩ := hcopy.start
  have hinto := htarget.at?
  refine ⟨.refl files, ?_, rfl, by simp, ?_, fun _ _ => rfl, fun _ _ _ => rfl⟩
  · rintro r rfl
    exact ⟨start, .directory, hstart⟩
  · rintro r place e q rfl hr hsame
    rw [List.append_nil] at hsame
    rw [(hstart.unique hr).2, hcopy.tree.numbered.eq_of_sameFile hsame (by simp [hinto]), hinto]
    rfl

namespace Partial

variable (h : Partial files source into done now)

include h

omit hcopy in
/-- What is done is there. -/
theorem at?_copy (hdone : done r) (hr : files.Leads source r place e) :
    now.at? (into ++ r) = some e.copied :=
  h.copied r place e _ hdone hr (sameFile_self ..)

/-- An entry of a directory that is copied is as it was. -/
theorem at?_source (hfree : files.Unhindered source target into)
    (hr : files.Leads source r place e) : now.at? place = files.at? place := by
  apply h.kept
  intro r' hdone
  obtain ⟨place', e', hr'⟩ := h.reached r' hdone
  exact hfree.not_sameFile hcopy hr' hr

/-- What is not done is as it was. -/
theorem at?_of_not_done (hfree : files.Unhindered source target into)
    (hr : files.Leads source r place e) (hnew : ¬ done r) :
    now.at? (into ++ r) = files.at? (into ++ r) := by
  apply h.kept
  intro r' hdone
  obtain ⟨place', e', hr'⟩ := h.reached r' hdone
  rw [Bool.eq_false_iff]
  intro hsame
  rw [hfree.eq_of_sameFile hcopy hr' hr hsame] at hnew
  exact hnew hdone

/-- What is in the target is of the kind of what is copied there. -/
theorem sameKind (hfree : files.Unhindered source target into) (hr : files.Leads source r place e)
    (hx : now.at? (into ++ r) = some x) : x.SameKind e := by
  by_cases hdone : done r
  · rw [h.at?_copy hdone hr] at hx
    cases hx
    cases e with
    | file text mode => exact .inr ⟨_, _, _, _, rfl, rfl⟩
    | directory => exact .inl ⟨rfl, rfl⟩
    | link text => exact absurd rfl (hr.not_link hcopy.tree text)
  · rw [h.at?_of_not_done hcopy hfree hr hdone] at hx
    exact hcopy.same r place e x hr hx

/-- Everything is still there. -/
theorem grows : files.Grows now := by
  refine ⟨h.setting, fun q x hx => ?_⟩
  by_cases hq : ∃ r, done r ∧ files.sameFile (into ++ r) q = true
  · obtain ⟨r, hdone, hsame⟩ := hq
    obtain ⟨place, e, hr⟩ := h.reached r hdone
    rw [h.copied r place e q hdone hr hsame]
    by_cases heq : q = into ++ r
    · subst heq
      rcases hcopy.same r place e x hr hx with ⟨rfl, rfl⟩ | ⟨text, mode, text', mode', rfl, rfl⟩
      · exact .inl rfl
      · exact .inr ⟨text, mode, text', mode' ||| 0o200, rfl, rfl⟩
    · -- what has another name is a file, and is written over by a file
      obtain ⟨⟨text, mode, hat⟩, text', mode', hat'⟩ :=
        hcopy.tree.numbered.files_of_ne hsame heq
      rw [hx] at hat'
      cases hat'
      rcases hcopy.same r place e _ hr hat with ⟨hx, -⟩ | ⟨_, _, text'', mode'', -, rfl⟩
      · cases hx
      · exact .inr ⟨text', mode', text'', mode'' ||| 0o200, rfl, rfl⟩
  · left
    rw [h.kept q, hx]
    intro r hdone
    rw [Bool.eq_false_iff]
    exact fun hsame => hq ⟨r, hdone, hsame⟩

omit hcopy in
/-- The directories in which a done entry stands are done. -/
theorem done_above {before t : List String} (hdone : done (before ++ t)) : done before := by
  induction t using List.reverseRecOn with
  | nil =>
    rw [List.append_nil] at hdone
    exact hdone
  | append_singleton t last ih =>
    rw [← List.append_assoc] at hdone
    exact ih (h.above _ last hdone)

/-- Above what can be reached there are directories, and they are in the target when they are
done. -/
theorem directory_above {before t : List String} (hdone : done before) (ht : t ≠ [])
    (hr : files.Reaches source (before ++ t)) : now.at? (into ++ before) = some .directory := by
  obtain ⟨start, hstart⟩ := hcopy.start
  obtain ⟨place, e, hr⟩ := hr
  obtain ⟨first, t, rfl⟩ := List.exists_cons_of_ne_nil ht
  obtain ⟨d, hd, -⟩ := hstart.before hcopy.tree hr
  exact h.at?_copy hdone hd

/-- An entry whose directory is done may be put into the target. -/
theorem insert (hfree : files.Unhindered source target into) (hparent : done r)
    (hr : files.Leads source (r ++ [name]) place e)
    (hput : Puts now after (into ++ (r ++ [name])) e.copied) :
    Partial files source into (fun x => done x ∨ x = r ++ [name]) after := by
  have hsetting := h.setting.trans hput.setting
  constructor
  · exact hsetting
  · rintro x (hdone | rfl)
    · exact h.reached x hdone
    · exact ⟨place, e, hr⟩
  · exact .inl h.root
  · rintro x last (hdone | heq)
    · exact .inl (h.above x last hdone)
    · obtain ⟨rfl, -⟩ := List.append_inj' heq rfl
      exact .inl hparent
  · intro x p e' q hdone hx hsame
    rw [hput.at?, h.setting.sameFile]
    split
    · next hnew =>
      rw [sameFile_comm] at hsame
      have heq := hfree.eq_of_sameFile hcopy hr hx (sameFile_trans hnew hsame)
      subst heq
      rw [(hr.unique hx).2]
    · next hold =>
      rcases hdone with hdone | rfl
      · exact h.copied x p e' q hdone hx hsame
      · exact absurd hsame hold
  · intro q hq
    have hother : ¬ files.sameFile (into ++ (r ++ [name])) q = true := by
      rw [hq _ (.inr rfl)]
      exact Bool.false_ne_true
    rw [hput.at?, h.setting.sameFile, if_neg hother]
    exact h.kept q fun x hx => hq x (.inl hx)
  · intro x d hd
    rw [hput.list d, h.listed x d hd]
    intro last heq
    apply (hcopy.entry_apart hd last).1
    rw [← heq]
    exact List.prefix_append _ _

variable (hfree : files.Unhindered source target into)

include hfree

/-- What is copied is found where it was found. -/
theorem leads (hr : files.Leads source r place e) : now.Leads source r place e :=
  hr.grows (h.grows hcopy) (h.at?_source hcopy hfree hr)

variable (htarget : files.Leads target [] into .directory)

include htarget

omit hfree in
/-- The path of the target still leads there. -/
theorem leads_target : now.Leads target [] into .directory := by
  obtain ⟨start, hstart⟩ := hcopy.start
  have hinto := h.at?_copy h.root hstart
  rw [List.append_nil] at hinto
  exact htarget.grows (h.grows hcopy) (hinto.trans htarget.at?.symm)

/-- The way to the copy of an entry whose directory is done. -/
theorem walks {follow : Bool} (hparent : done r) (hr : files.Leads source (r ++ [name]) place e) :
    Walks now follow linkLimit (now.origin target) (names target ++ (r ++ [name]))
      (into ++ (r ++ [name])) := by
  have hleads := h.leads_target hcopy htarget
  have hway := hleads.walks htarget.path_ne_empty
  rw [List.append_nil] at hway
  have habove : ∀ before t, t ≠ [] → r ++ [name] = before ++ t →
      done before ∧ ∃ n, files.Reaches source (before ++ [n]) := by
    intro before t ht hsplit
    constructor
    · obtain ⟨t, last, rfl⟩ := (List.eq_nil_or_concat' t).resolve_left ht
      rw [← List.append_assoc] at hsplit
      obtain ⟨rfl, -⟩ := List.append_inj' hsplit rfl
      exact h.done_above hparent
    · obtain ⟨n, t, rfl⟩ := List.exists_cons_of_ne_nil ht
      refine ⟨n, hcopy.reaches_of_append (q := t) ?_⟩
      rw [← List.append_cons, ← hsplit]
      exact ⟨place, e, hr⟩
  apply hway.append_names (hasDirectory_iff.mpr hleads.at?) (by simp)
  · intro n hn
    exact (hr.names n hn).toIsStep
  · intro before t ht hsplit
    obtain ⟨-, n, hn⟩ := habove before t ht hsplit
    exact (h.setting.refusal?_eq ..).trans (hfree.search before n hn)
  · intro before t _ ht hsplit
    obtain ⟨hdone, n, hn⟩ := habove before t ht hsplit
    exact h.directory_above hcopy hdone (List.cons_ne_nil n []) hn
  · intro text hlink
    rcases h.sameKind hcopy hfree hr hlink with ⟨hx, -⟩ | ⟨_, _, _, _, hx, -⟩ <;> cases hx

/-- The path of a copy that is done leads to it. -/
theorem leads_copy (hdone : done r) (hr : files.Leads source r place e) :
    now.Leads target r (into ++ r) e.copied := by
  rcases List.eq_nil_or_concat' r with rfl | ⟨r, name, rfl⟩
  · obtain ⟨start, hstart⟩ := hcopy.start
    rw [(hstart.unique hr).2, List.append_nil]
    exact h.leads_target hcopy htarget
  · exact (leads_iff htarget.path_ne_empty (by simp)).mpr ⟨hr.names,
      hfree.isLegal hcopy htarget hr, h.walks hcopy hfree htarget (h.above r name hdone) hr,
      h.at?_copy hdone hr⟩

/-- The copy of a file can be written when the directory is done in which it stands. -/
theorem writes {text : String} {mode : Nat} (hparent : done r) (hnew : ¬ done (r ++ [name]))
    (hr : files.Leads source (r ++ [name]) place (.file text mode)) :
    Writes now place mode (descend target (r ++ [name])) (into ++ (r ++ [name])) where
  numbered := (h.grows hcopy).numbered hcopy.tree.numbered
  ne_root := by simp
  legal := hfree.isLegal hcopy htarget hr
  way := by
    rw [steps_descend htarget.path_ne_empty hr.names (by simp),
      origin_descend htarget.path_ne_empty hr.names]
    exact h.walks hcopy hfree htarget hparent hr
  other := (h.setting.sameFile ..).trans (hfree.not_sameFile hcopy hr hr)
  file := by
    intro x hx
    rcases h.sameKind hcopy hfree hr hx with ⟨-, he⟩ | ⟨text', mode', _, _, hx, -⟩
    · cases he
    · exact ⟨text', mode', hx⟩
  read := (h.setting.refusal?_eq ..).trans (hcopy.readable _ place _ hr)
  overwrite := by
    intro x hx
    rw [h.at?_of_not_done hcopy hfree hr hnew] at hx
    exact (h.setting.refusal?_eq ..).trans (hcopy.writable _ place x ⟨text, mode, hr⟩ hx)
  make := by
    intro hnone
    exact (h.setting.refusal?_eq ..).trans
      (hfree.make _ ⟨place, _, hr⟩ ((h.grows hcopy).none_of_none hnone))
  write := (h.setting.refusal?_eq ..).trans (hfree.write _ place ⟨text, mode, hr⟩)
  setMode := (h.setting.refusal?_eq ..).trans (hfree.setMode _ place ⟨text, mode, hr⟩)
  keepId := by
    rw [h.setting.refusal?_eq]
    exact hfree.keepId _ place text mode hr

/-- The directory of a copy is made, or is there, when the one is done in which it stands. -/
theorem does_make {d : Place} (hparent : done r)
    (hr : files.Leads source (r ++ [name]) d .directory) :
    ∃ after, Does (makeDirectories (descend target (r ++ [name]))) now () after ∧
      Puts now after (into ++ (r ++ [name])) .directory := by
  have hpath := htarget.path_ne_empty
  have hlegal := hfree.isLegal hcopy htarget hr
  have hnames : names (descend target (r ++ [name])) = names target ++ (r ++ [name]) :=
    names_descend hpath hr.names
  have horigin : now.origin (descend target (r ++ [name])) = now.origin target :=
    origin_descend hpath hr.names
  have hnumbers := (h.grows hcopy).numbered hcopy.tree.numbered
  cases hat : now.at? (into ++ (r ++ [name])) with
  | none =>
    have hway : Walks now false _ _ _ _ := h.walks hcopy hfree htarget hparent hr
    have hallowed : now.refusal? .make (into ++ (r ++ [name])) = none :=
      (h.setting.refusal?_eq ..).trans
        (hfree.make _ ⟨d, _, hr⟩ ((h.grows hcopy).none_of_none hat))
    refine ⟨_, does_makeDirectories hlegal ?_ ?_, .of_set hnumbers (by simp)⟩
    · simp [hnames]
    · rw [hnames, horigin]
      exact (does_ensureDirectory hway hat hallowed).makeParents
  | some x =>
    have hx : x = .directory := by
      rcases h.sameKind hcopy hfree hr hat with ⟨hx, -⟩ | ⟨_, _, _, _, -, he⟩
      · exact hx
      · cases he
    subst hx
    have hway : Walks now true _ _ _ _ := h.walks hcopy hfree htarget hparent hr
    have hfound := (leads_iff hpath (by simp)).mpr ⟨hr.names, hlegal, hway, hat⟩
    exact ⟨now, does_makeDirectories_of_found hfound.found, .of_directory hnumbers hat⟩

omit htarget in
/-- An entry is followed to what its path leads to. -/
theorem follow_eq {d : Place} {ancestors : List Ancestor} (hd : files.Leads source r d .directory)
    (hr : files.Leads source (r ++ [name]) place e)
    (hancestors : ∀ a ∈ ancestors, ∃ before, before <+: r ∧
      files.Leads source before a.place .directory) :
    now.follow ancestors (descend source (r ++ [name])) d name = .ok e := by
  obtain ⟨start, hstart⟩ := hcopy.start
  obtain ⟨d', hd', hentry⟩ := hstart.exists_parent hcopy.tree hr
  obtain ⟨rfl, -⟩ := hd.unique hd'
  have hfound := (h.leads hcopy hfree hr).found
  have hnot := hr.not_link hcopy.tree
  unfold follow
  rcases hentry with rfl | ⟨text, hlink⟩
  · rw [h.at?_source hcopy hfree hr, hr.at?]
    cases e with
    | link text => exact absurd rfl (hnot text)
    | file text mode => rfl
    | directory => rfl
  · have hkept : now.at? (d' ++ [name]) = some (.link text) := by
      rw [h.kept, hlink]
      intro r' hdone
      obtain ⟨place', e', hr'⟩ := h.reached r' hdone
      exact hcopy.not_sameFile hr' (hcopy.entry_apart hd name).1 (.inr (by simp [hlink]))
    rw [hkept]
    dsimp only
    rw [hfound]
    cases e with
    | link text => exact absurd rfl (hnot text)
    | file text mode => rfl
    | directory =>
      have hread : now.refusal? .read place = none :=
        (h.setting.refusal?_eq ..).trans (hcopy.readable _ place _ hr)
      have hnone : (ancestors.find? fun a => a.place == place) = none := by
        rw [List.find?_eq_none]
        intro a ha heq
        rw [beq_iff_eq] at heq
        obtain ⟨before, ⟨t, rfl⟩, hbefore⟩ := hancestors a ha
        rw [heq] at hbefore
        rw [List.append_assoc] at hr
        have hnil := hcopy.loopless before (t ++ [name]) place hbefore hr
        simp at hnil
      have hopen : now.openLinked ancestors (descend source (r ++ [name])) place = .ok () := by
        rw [openLinked, allow, hread, hnone]
        rfl
      simp only [Except.mapError, bind, Except.bind, if_true, hopen]
      rfl

omit htarget in
/-- A directory is listed as it was when the copy began. -/
theorem listing_eq {d : Place} (hr : files.Leads source r d .directory) :
    now.listing (descend source r) = .ok (d, files.list d) := by
  have hfound := (h.leads hcopy hfree hr).found
  have hread : now.refusal? .read d = none :=
    (h.setting.refusal?_eq ..).trans (hcopy.readable r d _ hr)
  rw [listing, hfound]
  simp [bind, Except.bind, allow, hread, h.listed r d hr, pure, Except.pure]

end Partial

end

/-! ## Copying entries -/

/-- The files among what lies inside, each once. -/
structure IsFileList (files : Files) (source : String) (inside : List String → Prop)
    (rs : List (List String)) : Prop where
  nodup : rs.Nodup
  mem_iff : ∀ x, x ∈ rs ↔ inside x ∧ ∃ place, files.ReachesFile source x place

/-- A step copies what lies inside, and counts the files. -/
def Copies (files : Files) (source : String) (into : Place) (step : Step Nat)
    (inside done : List String → Prop) (now : Files) : Prop :=
  ∃ rs after, Does step now rs.length after ∧ IsFileList files source inside rs ∧
    Partial files source into (fun x => done x ∨ inside x ∧ files.Reaches source x) after

/-- The names of a directory are copied one after the other, if each of them is. -/
theorem copies_copyEntries {depth : Nat} {ancestors : List Ancestor} {d : Place}
    (hentry : ∀ name ∈ files.list d, ∀ done now, Partial files source into done now → done r →
      ¬ done (r ++ [name]) → Copies files source into (copyEntry depth ancestors path d target name)
        (fun x => r ++ [name] <+: x) done now)
    {ns : List String} (hns : ns ⊆ files.list d) (hnodup : ns.Nodup)
    (h : Partial files source into done now) (hparent : done r)
    (hnew : ∀ name ∈ ns, ¬ done (r ++ [name])) :
    Copies files source into (copyEntries depth ancestors path d target ns)
      (fun x => ∃ name ∈ ns, r ++ [name] <+: x) done now := by
  induction ns generalizing done now with
  | nil =>
    refine ⟨[], now, ?_, ⟨List.nodup_nil, by simp⟩, h.congr (by simp)⟩
    unfold copyEntries
    exact does_pure 0 now
  | cons name ns ih =>
    rw [List.nodup_cons] at hnodup
    rw [List.forall_mem_cons] at hnew
    -- what lies below two names would make them the same name
    have happart : ∀ {x n}, n ∈ ns → r ++ [name] <+: x → ¬ r ++ [n] <+: x := by
      intro x n hn hbelow hbelow'
      have hsame : r ++ [name] = r ++ [n] := by
        apply List.IsPrefix.eq_of_length _ (by simp)
        exact List.prefix_of_prefix_length_le hbelow hbelow' (by simp)
      have heq := List.append_cancel_left hsame
      rw [List.cons.injEq] at heq
      exact hnodup.1 (heq.1 ▸ hn)
    obtain ⟨rs, mid, hfirst, hfiles, hmid⟩ := hentry name (hns (List.mem_cons_self ..)) done now h
      hparent hnew.1
    obtain ⟨rs', after, hrest, hfiles', hafter⟩ := ih
      (fun n hn => hns (List.mem_cons_of_mem _ hn)) hnodup.2 hmid (.inl hparent) (by
        rintro n hn (hdone | ⟨hbelow, -⟩)
        · exact hnew.2 n hn hdone
        · exact happart hn hbelow List.prefix_rfl)
    refine ⟨rs ++ rs', after, ?_, ⟨?_, ?_⟩, hafter.congr ?_⟩
    · unfold copyEntries
      rw [List.length_append]
      exact hfirst.bind (hrest.bind (does_pure _ _))
    · refine List.nodup_append.mpr ⟨hfiles.nodup, hfiles'.nodup, ?_⟩
      rintro x hx _ hx' rfl
      obtain ⟨hbelow, -⟩ := (hfiles.mem_iff x).mp hx
      obtain ⟨⟨n, hn, hbelow'⟩, -⟩ := (hfiles'.mem_iff x).mp hx'
      exact happart hn hbelow hbelow'
    · intro x
      rw [List.mem_append, hfiles.mem_iff, hfiles'.mem_iff]
      simp only [List.mem_cons, exists_eq_or_imp]
      exact or_and_right.symm
    · intro x
      simp only [List.mem_cons, exists_eq_or_imp]
      tauto

section

variable (hcopy : files.Copyable source into)

include hcopy

/-- A file is copied by one step. -/
theorem copies_file {step : Step Nat} (hr : files.ReachesFile source r place)
    (hstep : Does step now 1 after) (h : Partial files source into (fun x => done x ∨ x = r) after) :
    Copies files source into step (fun x => r <+: x) done now := by
  have hinside : ∀ x, files.Reaches source x → (r <+: x ↔ x = r) := by
    rintro x ⟨p, e, hx⟩
    constructor
    · exact hcopy.eq_of_file hr hx
    · rintro rfl
      exact List.prefix_rfl
  refine ⟨[r], after, hstep, ⟨List.nodup_singleton _, fun x => ?_⟩, h.congr fun x => ?_⟩
  · rw [List.mem_singleton]
    constructor
    · rintro rfl
      exact ⟨List.prefix_rfl, place, hr⟩
    · rintro ⟨hbelow, p, text', mode', hx⟩
      exact (hinside x ⟨p, _, hx⟩).mp hbelow
  · constructor
    · rintro (hdone | rfl)
      · exact .inl hdone
      · obtain ⟨text, mode, hleads⟩ := hr
        exact .inr ⟨List.prefix_rfl, place, _, hleads⟩
    · rintro (hdone | ⟨hbelow, hx⟩)
      · exact .inl hdone
      · exact .inr ((hinside x hx).mp hbelow)

/-- Below a directory there is the directory itself, and what is below the names in its list. -/
theorem copies_directory {step rest : Step Nat} {d : Place} (hr : files.Leads source r d .directory)
    (hrest : Copies files source into rest (fun x => ∃ n ∈ files.list d, r ++ [n] <+: x)
      (fun x => done x ∨ x = r) mid)
    (hstep : ∀ n after, Does rest mid n after → Does step now n after) :
    Copies files source into step (fun x => r <+: x) done now := by
  obtain ⟨rs, after, hbelow, hfiles, hafter⟩ := hrest
  have hinside : ∀ x, files.Reaches source x →
      (r <+: x ↔ x = r ∨ ∃ n ∈ files.list d, r ++ [n] <+: x) := by
    rintro x ⟨p, e, hx⟩
    constructor
    · exact hcopy.below_directory hr hx
    · rintro (rfl | ⟨n, -, hn⟩)
      · exact List.prefix_rfl
      · exact (List.prefix_append _ _).trans hn
  refine ⟨rs, after, hstep _ _ hbelow, ⟨hfiles.nodup, fun x => ?_⟩, hafter.congr fun x => ?_⟩
  · rw [hfiles.mem_iff]
    constructor
    · rintro ⟨hx, p, text, mode, hfile⟩
      exact ⟨(hinside x ⟨p, _, hfile⟩).mpr (.inr hx), p, text, mode, hfile⟩
    · rintro ⟨hx, p, text, mode, hfile⟩
      refine ⟨((hinside x ⟨p, _, hfile⟩).mp hx).resolve_left ?_, p, text, mode, hfile⟩
      rintro rfl
      have hentry := (hr.unique hfile).2
      cases hentry
  · constructor
    · rintro ((hdone | rfl) | ⟨hx, hreach⟩)
      · exact .inl hdone
      · exact .inr ⟨List.prefix_rfl, d, _, hr⟩
      · exact .inr ⟨(hinside x hreach).mpr (.inr hx), hreach⟩
    · rintro (hdone | ⟨hx, hreach⟩)
      · exact .inl (.inl hdone)
      · rcases (hinside x hreach).mp hx with rfl | hx
        · exact .inl (.inr rfl)
        · exact .inr ⟨hx, hreach⟩

variable (hfree : files.Unhindered source target into)
  (htarget : files.Leads target [] into .directory)

include hfree htarget

/-- Everything below a name of a directory is copied, if the depth is enough for it. -/
theorem copies_copyEntry {depth : Nat} {ancestors : List Ancestor} {d : Place}
    (hd : files.Leads source r d .directory) (hname : name ∈ files.list d)
    (hancestors : ∀ a ∈ ancestors, ∃ before, before <+: r ∧
      files.Leads source before a.place .directory)
    (hdepth : ∀ x, files.Reaches source x → x.length ≤ r.length + depth)
    (h : Partial files source into done now) (hparent : done r) (hnew : ¬ done (r ++ [name])) :
    Copies files source into
      (copyEntry depth ancestors (descend source r) d (descend target r) name)
      (fun x => r ++ [name] <+: x) done now := by
  -- the depth is spent with the names, and nothing that can be reached has more names than that
  induction depth generalizing r d name ancestors done now with
  | zero =>
    have hlength := hdepth _ (hcopy.resolves r d hd name hname)
    rw [List.length_append, List.length_singleton] at hlength
    omega
  | succ depth ih =>
    obtain ⟨place, e, hr⟩ := hcopy.resolves r d hd name hname
    have hfollow := h.follow_eq hcopy hfree hd hr hancestors
    rw [descend_concat] at hfollow
    cases e with
    | link text => exact absurd rfl (hr.not_link hcopy.tree text)
    | file text mode =>
      have hwrites := h.writes hcopy hfree htarget hparent hnew hr
      obtain ⟨after, hwrite, hput⟩ := hwrites.does_writeCopy (h.leads hcopy hfree hr).found
      have habove := (h.leads_copy hcopy hfree htarget hparent hd).found
      rw [descend_concat, descend_concat] at hwrite
      apply copies_file hcopy ⟨text, mode, hr⟩ _ (h.insert hcopy hfree hparent hr hput)
      unfold copyEntry
      apply (does_ask hfollow).bind
      apply (does_makeDirectories_of_found habove).bind
      exact hwrite.bind (does_pure 1 after)
    | directory =>
      obtain ⟨mid, hmade, hput⟩ := h.does_make hcopy hfree htarget hparent hr
      have hmid := h.insert hcopy hfree hparent hr hput
      have hlisting := hmid.listing_eq hcopy hfree hr
      have hbefore : ∀ a ∈ (⟨descend source (r ++ [name]), place⟩ : Ancestor) :: ancestors,
          ∃ before, before <+: r ++ [name] ∧ files.Leads source before a.place .directory := by
        intro a ha
        rcases List.mem_cons.mp ha with rfl | ha
        · exact ⟨r ++ [name], List.prefix_rfl, hr⟩
        · obtain ⟨before, habove, hleads⟩ := hancestors a ha
          exact ⟨before, habove.trans (List.prefix_append _ _), hleads⟩
      have hroom : ∀ x, files.Reaches source x → x.length ≤ (r ++ [name]).length + depth := by
        intro x hx
        have hlength := hdepth x hx
        rw [List.length_append, List.length_singleton]
        omega
      have hrest := copies_copyEntries
        (fun n hn done now hnow hparent hnew => ih hr hn hbefore hroom hnow hparent hnew)
        (List.Subset.refl _) (nodup_list hcopy.tree.nodup place) hmid (.inr rfl) (by
          rintro n - (hdone | heq)
          · exact hnew (h.above _ n hdone)
          · simp at heq)
      apply copies_directory hcopy hr hrest
      intro n after hbelow
      rw [descend_concat] at hmade hlisting hbelow
      rw [descend_concat] at hbelow
      unfold copyEntry
      apply (does_ask hfollow).bind
      apply hmade.bind
      have hquestion : (mid.listing (join (descend source r) name)).mapError
          (atPath (join (descend source r) name)) = .ok (place, files.list place) := by
        rw [hlisting]
        rfl
      exact (does_ask hquestion).bind hbelow

/-! ## Copying the contents -/

/-- All that can be reached is copied, and the files are counted. -/
theorem copies_copyInto :
    ∃ rs now, Does (copyInto source target) files rs.length now ∧
      IsFileList files source (fun _ => True) rs ∧
      Partial files source into (files.Reaches source) now := by
  obtain ⟨start, hstart⟩ := hcopy.start
  have hbegin := Partial.start hcopy htarget
  have hdepth : ∀ x, files.Reaches source x → x.length ≤ ([] : List String).length + pathLimit := by
    rintro x ⟨place, e, hx⟩
    rw [List.length_nil, Nat.zero_add]
    exact Nat.le_trans (length_le_size_descend hstart.path_ne_empty hx.names) hx.isLegal.short
  have hroot : ∀ a ∈ [(⟨source, start⟩ : Ancestor)], ∃ before, before <+: ([] : List String) ∧
      files.Leads source before a.place .directory := by
    intro a ha
    rw [List.mem_singleton] at ha
    exact ⟨[], List.prefix_rfl, ha ▸ hstart⟩
  have hcopies := copies_copyEntries
    (fun n hn done now hnow hparent hnew =>
      copies_copyEntry hcopy hfree htarget hstart hn hroot hdepth hnow hparent hnew)
    (List.Subset.refl _) (nodup_list hcopy.tree.nodup start) hbegin rfl (by simp)
  -- the directory itself is done already
  have hall : Copies files source into (copyInto source target) (fun x => [] <+: x)
      (fun _ => False) files := by
    refine copies_directory hcopy hstart (by simpa using hcopies) ?_
    intro n after hbelow
    have hlisting := hbegin.listing_eq hcopy hfree hstart
    rw [descend_nil] at hlisting
    have hquestion : (files.listing source).mapError (atPath source) =
        .ok (start, files.list start) := by
      rw [hlisting]
      rfl
    have hask : Does (ask fun files => (files.listing source).mapError (atPath source)) files
        (start, files.list start) files := does_ask hquestion
    apply (does_ask hstart.found).bind
    apply Does.get_bind
    -- a link to the directory is opened once more
    split
    · exact (does_permit (hcopy.readable [] start _ hstart)).bind (hask.bind hbelow)
    · exact hask.bind hbelow
  obtain ⟨rs, now, hdoes, hfiles, hnow⟩ := hall
  refine ⟨rs, now, hdoes, ⟨hfiles.nodup, fun x => ?_⟩, hnow.congr fun x => ?_⟩
  · rw [hfiles.mem_iff]
    simp
  · simp

end

end Scaffolding.Files
