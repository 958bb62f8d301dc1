import Scaffolding.Files.Change
import Scaffolding.Proofs.Files.Path

/-!
# Making directories

A step that succeeds leaves a result and other files, and steps that succeed can be put together. A
directory is made where a walk arrives at nothing, and where there is one already nothing is done.

A directory is had at a path at once, if it is there or can be made, or after the parent of the path was
had. What was made for it are directories where there was nothing, at places to which a beginning of the
path leads.
-/

set_option autoImplicit false

namespace Scaffolding.Files

variable {α β : Type} {files mid now : Files} {x : α} {y : β}

/-! ## Steps that succeed -/

/-- A step succeeds with a result and leaves other files. -/
def Does (step : Step α) (files : Files) (x : α) (now : Files) : Prop :=
  step.run.run files = (.ok x, now)

/-- A step is refused with an error and leaves the files as they are. -/
def Refuses (step : Step α) (files : Files) (e : SystemError) : Prop :=
  step.run.run files = (.error e, files)

/-- A step that was done is followed by the next. -/
theorem Does.bind {step : Step α} {next : α → Step β} (h : Does step files x mid)
    (hnext : Does (next x) mid y now) : Does (step >>= next) files y now := by
  unfold Does at *
  rw [ExceptT.run_bind, StateT.run_bind, h]
  exact hnext

/-- A step that is refused is followed by nothing. -/
theorem Refuses.bind {step : Step α} {e : SystemError} (next : α → Step β)
    (h : Refuses step files e) : Refuses (step >>= next) files e := by
  unfold Refuses at *
  rw [ExceptT.run_bind, StateT.run_bind, h]
  rfl

/-- A step that changed nothing may be followed by one that is refused. -/
theorem Does.bind_refuses {step : Step α} {next : α → Step β} {e : SystemError}
    (h : Does step files x files) (hnext : Refuses (next x) files e) :
    Refuses (step >>= next) files e := by
  unfold Does Refuses at *
  rw [ExceptT.run_bind, StateT.run_bind, h]
  exact hnext

/-- Doing nothing gives its value. -/
theorem does_pure (x : α) (files : Files) : Does (pure x) files x files :=
  rfl

/-- A step may look at the files first. -/
theorem Does.get_bind {next : Files → Step β} (h : Does (next files) files y now) :
    Does (get >>= next) files y now :=
  h

/-- A step that looked at the files is done with what it saw. -/
theorem Does.of_get_bind {next : Files → Step β} (h : Does (get >>= next) files y now) :
    Does (next files) files y now :=
  h

/-- A question with an answer changes nothing. -/
theorem does_ask {question : Files → Except SystemError α} (h : question files = .ok x) :
    Does (ask question) files x files := by
  have hask : (ask question).run.run files = (ask.liftExcept (question files)).run.run files := rfl
  unfold Does
  rw [hask, h]
  rfl

/-- A question without an answer is refused. -/
theorem refuses_ask {question : Files → Except SystemError α} {e : SystemError}
    (h : question files = .error e) : Refuses (ask question) files e := by
  have hask : (ask question).run.run files = (ask.liftExcept (question files)).run.run files := rfl
  unfold Refuses
  rw [hask, h]
  rfl

/-- An access that is let through changes nothing. -/
theorem does_permit {access : Access} {p : Place} (h : files.refusal? access p = none) :
    Does (permit access p) files () files := by
  have hallow : files.allow access p = .ok () := by
    unfold allow
    rw [h]
  exact does_ask hallow

/-- A change is done. -/
theorem does_modify (change : Files → Files) (files : Files) :
    Does (modify change : Step Unit) files () (change files) :=
  rfl

/-- What is done needs no rescue. -/
theorem Does.tryCatch {step : Step α} (handler : SystemError → Step α)
    (h : Does step files x now) : Does (MonadExcept.tryCatch step handler) files x now := by
  unfold Does at *
  rw [ExceptT.run_tryCatch, StateT.run_bind, h]
  rfl

/-- What is refused may be rescued. -/
theorem Refuses.tryCatch {step : Step α} {handler : SystemError → Step α} {e : SystemError}
    (h : Refuses step files e) (hhandler : Does (handler e) files x now) :
    Does (MonadExcept.tryCatch step handler) files x now := by
  unfold Does Refuses at *
  rw [ExceptT.run_tryCatch, StateT.run_bind, h]
  exact hhandler

/-- What is refused may be refused once more by its rescue. -/
theorem Refuses.tryCatch_refuses {step : Step α} {handler : SystemError → Step α}
    {e e' : SystemError} (h : Refuses step files e) (hhandler : Refuses (handler e) files e') :
    Refuses (MonadExcept.tryCatch step handler) files e' := by
  unfold Refuses at *
  rw [ExceptT.run_tryCatch, StateT.run_bind, h]
  exact hhandler

/-- A step does one thing. -/
theorem Does.unique {step : Step α} {x' : α} {now' : Files} (h : Does step files x now)
    (h' : Does step files x' now') : x' = x ∧ now' = now := by
  have heq := h'.symm.trans h
  rw [Prod.mk.injEq, Except.ok.injEq] at heq
  exact heq

/-- What is refused is not done. -/
theorem Refuses.not_does {step : Step α} {e : SystemError} (h : Refuses step files e) :
    ¬ Does step files x now := by
  intro hdoes
  have heq := congrArg Prod.fst (hdoes.symm.trans h)
  cases heq

/-- Where a step is refused, its handler decides. -/
theorem Refuses.of_tryCatch {step : Step α} {handler : SystemError → Step α} {e : SystemError}
    (h : Refuses step files e) (hdoes : Does (MonadExcept.tryCatch step handler) files x now) :
    Does (handler e) files x now := by
  unfold Does Refuses at *
  rw [ExceptT.run_tryCatch, StateT.run_bind, h] at hdoes
  exact hdoes

/-- Steps that were put together and succeed both succeed. -/
theorem Does.of_bind {step : Step α} {next : α → Step β} (h : Does (step >>= next) files y now) :
    ∃ x mid, Does step files x mid ∧ Does (next x) mid y now := by
  unfold Does at *
  rw [ExceptT.run_bind, StateT.run_bind] at h
  rcases hstep : step.run.run files with ⟨e | x, mid⟩
  · rw [hstep] at h
    cases h
  · rw [hstep] at h
    exact ⟨x, mid, rfl, h⟩

/-! ## One directory -/

variable {origin place p : Place} {ns : List String}

/-- A directory is made where there is nothing, if it may be. -/
theorem does_makeDirectory (h : Walks files false linkLimit origin ns p)
    (hnone : files.at? p = none) (hallowed : files.refusal? .make p = none) :
    Does (makeDirectory origin ns) files () (files.set p .directory) := by
  apply (does_ask h.walk_eq).bind
  apply Does.get_bind
  rw [hnone]
  apply (does_permit hallowed).bind
  exact does_modify _ _

/-- There is nothing where a walk arrives and a directory may be made, or it is refused and nothing is
changed. -/
theorem makeDirectory_cases (files : Files) (origin : Place) (ns : List String) :
    (∃ p, Walks files false linkLimit origin ns p ∧ files.at? p = none ∧
      files.refusal? .make p = none) ∨
    ∃ e, Refuses (makeDirectory origin ns) files e := by
  cases hwalk : files.walk false linkLimit origin ns with
  | error e => exact .inr ⟨e, (refuses_ask hwalk).bind _⟩
  | ok p =>
    cases hat : files.at? p with
    | some entry =>
      refine .inr ⟨.entryExists, (does_ask hwalk).bind_refuses ?_⟩
      apply Does.bind_refuses (rfl : Does get files files files)
      rw [hat]
      rfl
    | none =>
      cases hallowed : files.refusal? .make p with
      | none => exact .inl ⟨p, walks_of_walk_eq hwalk, hat, hallowed⟩
      | some e =>
        have hrefused : Refuses (permit .make p) files e := by
          apply refuses_ask
          unfold allow
          rw [hallowed]
        refine .inr ⟨e, (does_ask hwalk).bind_refuses ?_⟩
        apply Does.bind_refuses (rfl : Does get files files files)
        rw [hat]
        exact hrefused.bind _

/-- A directory is led to exactly if the names can be walked to one. -/
theorem leadsToDirectory_eq_true_iff : files.leadsToDirectory origin ns = true ↔
    ∃ p, Walks files true linkLimit origin ns p ∧ files.hasDirectory p = true := by
  unfold leadsToDirectory
  cases hwalk : files.walk true linkLimit origin ns with
  | error e => simp [← walk_eq_ok_iff, hwalk]
  | ok p => simp [← walk_eq_ok_iff, hwalk]

/-- A walk that arrives at nothing does so too if it follows links. -/
theorem Walks.followed {links : Nat} (h : Walks files false links place ns p)
    (hnone : files.at? p = none) : Walks files true links place ns p := by
  induction h with
  | arrived => exact .arrived _ _
  | slash here _ ih => exact .slash here (ih hnone)
  | stay search here _ ih => exact .stay search here (ih hnone)
  | up search _ ih => exact .up search (ih hnone)
  | last search step _ => exact .last search step ⟨by simp [hnone], by simp [hnone]⟩
  | into search step there _ ih => exact .into search step there (ih hnone)
  | through search step there _ allowed leads _ ih =>
    exact .through search step there (fun _ => rfl) allowed leads (ih hnone)

/-- A directory that is missing is made, if it may be. -/
theorem does_ensureDirectory (h : Walks files false linkLimit origin ns p)
    (hnone : files.at? p = none) (hallowed : files.refusal? .make p = none) :
    Does (ensureDirectory origin ns) files () (files.set p .directory) :=
  (does_makeDirectory h hnone hallowed).tryCatch _

/-- Nothing has to be made where there is a directory. -/
theorem does_ensureDirectory_of_there (h : Walks files true linkLimit origin ns p)
    (hp : files.hasDirectory p = true) : Does (ensureDirectory origin ns) files () files := by
  rcases makeDirectory_cases files origin ns with ⟨p', hway, hnone, -⟩ | ⟨e, he⟩
  · rw [h.unique (hway.followed hnone), hasDirectory_iff.mp hp] at hnone
    cases hnone
  · apply he.tryCatch
    apply Does.get_bind
    rw [if_pos (leadsToDirectory_eq_true_iff.mpr ⟨p, h, hp⟩)]
    exact does_pure () files

/-- A directory is not made where no walk arrives. -/
theorem refuses_ensureDirectory {e : SystemError}
    (h : ∀ follow, files.walk follow linkLimit origin ns = .error e) :
    Refuses (ensureDirectory origin ns) files e := by
  have hmake : Refuses (makeDirectory origin ns) files e := (refuses_ask (h false)).bind _
  have hnot : files.leadsToDirectory origin ns = false := by
    unfold leadsToDirectory
    rw [h true]
  apply hmake.tryCatch_refuses
  apply Does.bind_refuses (rfl : Does get files files files)
  rw [hnot]
  rfl

/-- Where a directory itself can be had, its parents are not looked at. -/
theorem Does.makeParents {parents : List String} (h : Does (ensureDirectory origin ns) files () now) :
    Does (makeParents origin parents ns) files () now := by
  cases parents with
  | nil => exact h
  | cons name above =>
    unfold Files.makeParents
    exact h.tryCatch _

/-! ## Having a directory -/

/-- A directory is had at once where names lead: it is there, or there is nothing and it is made. -/
inductive Ensures (files : Files) (origin : Place) (ns : List String) : Place → Files → Prop
  | there {place : Place} (way : Walks files true linkLimit origin ns place)
      (directory : files.hasDirectory place = true) : Ensures files origin ns place files
  | made {place : Place} (way : Walks files false linkLimit origin ns place)
      (absent : files.at? place = none) (allowed : files.refusal? .make place = none) :
      Ensures files origin ns place (files.set place .directory)

/-- A directory is had where names lead, at once or after the directory was had to which all but the
last of the names lead. -/
inductive Obtains (files : Files) (origin : Place) : List String → Place → Files → Prop
  | atOnce {ns : List String} {place : Place} {now : Files}
      (had : Ensures files origin ns place now) : Obtains files origin ns place now
  | afterParent {ns parent : List String} {name : String} {p place : Place} {mid now : Files}
      (split : undotted ns = parent ++ [name]) (above : Obtains files origin parent p mid)
      (had : Ensures mid origin ns place now) : Obtains files origin ns place now

/-- A directory that can be had at once is made sure of. -/
theorem Ensures.does_ensureDirectory (h : Ensures files origin ns place now) :
    Does (ensureDirectory origin ns) files () now := by
  cases h with
  | there way directory => exact does_ensureDirectory_of_there way directory
  | made way absent allowed => exact Files.does_ensureDirectory way absent allowed

/-- In a tree, a walk that arrives at nothing arrives below a directory. -/
theorem Walks.dropLast_of_none {links : Nat} {follow : Bool} (htree : files.IsTree)
    (h : Walks files follow links place ns p) (hplace : files.hasDirectory place = true)
    (hnone : files.at? p = none) : p ≠ [] ∧ files.hasDirectory p.dropLast = true := by
  induction h with
  | arrived =>
    rw [hasDirectory_iff.mp hplace] at hnone
    cases hnone
  | slash _ _ ih => exact ih hplace hnone
  | stay _ _ _ ih => exact ih hplace hnone
  | up _ _ ih => exact ih (htree.dropLast hplace) hnone
  | last => exact ⟨by simp, by rw [List.dropLast_concat]; exact hplace⟩
  | into _ _ there _ ih => exact ih (hasDirectory_iff.mpr there) hnone
  | through _ _ _ _ _ _ _ ih => exact ih (hasDirectory_detourFrom _ hplace) hnone

/-- Making a directory where there was nothing keeps everything. -/
theorem grows_set_of_none {e : Entry} (hnumbers : files.Numbered) (hp : p ≠ [])
    (hnone : files.at? p = none) : files.Grows (files.set p e) := by
  refine ⟨sameSetting_set, fun q x hq => .inl ?_⟩
  rw [at?_set_of_none hnumbers hp hnone, if_neg, hq]
  rintro rfl
  rw [hnone] at hq
  cases hq

/-- A tree with a new directory in it is a tree. -/
theorem isTree_set_directory (htree : files.IsTree) (hp : p ≠ []) (hnone : files.at? p = none)
    (hparent : files.hasDirectory p.dropLast = true) : (files.set p .directory).IsTree := by
  have hgrows : files.Grows (files.set p .directory) := grows_set_of_none htree.numbered hp hnone
  have hnew : p ∉ files.places := by
    rw [← isSome_at?_iff hp, hnone]
    simp
  refine ⟨?_, hgrows.hasDirectory htree.here, ?_, hgrows.numbered htree.numbered⟩
  · rw [places_set, if_neg hnew]
    exact List.nodup_append.mpr ⟨htree.nodup, List.nodup_singleton p, by
      rintro x hx _ hy rfl
      exact hnew (List.mem_singleton.mp hy ▸ hx)⟩
  · intro q hq
    rw [places_set, if_neg hnew, List.mem_append, List.mem_singleton] at hq
    rcases hq with hq | rfl
    · exact hgrows.hasDirectory (htree.parent q hq)
    · exact hgrows.hasDirectory hparent

/-- What is known of files in which directories were made: they are a tree in which everything is still
there, and where the names lead there is a directory. -/
structure Had (files : Files) (origin : Place) (ns : List String) (place : Place) (now : Files) :
    Prop where
  tree : now.IsTree
  grows : files.Grows now
  way : Walks now true linkLimit origin ns place
  directory : now.hasDirectory place = true
  /-- What was made are directories where there was nothing, to which a beginning of the names leads. -/
  made : ∀ q, now.at? q ≠ files.at? q → files.at? q = none ∧ now.at? q = some .directory ∧
    ∃ k, k <+: undotted ns ∧ Walks now true linkLimit origin k q

/-- A directory that can be had at once is had. -/
theorem Ensures.had (htree : files.IsTree) (horigin : files.hasDirectory origin = true)
    (h : Ensures files origin ns place now) : Had files origin ns place now := by
  cases h with
  | there way directory =>
    exact ⟨htree, .of_same (.refl files) fun _ => rfl, way, directory, fun q hq => absurd rfl hq⟩
  | made way absent allowed =>
    obtain ⟨hp, hparent⟩ := way.dropLast_of_none htree horigin absent
    have hgrows : files.Grows (files.set place .directory) :=
      grows_set_of_none htree.numbered hp absent
    have hat := at?_set_self (e := .directory) htree.numbered hp
    have hdirectory := hasDirectory_iff.mpr hat
    have hway := way.grows_of_made hgrows absent hdirectory horigin htree
    refine ⟨isTree_set_directory htree hp absent hparent, hgrows, hway, hdirectory, ?_⟩
    intro q hq
    rw [at?_set_of_none htree.numbered hp absent] at hq
    have hplace : q = place := by
      by_contra hne
      exact hq (if_neg hne)
    subst hplace
    exact ⟨absent, hat, _, List.prefix_rfl, hway.undot (.of_undotted ns)⟩

/-- A directory that can be had is had. -/
theorem Obtains.had (htree : files.IsTree) (horigin : files.hasDirectory origin = true)
    (h : Obtains files origin ns place now) : Had files origin ns place now := by
  induction h with
  | atOnce had => exact had.had htree horigin
  | @afterParent ns parent name p place mid now split above had ih =>
    have hmid := ih
    have hnow := had.had hmid.tree (hmid.grows.hasDirectory horigin)
    refine ⟨hnow.tree, hmid.grows.trans hnow.grows, hnow.way, hnow.directory, ?_⟩
    intro q hq
    by_cases hlater : now.at? q = mid.at? q
    · obtain ⟨hnone, hmade, k, hk, hway⟩ := hmid.made q (hlater ▸ hq)
      refine ⟨hnone, hlater.trans hmade, k, ?_, hway.grows hnow.grows (by rw [hmade]; rfl)⟩
      rw [undotted_left split] at hk
      rw [split]
      exact hk.trans (List.prefix_append _ _)
    · obtain ⟨hnone, hmade, k, hk, hway⟩ := hnow.made q hlater
      exact ⟨hmid.grows.none_of_none hnone, hmade, k, hk, hway⟩

/-- Where something was made to have a directory, a beginning of the names leads to nothing. -/
theorem Obtains.eq_or_absent (hdots : undotted ns = ns) (h : Obtains files origin ns place now) :
    now = files ∨
      ∃ k p, k <+: ns ∧ Walks files false linkLimit origin k p ∧ files.at? p = none := by
  induction h with
  | atOnce had =>
    cases had with
    | there => exact .inl rfl
    | made way absent _ => exact .inr ⟨_, _, List.prefix_rfl, way, absent⟩
  | @afterParent ns parent name p place mid now split above had ih =>
    have hns : ns = parent ++ [name] := hdots.symm.trans split
    rcases ih (undotted_left split) with rfl | ⟨k, p, hk, hway, hnone⟩
    · cases had with
      | there => exact .inl rfl
      | made way absent _ => exact .inr ⟨_, _, List.prefix_rfl, way, absent⟩
    · exact .inr ⟨k, p, hns ▸ hk.trans (List.prefix_append _ _), hway, hnone⟩

/-- The directories are made from the first one on that is missing, after the longer lists of names
were tried in vain. -/
theorem Obtains.does_makeParents (htree : files.IsTree) (horigin : files.hasDirectory origin = true)
    (hempty : "" ∉ ns) (h : Obtains files origin ns place now) :
    Does (makeParents origin (undotted ns).dropLast.reverse ns) files () now := by
  induction h with
  | atOnce had => exact had.does_ensureDirectory.makeParents
  | @afterParent ns parent name p place mid now split above had ih =>
    rcases above.eq_or_absent (undotted_left split) with rfl | ⟨k, p, ⟨rest, hk⟩, hway, hnone⟩
    · exact had.does_ensureDirectory.makeParents
    · have hmem : ∀ n ∈ parent, n ∈ ns := by
        intro n hn
        have hundotted : n ∈ undotted ns := split ▸ List.mem_append_left _ hn
        exact (List.mem_filter.mp hundotted).1
      have hparent : parent ≠ [] := by
        rintro rfl
        rw [List.append_eq_nil_iff] at hk
        obtain ⟨rfl, -⟩ := hk
        cases hway
        rw [hasDirectory_iff.mp horigin] at hnone
        cases hnone
      have hdots : Undot ns (k ++ (rest ++ [name])) := by
        rw [← List.append_assoc, hk, ← split]
        exact .of_undotted ns
      have hrefused : Refuses (ensureDirectory origin ns) files .noEntry := by
        apply refuses_ensureDirectory
        intro follow
        apply hway.walk_beyond htree horigin hnone _ (by simp) hdots
        exact fun hk' => hempty (hmem "" (hk ▸ List.mem_append_left _ hk'))
      have habove := ih fun hn => hempty (hmem "" hn)
      obtain ⟨above, last, rfl⟩ := (List.eq_nil_or_concat' parent).resolve_left hparent
      rw [undotted_left split, List.dropLast_concat] at habove
      rw [split, List.dropLast_concat, List.reverse_concat]
      unfold makeParents
      apply hrefused.tryCatch
      have hkind : (SystemError.noEntry.kind != .notFound) = false := rfl
      rw [hkind, List.reverse_cons, List.reverse_reverse]
      exact habove.bind had.does_ensureDirectory

/-! ## No other directories are had -/

/-- A directory is had at once, or is refused and nothing is changed. -/
theorem ensureDirectory_cases (files : Files) (origin : Place) (ns : List String) :
    (∃ place now, Ensures files origin ns place now) ∨
      ∃ e, Refuses (ensureDirectory origin ns) files e := by
  rcases makeDirectory_cases files origin ns with ⟨p, hway, hnone, hallowed⟩ | ⟨e, hrefused⟩
  · exact .inl ⟨p, _, .made hway hnone hallowed⟩
  · cases hleads : files.leadsToDirectory origin ns with
    | true =>
      obtain ⟨p, hway, hp⟩ := leadsToDirectory_eq_true_iff.mp hleads
      exact .inl ⟨p, files, .there hway hp⟩
    | false =>
      refine .inr ⟨e, hrefused.tryCatch_refuses ?_⟩
      apply Does.bind_refuses (rfl : Does get files files files)
      rw [hleads]
      rfl

/-- Where directories are made with success, one is had. -/
theorem obtains_of_does {parents : List String} (hparents : (undotted ns).dropLast.reverse = parents)
    (h : Does (makeParents origin parents ns) files () now) :
    ∃ place, Obtains files origin ns place now := by
  have honce : ∀ {files now : Files} {ns : List String},
      Does (ensureDirectory origin ns) files () now → ∃ place, Ensures files origin ns place now := by
    intro files now ns h
    rcases ensureDirectory_cases files origin ns with ⟨place, now', had⟩ | ⟨e, hrefused⟩
    · obtain ⟨-, rfl⟩ := h.unique had.does_ensureDirectory
      exact ⟨place, had⟩
    · exact absurd h hrefused.not_does
  induction parents generalizing ns files now with
  | nil =>
    obtain ⟨place, had⟩ := honce h
    exact ⟨place, .atOnce had⟩
  | cons name above ih =>
    rcases ensureDirectory_cases files origin ns with ⟨place, now', had⟩ | ⟨e, hrefused⟩
    · obtain ⟨-, rfl⟩ := h.unique had.does_ensureDirectory.makeParents
      exact ⟨place, .atOnce had⟩
    · have hne : undotted ns ≠ [] := by
        intro hnil
        simp [hnil] at hparents
      have hsplit : undotted ns = (name :: above).reverse ++ [(undotted ns).getLast hne] := by
        rw [← hparents, List.reverse_reverse, List.dropLast_append_getLast]
      have hparent : undotted (name :: above).reverse = (name :: above).reverse :=
        undotted_left hsplit
      unfold makeParents at h
      have hhandled := hrefused.of_tryCatch h
      dsimp only at hhandled
      split at hhandled
      · exact absurd hhandled (Refuses.not_does rfl)
      · obtain ⟨_, mid, habove, hmake⟩ := hhandled.of_bind
        obtain ⟨p, had⟩ := ih (by rw [hparent, List.reverse_cons, List.dropLast_concat,
          List.reverse_reverse]) habove
        obtain ⟨place, hlast⟩ := honce hmake
        exact ⟨place, .afterParent hsplit had hlast⟩

/-! ## Paths at which a directory can be made -/

/-- Directories are made for a legal path by its names, if it has any. -/
theorem does_makeDirectories {path : String} (hlegal : IsLegal path)
    (hroot : names path = [] → now = files)
    (hmake : Does (makeParents (files.origin path) (undotted (names path)).dropLast.reverse (names path))
      files () now) : Does (makeDirectories path) files () now := by
  have hparents : (undotted (names path)).dropLast.reverse =
      ((names path).filter (· != ".")).reverse.drop 1 := by
    rw [List.drop_one, List.tail_reverse]
    rfl
  unfold makeDirectories
  rw [hlegal.no_nul, if_neg Bool.false_ne_true, if_neg (Nat.not_lt.mpr hlegal.short)]
  dsimp only
  split
  · next hnames =>
    cases hroot (List.isEmpty_iff.mp hnames)
    exact does_pure () files
  · rw [hparents] at hmake
    apply Does.get_bind
    exact hmake

/-- Where there is a directory, none is made. -/
theorem does_makeDirectories_of_found {path : String}
    (h : files.find path = .ok (place, .directory)) : Does (makeDirectories path) files () files := by
  obtain ⟨hlegal, hway, hat⟩ := find_eq_ok_iff.mp h
  exact does_makeDirectories hlegal (fun _ => rfl)
    (does_ensureDirectory_of_there (hway.undot (.of_steps path)) (hasDirectory_iff.mpr hat)).makeParents

/-- A directory can be had at a path, which leaves the files with what had to be made for it. -/
structure Makeable (files : Files) (path : String) (place : Place) (made : Files) : Prop where
  legal : IsLegal path
  way : Obtains files (files.origin path) (names path) place made

namespace Makeable

variable {path : String}

/-- The directory at a path is had. -/
theorem had (htree : files.IsTree) (h : files.Makeable path place now) :
    Had files (files.origin path) (names path) place now :=
  h.way.had htree (hasDirectory_origin htree path)

/-- Then the path leads to the directory. -/
theorem leads (htree : files.IsTree) (h : files.Makeable path place now) :
    now.Leads path [] place .directory := by
  have hhad := h.had htree
  have horigin := hhad.grows.setting.origin path
  refine ⟨by simp, find_eq_ok_iff.mpr ⟨h.legal, ?_, hasDirectory_iff.mp hhad.directory⟩⟩
  apply walks_steps _ hhad.directory
  rw [descend_nil, horigin]
  exact hhad.way

/-- A path that leads to a directory needs nothing to be made. -/
theorem of_leads (h : files.Leads path [] place .directory) : files.Makeable path place files := by
  refine ⟨h.isLegal, .atOnce (.there ?_ (hasDirectory_iff.mpr h.at?))⟩
  have hway := h.walks h.path_ne_empty
  rw [List.append_nil] at hway
  exact hway

/-- The directories on the way to a path are made, and nothing else. -/
theorem does_makeDirectories (htree : files.IsTree) (h : files.Makeable path place now) :
    Does (makeDirectories path) files () now := by
  have horigin := hasDirectory_origin htree path
  apply Files.does_makeDirectories h.legal
  · intro hnames
    -- the names of the root lead to it at once
    have hway := h.way
    rw [hnames] at hway
    cases hway with
    | atOnce had =>
      cases had with
      | there => rfl
      | made way absent _ =>
        cases way
        rw [hasDirectory_iff.mp horigin] at absent
        cases absent
    | afterParent split => simp [undotted] at split
  · exact h.way.does_makeParents htree horigin (empty_not_mem_names path)

end Makeable

/-- A directory can be had at a path just if making its directories succeeds, and the path is not
empty. -/
theorem exists_makeable_iff (htree : files.IsTree) {path : String} :
    (∃ place, files.Makeable path place now) ↔
      path ≠ "" ∧ Does (makeDirectories path) files () now := by
  constructor
  · rintro ⟨place, h⟩
    exact ⟨h.legal.ne_empty, h.does_makeDirectories htree⟩
  · rintro ⟨hne, h⟩
    have horigin := hasDirectory_origin htree path
    unfold makeDirectories at h
    dsimp only at h
    split at h
    · exact absurd h (Refuses.not_does rfl)
    · next hnul =>
      split at h
      · exact absurd h (Refuses.not_does rfl)
      · next hshort =>
        have hlegal : IsLegal path := ⟨hne, by simpa using hnul, Nat.not_lt.mp hshort⟩
        split at h
        · next hnames =>
          obtain ⟨-, rfl⟩ := h.unique (does_pure () files)
          refine ⟨files.origin path, hlegal, .atOnce (.there ?_ horigin)⟩
          rw [List.isEmpty_iff.mp hnames]
          exact .arrived _ _
        · obtain ⟨place, hway⟩ := obtains_of_does (by rw [List.drop_one, List.tail_reverse]; rfl)
            (h.of_get_bind)
          exact ⟨place, hlegal, hway⟩

end Scaffolding.Files
