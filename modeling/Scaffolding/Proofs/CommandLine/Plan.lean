import Scaffolding.Proofs.CommandLine.Ending
import Scaffolding.Proofs.Files.Path
import Scaffolding.Proofs.Scaffold.Unattended

/-!
# Plans for creating

A plan says what a project is created from and where. It is ready if it can be carried out without a
question: the switches give a directory and agree beforehand, the template is named or the only one,
and there is no field to ask for.

Where nobody answers, creating comes to the build exactly if a plan is ready, and then the command of
the plan is the only one that runs. Otherwise it ends in a problem, and nothing is done.
-/

set_option autoImplicit false

namespace Scaffolding.CommandLine

open Session (Spared RanOnly)

variable {source : Source} {options : CreateOptions} {world world' : World} {s s' : Session}
  {listing : Listing}

/-! ## Loading the registry -/

/-- Loading a registry leaves the files alone; it sends one request, or none. -/
theorem outcome_load (source : Source) (world : World) (s : Session) :
    (outcome (Registry.load source) world s).2 = s ∨
      ∃ request, (outcome (Registry.load source) world s).2 = s.record (.sent request) := by
  rcases hload : outcome (Registry.load source) world s with ⟨r, s'⟩
  rcases outcome_bind_cases hload with ⟨f, hfetch, -⟩ | ⟨text, s₁, hfetch, hread⟩
  · exact Remote.outcome_fetch hfetch
  · have hs : s' = s₁ := by
      split at hread <;> cases hread <;> rfl
    rw [hs]
    exact Remote.outcome_fetch hfetch

/-- Loading a registry asks, runs and changes nothing. -/
theorem spared_load (source : Source) (world : World) (s : Session) :
    Spared world s (outcome (Registry.load source) world s).2 := by
  rcases outcome_load source world s with h | ⟨request, h⟩
  · rw [h]
    exact .refl
  · rw [h]
    exact .record trivial

/-- Loading a registry leaves the files alone. -/
theorem files_load (source : Source) (world : World) (s : Session) :
    (outcome (Registry.load source) world s).2.files = s.files := by
  rcases outcome_load source world s with h | ⟨request, h⟩
  · rw [h]
  · rw [h]
    rfl

/-- What is fetched depends on the answer to the request and on nothing else. -/
theorem outcome_fetch_congr (source : Source) (owner repository path branch : String)
    (h : ∀ request, world'.send s'.events request = world.send s.events request) :
    (outcome (Remote.fetch source owner repository path branch) world' s').1 =
      (outcome (Remote.fetch source owner repository path branch) world s).1 := by
  cases hurl : source.documentUrl owner repository path branch with
  | error f => rw [Remote.outcome_fetch_unaddressed hurl, Remote.outcome_fetch_unaddressed hurl]
  | ok url =>
    cases hflaw : (Remote.Request.of source url).flaw? with
    | some reason =>
      rw [Remote.outcome_fetch_flawed hurl hflaw, Remote.outcome_fetch_flawed hurl hflaw]
    | none =>
      rw [Remote.outcome_fetch_sent hurl hflaw, Remote.outcome_fetch_sent hurl hflaw, h]

/-- So is the listing of a registry. -/
theorem outcome_load_congr (source : Source)
    (h : ∀ request, world'.send s'.events request = world.send s.events request) :
    (outcome (Registry.load source) world' s').1 = (outcome (Registry.load source) world s).1 := by
  have hfetch := outcome_fetch_congr source source.owner source.repository source.path
    source.branch h
  unfold Registry.load
  rw [outcome_bind, outcome_bind]
  generalize outcome (Remote.fetch source source.owner source.repository source.path
    source.branch) world' s' = fetched' at hfetch ⊢
  generalize outcome (Remote.fetch source source.owner source.repository source.path
    source.branch) world s = fetched at hfetch ⊢
  obtain ⟨r, s₁⟩ := fetched
  obtain ⟨r', s₂⟩ := fetched'
  cases hfetch
  cases r with
  | error f => rfl
  | ok text =>
    dsimp only
    cases Registry.manifestOf source.path text <;> rfl

/-- The templates to choose from are those of the listing that was loaded. -/
theorem ending_loadTemplates {r : Except Problem (List Template)}
    (h : ending (loadTemplates source) world s = (r, s')) :
    s' = (outcome (Registry.load source) world s).2 ∧
      ∀ templates, r = .ok templates → ∃ listing : Listing,
        (outcome (Registry.load source) world s).1 = .ok listing ∧
          templates = listing.templates := by
  rcases ending_bind_cases h with ⟨p, hload, rfl⟩ | ⟨listing, s₁, hload, hnext⟩
  · obtain ⟨f, hfails⟩ := ending_attempt_eq_error hload
    rw [hfails]
    exact ⟨rfl, by simp⟩
  · rw [ending_attempt_eq_ok_iff] at hload
    rw [hload]
    split at hnext
    · cases hnext
      exact ⟨rfl, by simp⟩
    · cases hnext
      refine ⟨rfl, ?_⟩
      intro templates htemplates
      cases htemplates
      exact ⟨listing, rfl, rfl⟩

/-! ## Choosing without an answer -/

section

variable (hworld : world.Unattended)

include hworld

/-- Nobody answers an unattended question, so asking ends the task and spares the session. -/
theorem ending_ask_unattended {question : Question}
    {r : Except Problem (Option question.Answer)}
    (h : ending (ask question) world s = (r, s')) :
    (∃ p, r = .error p) ∧ Spared world s s' := by
  obtain ⟨e, he⟩ := hworld.ask s.events question
  rw [ending_ask_error he] at h
  cases h
  exact ⟨⟨_, rfl⟩, .record trivial⟩

/-- Without anybody to ask, the index is the one that was given, or that of the only template. -/
theorem ending_chooseIndex {templates : List Template} {given : Option Nat}
    {r : Except Problem Nat} (h : ending (chooseIndex templates given) world s = (r, s')) :
    Spared world s s' ∧ ∀ i, r = .ok i →
      s' = s ∧ (given = some i ∨ given = none ∧ templates.length = 1 ∧ i = 0) := by
  unfold chooseIndex at h
  cases given with
  | some index =>
    dsimp only at h
    split at h
    · cases h
      exact ⟨.refl, fun i hi => by cases hi; exact ⟨rfl, .inl rfl⟩⟩
    · cases h
      exact ⟨.refl, by simp⟩
  | none =>
    dsimp only at h
    split at h
    · next hone =>
      cases h
      exact ⟨.refl, fun i hi => by cases hi; exact ⟨rfl, .inr ⟨rfl, hone, rfl⟩⟩⟩
    · rcases ending_bind_cases h with ⟨p, hask, rfl⟩ | ⟨line, s₁, hask, hnext⟩
      · exact ⟨(ending_ask_unattended hworld hask).2, by simp⟩
      · obtain ⟨⟨p, hp⟩, -⟩ := ending_ask_unattended hworld hask
        cases hp

/-- Without anybody to ask, the directory is the one that was given. -/
theorem ending_chooseDirectory {t : Template} {given : Option String} {r : Except Problem String}
    (h : ending (chooseDirectory t given) world s = (r, s')) :
    Spared world s s' ∧ ∀ path, r = .ok path →
      s' = s ∧ ∃ named, given = some named ∧ path = Files.join s.files.herePath named := by
  unfold chooseDirectory at h
  rw [ending_look_bind] at h
  cases given with
  | some named =>
    cases h
    exact ⟨.refl, fun path hpath => by cases hpath; exact ⟨rfl, named, rfl, rfl⟩⟩
  | none =>
    rcases ending_bind_cases h with ⟨p, hask, rfl⟩ | ⟨named, s₁, hask, hnext⟩
    · exact ⟨(ending_ask_unattended hworld hask).2, by simp⟩
    · obtain ⟨⟨p, hp⟩, -⟩ := ending_ask_unattended hworld hask
      cases hp

/-- A directory that must be empty is looked at, and nothing more comes of it if it is. -/
theorem ending_requireEmpty {path : String} {yes : Bool} {r : Except Problem Unit}
    (h : ending (requireEmpty path yes) world s = (r, s')) :
    Spared world s s' ∧ (r = .ok () → s' = s) := by
  unfold requireEmpty at h
  rw [ending_look_bind] at h
  split at h
  · rcases ending_bind_cases h with ⟨p, hask, rfl⟩ | ⟨answer, s₁, hask, hnext⟩
    · exact ⟨(ending_ask_unattended hworld hask).2, by simp⟩
    · obtain ⟨⟨p, hp⟩, -⟩ := ending_ask_unattended hworld hask
      cases hp
  · cases h
    exact ⟨.refl, fun _ => rfl⟩

omit hworld in
/-- The root is there. -/
theorem exists_root (files : Files) : files.exists? "/" = true := by
  have hfound : files.find "/" = .ok ([], .directory) := files.leads_root.found
  simp [Files.exists?, hfound]

omit hworld in
/-- The parent of a directory is looked at and has to be there. -/
theorem ending_requireParent {path : String} {r : Except Problem Unit}
    (h : ending (requireParent path) world s = (r, s')) :
    s' = s ∧ (r = .ok () → s.files.exists? ((Files.parent? path).getD "/") = true) := by
  unfold requireParent at h
  rw [ending_look_bind] at h
  cases hparent : Files.parent? path with
  | none =>
    rw [hparent] at h
    cases h
    exact ⟨rfl, fun _ => exists_root s.files⟩
  | some parent =>
    rw [hparent] at h
    dsimp only at h
    split at h
    · next hthere =>
      cases h
      exact ⟨rfl, fun _ => hthere⟩
    · cases h
      exact ⟨rfl, by simp⟩

/-- The directory of a project was given, and its parent is there. -/
theorem ending_prepareDirectory {t : Template} {r : Except Problem String}
    (h : ending (prepareDirectory t options) world s = (r, s')) :
    Spared world s s' ∧ ∀ path, r = .ok path →
      s' = s ∧ (∃ named, options.directory = some named ∧
          path = Files.join s.files.herePath named) ∧
        s.files.exists? ((Files.parent? path).getD "/") = true := by
  rcases ending_bind_cases h with ⟨p, hchoose, rfl⟩ | ⟨path, s₁, hchoose, hnext⟩
  · exact ⟨(ending_chooseDirectory hworld hchoose).1, by simp⟩
  obtain ⟨-, hchosen⟩ := ending_chooseDirectory hworld hchoose
  obtain ⟨rfl, hnamed⟩ := hchosen path rfl
  rcases ending_bind_cases hnext with ⟨p, hrequire, rfl⟩ | ⟨_, s₂, hrequire, hlast⟩
  · obtain ⟨rfl, -⟩ := ending_requireParent hrequire
    exact ⟨.refl, by simp⟩
  obtain ⟨rfl, hparent⟩ := ending_requireParent hrequire
  rcases ending_bind_cases hlast with ⟨p, hempty, rfl⟩ | ⟨_, s₃, hempty, hdone⟩
  · exact ⟨(ending_requireEmpty hworld hempty).1, by simp⟩
  · obtain ⟨-, hsame⟩ := ending_requireEmpty hworld hempty
    have hs := hsame rfl
    subst hs
    cases hdone
    refine ⟨.refl, ?_⟩
    intro path' hpath'
    cases hpath'
    exact ⟨rfl, hnamed, hparent rfl⟩

end

/-! ## Creating -/

/-- What a project is created from and where. -/
structure Plan where
  source : Source
  listing : Listing
  index : Nat
  template : Template
  directory : String

/-- The command that builds the template of a plan without settings. -/
def Plan.command (plan : Plan) : Tool.Command :=
  plan.template.builder.command plan.template.descriptor .empty plan.directory

/-- A source that the environment and the switches describe. -/
def Configures (env : Environment) (globals : GlobalOptions) (files : Files) (source : Source) :
    Prop :=
  ∃ described, Source.ofEnvironment env files = .ok described ∧
    source = described.withRegistry globals.owner globals.repository globals.branch

/-- A plan that can be carried out without a question. -/
structure Plan.Ready (plan : Plan) (options : CreateOptions) (world : World) (s : Session) :
    Prop where
  yes : options.yes = true
  directory : ∃ named, options.directory = some named ∧
    plan.directory = Files.join s.files.herePath named
  /-- The registry is there. -/
  loaded : (outcome (Registry.load plan.source) world s).1 = .ok plan.listing
  /-- The template is named, or it is the only one. -/
  index : options.template = some plan.index ∨
    options.template = none ∧ plan.listing.templates.length = 1 ∧ plan.index = 0
  template : plan.listing.templates[plan.index]? = some plan.template
  /-- The directory in which the project is to be made is there; the root is its own one. -/
  parent : s.files.exists? ((Files.parent? plan.directory).getD "/") = true
  /-- The schema in effect, which is the empty one if there is none, has no fields. -/
  schema : ∃ schema, (outcome (Scaffold.prepare plan.source plan.template) world
      (outcome (Registry.load plan.source) world s).2).1 = .ok schema ∧
    (schema.getD .empty).fields = []

/-- Scaffolding ends with the result of the run and with the session that the run leaves. -/
theorem outcome_scaffold (templates : List Template) (choice : Scaffold.Choice) :
    outcome (scaffold source templates choice) world s =
      ((Scaffold.stepOutcome (Scaffold.run source templates choice) world .start s).1,
        (Scaffold.stepOutcome (Scaffold.run source templates choice) world .start s).2.2) :=
  rfl

/-- Where nobody answers, creating ends in a problem with nothing done, or there was a plan that is
ready and its command is the only one that ran. -/
theorem ending_create (hworld : world.Unattended) {r : Except Problem Scaffold.Project}
    (h : ending (create source options) world s = (r, s')) :
    (∃ p, r = .error p) ∧ Spared world s s' ∨
      ∃ plan : Plan, plan.source = source ∧ plan.Ready options world s ∧
        RanOnly plan.command s s' := by
  rcases ending_bind_cases h with ⟨p, hagent, rfl⟩ | ⟨_, s₀, hagent, hnext⟩
  · cases hcheck : Remote.checkAgent source <;> rw [hcheck] at hagent <;> cases hagent
    exact .inl ⟨⟨_, rfl⟩, .refl⟩
  have hs₀ : s₀ = s := by
    cases hcheck : Remote.checkAgent source <;> rw [hcheck] at hagent <;> cases hagent
    rfl
  subst hs₀
  rcases ending_bind_cases hnext with ⟨p, hload, rfl⟩ | ⟨templates, s₁, hload, hchoose⟩
  · obtain ⟨rfl, -⟩ := ending_loadTemplates hload
    exact .inl ⟨⟨p, rfl⟩, spared_load source world s₀⟩
  obtain ⟨rfl, hlisted⟩ := ending_loadTemplates hload
  obtain ⟨listing, hloaded, rfl⟩ := hlisted templates rfl
  have hspared := spared_load source world s₀
  rcases ending_bind_cases hchoose with ⟨p, hindex, rfl⟩ | ⟨index, s₂, hindex, hselect⟩
  · obtain ⟨hasked, -⟩ := ending_chooseIndex hworld hindex
    exact .inl ⟨⟨p, rfl⟩, hspared.trans hasked⟩
  obtain ⟨-, hchosen⟩ := ending_chooseIndex hworld hindex
  obtain ⟨rfl, hpicked⟩ := hchosen index rfl
  cases ht : listing.templates[index]? with
  | none =>
    rw [ht] at hselect
    cases hselect
    exact .inl ⟨⟨_, rfl⟩, hspared⟩
  | some t =>
    rw [ht] at hselect
    rcases ending_bind_cases hselect with ⟨p, hprepare, rfl⟩ | ⟨path, s₃, hprepare, hrun⟩
    · obtain ⟨hasked, -⟩ := ending_prepareDirectory hworld hprepare
      exact .inl ⟨⟨p, rfl⟩, hspared.trans hasked⟩
    obtain ⟨-, hdirectory⟩ := ending_prepareDirectory hworld hprepare
    obtain ⟨rfl, hnamed, hparent⟩ := hdirectory path rfl
    rw [files_load] at hnamed hparent
    rw [ending_attempt, outcome_scaffold] at hrun
    obtain ⟨stages, result, s₄, hcourse, hstep⟩ := @Scaffold.run_course source _
      ⟨index, path, options.yes⟩ _ ht world .start (outcome (Registry.load source) world s₀).2
    rw [hstep] at hrun
    rcases hcourse.unattended hworld with ⟨⟨f, rfl⟩, hidle⟩ | ⟨hyes, hschema, hran⟩
    · cases hrun
      exact .inl ⟨⟨_, rfl⟩, hspared.trans hidle⟩
    · cases hrun
      exact .inr ⟨⟨source, listing, index, t, path⟩, rfl,
        ⟨hyes, hnamed, hloaded, hpicked, ht, hparent, hschema⟩, hspared.ranOnly hran⟩

/-! ## Carrying out a plan -/

namespace Plan.Ready

variable {plan : Plan} (hready : plan.Ready options world s)

include hready

/-- The index of a plan is one of its listing. -/
theorem index_lt : plan.index < plan.listing.templates.length :=
  (List.getElem?_eq_some_iff.mp hready.template).1

/-- The registry of a plan is loaded with its listing. -/
theorem ending_loadTemplates : ending (loadTemplates plan.source) world s =
    (.ok plan.listing.templates, (outcome (Registry.load plan.source) world s).2) := by
  have hsome : plan.listing.templates.isEmpty = false := by
    rw [List.isEmpty_eq_false_iff_exists_mem]
    exact ⟨_, List.getElem_mem hready.index_lt⟩
  have hattempt : ending (attempt (Registry.load plan.source)) world s =
      (.ok plan.listing, (outcome (Registry.load plan.source) world s).2) :=
    ending_attempt_eq_ok_iff.mpr (Prod.ext hready.loaded rfl)
  unfold loadTemplates
  rw [ending_bind, hattempt]
  dsimp only
  rw [hsome]
  rfl

/-- The index of a plan is the one that is chosen. -/
theorem ending_chooseIndex (s₁ : Session) :
    ending (chooseIndex plan.listing.templates options.template) world s₁ =
      (.ok plan.index, s₁) := by
  unfold chooseIndex
  rcases hready.index with hgiven | ⟨hgiven, hone, hzero⟩
  · rw [hgiven]
    dsimp only
    rw [if_pos hready.index_lt]
    rfl
  · rw [hgiven, hzero]
    dsimp only
    rw [if_pos hone]
    rfl

variable {s₁ : Session} (hfiles : s₁.files = s.files)

include hfiles

/-- The directory of a plan is the one that is chosen. -/
theorem ending_chooseDirectory :
    ending (chooseDirectory plan.template options.directory) world s₁ =
      (.ok plan.directory, s₁) := by
  obtain ⟨named, hnamed, hpath⟩ := hready.directory
  unfold chooseDirectory
  rw [ending_look_bind, hnamed, hpath, hfiles]
  rfl

/-- The parent of the directory of a plan is there. -/
theorem ending_requireParent : ending (requireParent plan.directory) world s₁ = (.ok (), s₁) := by
  have hthere := hready.parent
  unfold requireParent
  rw [ending_look_bind, hfiles]
  cases hparent : Files.parent? plan.directory with
  | none => rfl
  | some parent =>
    rw [hparent, Option.getD_some] at hthere
    dsimp only
    rw [if_pos hthere]
    rfl

omit hfiles in
/-- The directory of a plan counts as empty. -/
theorem ending_requireEmpty :
    ending (requireEmpty plan.directory options.yes) world s₁ = (.ok (), s₁) := by
  unfold requireEmpty
  rw [ending_look_bind, hready.yes]
  simp only [Bool.not_true, Bool.and_false]
  rfl

/-- The directory of a plan is prepared. -/
theorem ending_prepareDirectory :
    ending (prepareDirectory plan.template options) world s₁ = (.ok plan.directory, s₁) := by
  unfold prepareDirectory
  rw [ending_bind, hready.ending_chooseDirectory hfiles]
  dsimp only
  rw [ending_bind, hready.ending_requireParent hfiles]
  dsimp only
  rw [ending_bind, hready.ending_requireEmpty]
  rfl

end Plan.Ready

/-- A plan that is ready is carried out: after a spared session its template is built with no
settings. -/
theorem ending_create_of_ready {plan : Plan} (hagent : Remote.checkAgent plan.source = .ok ())
    (hready : plan.Ready options world s) :
    ∃ s₁, Spared world s s₁ ∧ (ending (create plan.source options) world s).2 =
      (outcome (plan.template.builder.build plan.template.descriptor
        (plan.template.builder.encode .empty) plan.directory) world s₁).2 := by
  obtain ⟨schema, hschema, hfields⟩ := hready.schema
  obtain ⟨stages, result, s', hcourse, hstep⟩ := @Scaffold.run_course plan.source _
    ⟨plan.index, plan.directory, options.yes⟩ _ hready.template world .start
    (outcome (Registry.load plan.source) world s).2
  obtain ⟨s₁, hspared, hbuild⟩ := hcourse.gets_to_build hready.yes hschema hfields
  refine ⟨s₁, (spared_load plan.source world s).trans hspared, ?_⟩
  rw [← hbuild]
  unfold create
  rw [hagent, ending_bind]
  change (ending (loadTemplates plan.source >>= _) world s).2 = s'
  rw [ending_bind, hready.ending_loadTemplates]
  dsimp only
  rw [ending_bind, hready.ending_chooseIndex]
  dsimp only
  rw [hready.template]
  dsimp only
  rw [ending_bind, hready.ending_prepareDirectory (files_load plan.source world s)]
  dsimp only
  rw [ending_attempt, outcome_scaffold, hstep]

end Scaffolding.CommandLine
