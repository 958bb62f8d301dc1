import Scaffolding.Proofs.CommandLine.Plan

/-!
# The program without a terminal

Where nobody answers, the program builds only if a plan is possible. Otherwise it reports a problem,
and has done nothing but look, fetch and ask.

The template that is built is the one that the list shows at the same index, since both commands read
the same listing out of the same document.
-/

set_option autoImplicit false

namespace Scaffolding.CommandLine

open Session (Spared RanOnly)

variable {source : Source} {options : CreateOptions} {world world' : World} {s s' : Session}
  {listing : Listing}

/-! ## The list -/

/-- The list shows a template at an index, as the line with that index or as the item there. -/
structure Shows (printed : Printed) (json : Bool) (templates : List Template) (index : Nat)
    (t : Template) : Prop where
  exitCode : printed.exitCode = 0
  line : json = false → printed.stdout = String.join (templates.mapIdx templateLine) ∧
    (templates.mapIdx templateLine)[index]? = some (templateLine index t)
  item : json = true →
    printed.stdout =
        (Json.array (templates.map fun t => t.descriptor.toJson)).renderIndented ++ "\n" ∧
      (templates.map fun t => t.descriptor.toJson)[index]? = some t.descriptor.toJson

/-- The source is the one that the environment and the switches describe, and nothing is done to
find it. -/
theorem ending_sourceOf {env : Environment} {globals : GlobalOptions}
    {r : Except Problem Source} (h : ending (sourceOf env globals) world s = (r, s')) :
    s' = s ∧ ∀ source, r = .ok source ↔ Configures env globals s.files source := by
  unfold sourceOf at h
  rw [ending_look_bind] at h
  unfold Configures
  cases hdescribed : Source.ofEnvironment env s.files with
  | error f =>
    rw [hdescribed] at h
    cases h
    exact ⟨rfl, by simp⟩
  | ok described =>
    rw [hdescribed] at h
    cases h
    refine ⟨rfl, fun source => ?_⟩
    constructor
    · intro hsource
      cases hsource
      exact ⟨described, rfl, rfl⟩
    · rintro ⟨described', heq, rfl⟩
      cases heq
      rfl

/-- Requests can be sent by the name of the program. -/
theorem checkAgent_of_configures {env : Environment} {globals : GlobalOptions} {files : Files}
    (h : Configures env globals files source) : Remote.checkAgent source = .ok () := by
  have hagent : source.agent = Source.standard.agent := by
    obtain ⟨described, hdescribed, rfl⟩ := h
    unfold Source.ofEnvironment at hdescribed
    cases hapi : Source.apiOf env with
    | error f =>
      rw [hapi] at hdescribed
      cases hdescribed
    | ok api =>
      rw [hapi] at hdescribed
      cases hdescribed
      rfl
  have hlegal : Remote.isHeaderText Source.standard.agent = true := by decide +kernel
  unfold Remote.checkAgent
  rw [hagent, if_pos hlegal]

/-- A registry that was loaded is printed. -/
theorem printedBy_list {env : Environment} {globals : GlobalOptions} {json : Bool}
    {args : List String} (hread : read args = .ok ⟨globals, .list json⟩)
    (hsource : Configures env globals s.files source)
    (hloaded : (outcome (Registry.load source) world s).1 = .ok listing) :
    (printedBy env args world s).1 =
      ⟨0, if json then listJson listing else listText listing, warnings listing⟩ := by
  have hlist : (ending (list source json) world s).1 =
      .ok ⟨0, if json then listJson listing else listText listing, warnings listing⟩ := by
    unfold list
    rw [checkAgent_of_configures hsource, ending_bind, ending_attempt]
    change (ending (attempt (Registry.load source) >>= _) world s).1 = _
    rw [ending_bind, ending_attempt]
    rcases houtcome : outcome (Registry.load source) world s with ⟨r, s₁⟩
    rw [houtcome] at hloaded
    cases hloaded
    rfl
  rw [printedBy_of_read env hread]
  unfold perform
  rw [ending_bind]
  rcases hsourceOf : ending (sourceOf env globals) world s with ⟨r, s₁⟩
  obtain ⟨rfl, hconfigures⟩ := ending_sourceOf hsourceOf
  have hr := (hconfigures source).mpr hsource
  subst hr
  dsimp only
  rcases hending : ending (list source json) world s₁ with ⟨r, s₂⟩
  rw [hending] at hlist
  cases hlist
  rfl

/-- A list of the same source, in a world where the requests are answered the same, shows every
template of the listing at its index. -/
theorem shows_of_list {env : Environment} {globals : GlobalOptions} {json : Bool}
    {args : List String} (hread : read args = .ok ⟨globals, .list json⟩) {index : Nat} {t : Template}
    (hsource : Configures env globals s'.files source)
    (hloaded : (outcome (Registry.load source) world s).1 = .ok listing)
    (hanswers : ∀ request, world'.send s'.events request = world.send s.events request)
    (ht : listing.templates[index]? = some t) :
    Shows (printedBy env args world' s').1 json listing.templates index t := by
  have hload := outcome_load_congr source hanswers
  rw [hloaded] at hload
  have hsome : listing.templates.isEmpty = false := by
    cases htemplates : listing.templates with
    | nil =>
      rw [htemplates] at ht
      cases ht
    | cons _ _ => rfl
  rw [printedBy_list hread hsource hload]
  refine ⟨rfl, ?_, ?_⟩
  · rintro rfl
    refine ⟨?_, by simp [ht]⟩
    simp [listText, hsome]
  · rintro rfl
    exact ⟨rfl, by simp [ht]⟩

/-! ## The program -/

/-- A plan of the source that is described. -/
def Plan.Possible (plan : Plan) (env : Environment) (globals : GlobalOptions)
    (options : CreateOptions) (world : World) (s : Session) : Prop :=
  Configures env globals s.files plan.source ∧ plan.Ready options world s

/-- An unattended command fails and spares the session, or it carries out a plan that is possible.
-/
theorem ending_perform_create {env : Environment} {globals : GlobalOptions}
    (hworld : world.Unattended) {r : Except Problem Printed}
    (h : ending (perform env ⟨globals, .create options⟩) world s = (r, s')) :
    (∃ p, r = .error p) ∧ Spared world s s' ∨
      ∃ plan : Plan, plan.Possible env globals options world s ∧ RanOnly plan.command s s' := by
  rcases ending_bind_cases h with ⟨p, hsource, rfl⟩ | ⟨source, s₁, hsource, hnext⟩
  · obtain ⟨rfl, -⟩ := ending_sourceOf hsource
    exact .inl ⟨⟨p, rfl⟩, .refl⟩
  obtain ⟨rfl, hconfigures⟩ := ending_sourceOf hsource
  have hsource := (hconfigures source).mp rfl
  rcases ending_bind_cases hnext with ⟨p, hcreate, rfl⟩ | ⟨project, s₂, hcreate, hdone⟩
  · rcases ending_create hworld hcreate with ⟨-, hspared⟩ | ⟨plan, rfl, hready, hran⟩
    · exact .inl ⟨⟨p, rfl⟩, hspared⟩
    · exact .inr ⟨plan, ⟨hsource, hready⟩, hran⟩
  · cases hdone
    rcases ending_create hworld hcreate with ⟨⟨p, hp⟩, -⟩ | ⟨plan, rfl, hready, hran⟩
    · cases hp
    · exact .inr ⟨plan, ⟨hsource, hready⟩, hran⟩

/-- The program creates without a terminal. If no plan is possible, it ends with the code for a
problem, and nothing is built or changed. A command other than the one that looks for Nix runs only
if some plan is possible, and then it is the command of the plan, whose template is the one that the
list shows at its index for the same answers. -/
theorem run_unattended (env : Environment) {args : List String} {globals : GlobalOptions}
    (hread : read args = .ok ⟨globals, .create options⟩) (hworld : world.Unattended)
    (s : Session) :
    ((¬ ∃ plan : Plan, plan.Possible env globals options world s) →
        (printedBy env args world s).1.exitCode = 1 ∧
          Spared world s (printedBy env args world s).2) ∧
      ∃ events, (printedBy env args world s).2.events = s.events ++ events ∧
        ∀ call, .ran call ∈ events → call ≠ Builder.probe →
          ∃ plan : Plan, plan.Possible env globals options world s ∧ call = plan.command ∧
            ∀ (json : Bool) (listArgs : List String) (world' : World) (s' : Session),
              read listArgs = .ok ⟨globals, .list json⟩ → s'.files = s.files →
              (∀ request, world'.send s'.events request = world.send s.events request) →
              Shows (printedBy env listArgs world' s').1 json plan.listing.templates plan.index
                plan.template := by
  have hprinted := printedBy_of_read env hread world s
  rcases hending : ending (perform env ⟨globals, .create options⟩) world s with ⟨r, s₁⟩
  rw [hending] at hprinted
  have hsession : (printedBy env args world s).2 = s₁ := by
    rw [hprinted]
    cases r <;> rfl
  rw [hsession]
  rcases ending_perform_create hworld hending with ⟨⟨p, rfl⟩, hspared⟩ | ⟨plan, hplan, hran⟩
  · constructor
    · intro _
      rw [hprinted]
      exact ⟨rfl, hspared⟩
    · obtain ⟨events, hevents, hharmless⟩ := hspared.events
      refine ⟨events, hevents, ?_⟩
      intro call hcall hother
      exact absurd (hharmless _ hcall) hother
  · obtain ⟨events, hevents, hran⟩ := hran
    refine ⟨fun hnone => absurd ⟨plan, hplan⟩ hnone, events, hevents, ?_⟩
    intro call hcall hother
    refine ⟨plan, hplan, (hran call hcall).resolve_left hother, ?_⟩
    intro json listArgs world' s' hlist hfiles hanswers
    have hsource : Configures env globals s'.files plan.source := by
      rw [hfiles]
      exact hplan.1
    exact shows_of_list hlist hsource hplan.2.loaded hanswers hplan.2.template

/-- A possible plan is carried out. -/
theorem run_of_possible {env : Environment} {args : List String} {globals : GlobalOptions}
    (hread : read args = .ok ⟨globals, .create options⟩) {plan : Plan}
    (hplan : plan.Possible env globals options world s) :
    ∃ s₁, Spared world s s₁ ∧ (printedBy env args world s).2 =
      (outcome (plan.template.builder.build plan.template.descriptor
        (plan.template.builder.encode .empty) plan.directory) world s₁).2 := by
  obtain ⟨hsource, hready⟩ := hplan
  obtain ⟨s₁, hspared, hcreate⟩ :=
    ending_create_of_ready (checkAgent_of_configures hsource) hready
  refine ⟨s₁, hspared, ?_⟩
  rw [← hcreate, printedBy_of_read env hread]
  unfold perform
  rw [ending_bind]
  rcases hsourceOf : ending (sourceOf env globals) world s with ⟨r, s₂⟩
  obtain ⟨rfl, hconfigures⟩ := ending_sourceOf hsourceOf
  have hr := (hconfigures plan.source).mpr hsource
  subst hr
  dsimp only
  rw [ending_bind]
  rcases ending (create plan.source options) world s₂ with ⟨p | project, s₃⟩ <;> rfl

/-- A template with a name and nothing else to say. -/
def skeleton : Template where
  descriptor := ⟨"skeleton", "", .cookiecutter, "acme", "skeleton", "main", "config.yaml"⟩
  builder := .cookiecutter

/-- A world without a user, in which every command succeeds. The first request is answered by a
registry with one template, and there is no other document. -/
def automaton : World where
  run _ files _ := (.ok ⟨some 0, "", ""⟩, files)
  send events _ :=
    if events.isEmpty then
      .answered 200
        ("templates: [\x7bname: skeleton, type: cookiecutter, " ++
          "organization: acme, repository: skeleton\x7d]")
    else .answered 500 ""
  ask _ _ := .error ⟨.other, "not connected"⟩
  confirm _ _ _ := .error ⟨.other, "not connected"⟩

/-- Nobody answers in this world. -/
theorem unattended_automaton : automaton.Unattended :=
  ⟨fun _ _ => ⟨_, rfl⟩, fun _ _ _ => ⟨_, rfl⟩⟩

/-- There is a plan in this world, for the only template of its registry. -/
theorem possible_automaton : ∃ plan : Plan,
    plan.Possible ⟨[], none⟩ ⟨0, false, none, none, none⟩ ⟨none, some "site", true⟩ automaton
        ⟨[], default⟩ ∧
      plan.template = skeleton ∧ plan.directory = "/site" := by
  have hloaded : (outcome (Registry.load .standard) automaton ⟨[], default⟩).1.toOption.map
      (·.templates) = some [skeleton] := by
    decide +kernel
  obtain ⟨listing, hlisting, htemplates⟩ := Option.map_eq_some_iff.mp hloaded
  have hschema : (outcome (Scaffold.prepare .standard skeleton) automaton
      (outcome (Registry.load .standard) automaton ⟨[], default⟩).2).1.toOption.map
        (fun schema => schema.getD .empty |>.fields.length) = some 0 := by
    decide +kernel
  obtain ⟨schema, hprepared, hfields⟩ := Option.map_eq_some_iff.mp hschema
  have hpath : "/site" = Files.join (Files.herePath default) "site" := by decide +kernel
  have hparent : (Files.parent? "/site").getD "/" = "/" := by decide
  refine ⟨⟨.standard, listing, 0, skeleton, "/site"⟩, ⟨⟨_, rfl, rfl⟩, ?_⟩, rfl, rfl⟩
  refine ⟨rfl, ⟨"site", rfl, hpath⟩, toOption_eq_some_iff.mp hlisting,
    .inr ⟨rfl, by simp [htemplates], rfl⟩, by simp [htemplates], ?_,
    ⟨schema, toOption_eq_some_iff.mp hprepared, List.length_eq_zero_iff.mp hfields⟩⟩
  rw [hparent]
  exact exists_root _

/-- The plan is carried out, and its command is the one that the theorem is about. -/
theorem run_unattended_automaton :
    read ["create", "--yes", "--directory", "site"] =
        .ok ⟨⟨0, false, none, none, none⟩, .create ⟨none, some "site", true⟩⟩ ∧
      automaton.Unattended ∧
      ∃ plan : Plan, plan.Possible ⟨[], none⟩ ⟨0, false, none, none, none⟩
          ⟨none, some "site", true⟩ automaton ⟨[], default⟩ ∧
        Cookiecutter.buildCommand skeleton.descriptor Settings.empty.jsonText "/site" =
          plan.command := by
  have hread : read ["create", "--yes", "--directory", "site"] =
      .ok ⟨⟨0, false, none, none, none⟩, .create ⟨none, some "site", true⟩⟩ := rfl
  obtain ⟨plan, hplan, htemplate, hdirectory⟩ := possible_automaton
  obtain ⟨s₁, -, hbuild⟩ := run_of_possible hread hplan
  rw [htemplate, hdirectory] at hbuild
  obtain ⟨-, events, hevents, hran⟩ :=
    run_unattended ⟨[], none⟩ hread unattended_automaton ⟨[], default⟩
  have hcall : .ran (Cookiecutter.buildCommand skeleton.descriptor Settings.empty.jsonText
      "/site") ∈ events := by
    rw [List.nil_append] at hevents
    rw [← hevents, hbuild]
    exact List.mem_append_right _ (List.mem_singleton_self _)
  obtain ⟨plan, hplan, hcommand, -⟩ := hran _ hcall (by decide)
  exact ⟨hread, unattended_automaton, plan, hplan, hcommand⟩

end Scaffolding.CommandLine
