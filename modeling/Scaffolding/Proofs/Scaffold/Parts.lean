import Scaffolding.Proofs.Remote.Fetch
import Scaffolding.Proofs.Schema.Filling
import Scaffolding.Scaffold.Run

/-!
# The parts of a run

What each part of a run does to the session and how it can fail. Looking for a tool runs its version
query or nothing, having a schema sends one request or none, collecting asks questions, agreeing
shows one summary, and building changes files and runs one command of its own. The class of a failure
tells the part it comes from.
-/

set_option autoImplicit false

namespace Scaffolding

variable {world : World} {s s' : Session}

/-! ## Looking for the tool -/

def Builder.probes (b : Builder) : List Tool.Command :=
  if b = .nix then [Tool.versionQuery b.tool] else []

/-- The session after a builder looked for its tool. -/
def Session.probed (world : World) (b : Builder) (s : Session) : Session :=
  if b = .nix then
    ⟨s.events ++ [.ran (Tool.versionQuery b.tool)],
      (world.run s.events s.files (Tool.versionQuery b.tool)).2⟩
  else s

/-- Looking for a tool is noted as its commands. -/
theorem Session.events_probed (b : Builder) :
    (s.probed world b).events = s.events ++ b.probes.map .ran := by
  unfold Session.probed Builder.probes
  split <;> simp

/-- Looking for a tool only probes for it; it fails when the probe cannot be run. -/
theorem outcome_isAvailable {b : Builder} {r : Except Failure Bool}
    (h : outcome b.isAvailable world s = (r, s')) :
    s' = s.probed world b ∧ FailsOnly [.system] r := by
  cases b with
  | nix =>
    rw [Builder.isAvailable, outcome_run_bind] at h
    split at h
    · cases h
      exact ⟨rfl, by simp⟩
    · cases h
      exact ⟨rfl, by simp [Failure.kind]⟩
  | cookiecutter =>
    cases h
    exact ⟨rfl, by simp⟩
  | gitRepo =>
    cases h
    exact ⟨rfl, by simp⟩

namespace Scaffold

variable {source : Source} {t : Template}

/-- Requiring a tool only probes for it; it fails when the tool or the probe is not there. -/
theorem outcome_requireTool {r : Except Failure Unit}
    (h : outcome (requireTool t) world s = (r, s')) :
    s' = s.probed world t.builder ∧
      (r = .ok () → (outcome t.builder.isAvailable world s).1 = .ok true) ∧
      FailsOnly [.missingTool, .system] r := by
  rcases outcome_bind_cases h with ⟨f, ha, rfl⟩ | ⟨available, s₁, ha, hnext⟩
  · obtain ⟨hs, hkind⟩ := outcome_isAvailable ha
    rw [failsOnly_error, List.mem_singleton] at hkind
    exact ⟨hs, by simp, by simp [hkind]⟩
  · obtain ⟨rfl, -⟩ := outcome_isAvailable ha
    cases available with
    | true =>
      cases hnext
      exact ⟨rfl, fun _ => by rw [ha], by simp⟩
    | false =>
      cases hnext
      exact ⟨rfl, by simp, by simp [Failure.kind]⟩

/-! ## Having the schema -/

/-- Fetching a schema sends one request at most. -/
theorem outcome_remoteSchema {r : Except Failure Schema}
    (h : outcome (remoteSchema source t) world s = (r, s')) :
    s' = s ∨ ∃ request, s' = s.record (.sent request) := by
  rcases outcome_bind_cases h with ⟨f, hfetch, -⟩ | ⟨text, s₁, hfetch, hread⟩
  · exact Remote.outcome_fetch hfetch
  · have hs : s' = s₁ := by
      split at hread <;> cases hread <;> rfl
    rw [hs]
    exact Remote.outcome_fetch hfetch

/-- Having the schema of a template sends one request at most, and none for a template without
settings. -/
theorem outcome_schemaOf {r : Except Failure (Option Schema)}
    (h : outcome (schemaOf source t) world s = (r, s')) :
    s' = s ∨ t.builder ≠ .gitRepo ∧ ∃ request, s' = s.record (.sent request) := by
  unfold schemaOf at h
  split at h
  · next htakes =>
    have hb : t.builder ≠ .gitRepo := by
      intro hb
      rw [hb] at htakes
      cases htakes
    rcases outcome_bind_cases h with ⟨f, hschema, -⟩ | ⟨schema, s₁, hschema, hnext⟩
    · exact (outcome_remoteSchema hschema).imp_right (And.intro hb)
    · cases hnext
      exact (outcome_remoteSchema hschema).imp_right (And.intro hb)
  · cases h
    exact .inl rfl

/-- Having a schema or going without one sends one request, or none, and none for a plain repository;
only a failure about the credential gets through. -/
theorem outcome_schemaOrNone {r : Except Failure (Option Schema)}
    (h : outcome (schemaOrNone source t) world s = (r, s')) :
    (s' = s ∨ t.builder ≠ .gitRepo ∧ ∃ request, s' = s.record (.sent request)) ∧
      FailsOnly [.authentication] r := by
  rw [schemaOrNone, outcome_tryCatch] at h
  rcases hschema : outcome (schemaOf source t) world s with ⟨f | schema, s₁⟩
  · rw [hschema] at h
    have hs := outcome_schemaOf hschema
    cases f with
    | authentication =>
      cases h
      exact ⟨hs, by simp [Failure.kind]⟩
    | _ =>
      cases h
      exact ⟨hs, by simp⟩
  · rw [hschema] at h
    cases h
    exact ⟨outcome_schemaOf hschema, by simp⟩

/-! ## Collecting the settings -/

/-- Collecting asks the questions of the fields in their order, as far as they are answered. -/
theorem outcome_collect {schema : Schema} {r : Except Failure Settings}
    (h : outcome schema.collect world s = (r, s')) :
    (∃ questions : List Question, questions <+: schema.fields.map (·.question) ∧
        s' = s.recordAll (questions.map .asked)) ∧
      FailsOnly [.collection] r := by
  rcases Schema.outcome_collect_cases h with ⟨⟨settings, rfl⟩, rfl⟩ |
    ⟨before, field, rest, e, hfields, -, rfl, -, rfl⟩
  · refine ⟨⟨_, List.prefix_rfl, ?_⟩, by simp⟩
    rw [List.map_map]
    rfl
  · refine ⟨⟨(before ++ [field]).map (·.question), ?_, ?_⟩, by simp [Schema.kind_failureOf]⟩
    · rw [hfields, List.append_cons before field rest]
      exact (List.prefix_append _ _).map _
    · rw [List.map_map]
      rfl

/-! ## Agreeing -/

/-- Asking for consent confirms the rows of the settings once. -/
theorem outcome_agree {settings : Settings} {r : Except Failure Unit}
    (h : outcome (agree t settings) world s = (r, s')) :
    s' = s.record (.confirmed t.name settings.rows) ∧
      (r = .ok () → world.confirm s.events t.name settings.rows = .ok true) ∧
      FailsOnly [.collection] r := by
  unfold agree at h
  rw [outcome_confirm_bind] at h
  split at h
  · next hanswer =>
    cases h
    exact ⟨rfl, fun _ => hanswer, by simp⟩
  all_goals
    cases h
    exact ⟨rfl, by simp, by simp [Failure.kind, Failure.cancelled]⟩

end Scaffold

/-! ## Building -/

namespace Builder

/-- The command by which a builder builds a template with settings. -/
def command (d : Template.Descriptor) (settings : Settings) (output : String) :
    Builder → Tool.Command
  | nix => Nix.buildCommand d (Nix.attrSet settings.members)
  | cookiecutter => Cookiecutter.buildCommand d settings.jsonText output
  | gitRepo => GitRepo.buildCommand d output

/-- Work by a command: nothing but changes of files, and the command at most once. -/
structure Work (call : Tool.Command) (work : List Event) : Prop where
  effects : ∀ e ∈ work, e = .ran call ∨ ∃ deed, e = .changed deed
  once : work.count (.ran call) ≤ 1

/-- Running a build runs one command. -/
theorem outcome_runBuild {template engine : String} {diagnostic : Tool.Outcome → String}
    {call : Tool.Command} {r : Except Failure String}
    (h : outcome (runBuild template engine diagnostic call) world s = (r, s')) :
    s'.events = s.events ++ [.ran call] ∧ FailsOnly [.build] r := by
  unfold runBuild at h
  rw [outcome_run_bind] at h
  split at h
  · cases h
    exact ⟨rfl, by simp [Failure.kind]⟩
  · split at h
    · cases h
      exact ⟨rfl, by simp⟩
    · cases h
      exact ⟨rfl, by simp [Failure.kind]⟩

/-- Changing files is noted as one change. -/
theorem outcome_changeFor {template what : String} {deed : Deed} {r : Except Failure Unit}
    (h : outcome (changeFor template what deed) world s = (r, s')) :
    s'.events = s.events ++ [.changed deed] ∧ FailsOnly [.build] r := by
  unfold changeFor at h
  rw [outcome_change_bind] at h
  split at h
  · cases h
    exact ⟨rfl, by simp⟩
  · cases h
    exact ⟨rfl, by simp [Failure.kind]⟩

/-- Building with Nix runs one command, and one change may follow it. -/
theorem outcome_buildNix {d : Template.Descriptor} {attrs output : String}
    {r : Except Failure Unit} (h : outcome (buildNix d attrs output) world s = (r, s')) :
    (∃ work, s'.events = s.events ++ work ∧ Work (Nix.buildCommand d attrs) work) ∧
      FailsOnly [.build] r := by
  rcases outcome_bind_cases h with ⟨f, hrun, rfl⟩ | ⟨stdout, s₁, hrun, hcopy⟩
  · obtain ⟨hevents, hkind⟩ := outcome_runBuild hrun
    exact ⟨⟨_, hevents, ⟨by simp, by simp⟩⟩, by simpa using hkind⟩
  · obtain ⟨hevents, -⟩ := outcome_runBuild hrun
    split at hcopy
    · cases hcopy
      exact ⟨⟨_, hevents, ⟨by simp, by simp⟩⟩, by simp [Failure.kind]⟩
    · obtain ⟨hchange, hkind⟩ := outcome_changeFor hcopy
      rw [hevents, List.append_assoc] at hchange
      exact ⟨⟨_, hchange, ⟨by simp, by simp⟩⟩, hkind⟩

/-- Building from a cookiecutter template runs one command. -/
theorem outcome_buildCookiecutter {d : Template.Descriptor} {context output : String}
    {r : Except Failure Unit} (h : outcome (buildCookiecutter d context output) world s = (r, s')) :
    (∃ work, s'.events = s.events ++ work ∧
        Work (Cookiecutter.buildCommand d context output) work) ∧
      FailsOnly [.build] r := by
  rcases outcome_bind_cases h with ⟨f, hrun, rfl⟩ | ⟨stdout, s₁, hrun, hdone⟩
  · obtain ⟨hevents, hkind⟩ := outcome_runBuild hrun
    exact ⟨⟨_, hevents, ⟨by simp, by simp⟩⟩, by simpa using hkind⟩
  · cases hdone
    obtain ⟨hevents, -⟩ := outcome_runBuild hrun
    exact ⟨⟨_, hevents, ⟨by simp, by simp⟩⟩, by simp⟩

/-- Cloning runs one command. -/
theorem outcome_buildGitRepo {d : Template.Descriptor} {output : String}
    {r : Except Failure Unit} (h : outcome (buildGitRepo d output) world s = (r, s')) :
    (∃ work, s'.events = s.events ++ work ∧ Work (GitRepo.buildCommand d output) work) ∧
      FailsOnly [.build] r := by
  rcases outcome_bind_cases h with ⟨f, hmake, rfl⟩ | ⟨_, s₁, hmake, hclone⟩
  · obtain ⟨hevents, hkind⟩ := outcome_changeFor hmake
    exact ⟨⟨_, hevents, ⟨by simp, by simp⟩⟩, by simpa using hkind⟩
  · obtain ⟨hevents, -⟩ := outcome_changeFor hmake
    rcases outcome_bind_cases hclone with ⟨f, hrun, rfl⟩ | ⟨stdout, s₂, hrun, hdone⟩
    · obtain ⟨hran, hkind⟩ := outcome_runBuild hrun
      rw [hevents, List.append_assoc] at hran
      exact ⟨⟨_, hran, ⟨by simp, by simp⟩⟩, by simpa using hkind⟩
    · cases hdone
      obtain ⟨hran, -⟩ := outcome_runBuild hrun
      rw [hevents, List.append_assoc] at hran
      exact ⟨⟨_, hran, ⟨by simp, by simp⟩⟩, by simp⟩

/-- A builder that is given its own form of settings works by its own command. -/
theorem outcome_build {b : Builder} {d : Template.Descriptor} {settings : Settings}
    {output : String} {r : Except Failure Unit}
    (h : outcome (b.build d (b.encode settings) output) world s = (r, s')) :
    (∃ work, s'.events = s.events ++ work ∧ Work (b.command d settings output) work) ∧
      FailsOnly [.build] r := by
  cases b with
  | nix => exact outcome_buildNix h
  | cookiecutter => exact outcome_buildCookiecutter h
  | gitRepo => exact outcome_buildGitRepo h

end Builder

end Scaffolding
