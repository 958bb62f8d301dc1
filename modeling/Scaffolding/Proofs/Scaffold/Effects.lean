import Scaffolding.Proofs.Scaffold.Course

/-!
# What a run does to the world

What a run does is told in order: the tool is looked for, the schema is requested, the fields are
asked for, the summary is shown, and then comes the work of the build. None of it happens before its
stage, and what is shown to the user and what is built are the same settings.
-/

set_option autoImplicit false

namespace Scaffolding.Scaffold

/-- What one run does to the world after looking for the tool. -/
structure Account where
  requests : List Remote.Request
  questions : List Question
  /-- The summaries that the user is asked to agree to. -/
  summaries : List (List (String × String))
  /-- What is done to build the project. -/
  work : List Event

/-- The events of a run with a template, in their order. -/
def Account.events (t : Template) (a : Account) : List Event :=
  t.builder.probes.map .ran ++ a.requests.map .sent ++ a.questions.map .asked ++
    a.summaries.map (.confirmed t.name) ++ a.work

/-- The settings are collected after everything was prepared in a session, which leaves another
one. -/
def Collects (source : Source) (t : Template) (world : World) (s : Session) (settings : Settings)
    (s' : Session) : Prop :=
  ∃ schema s₁, outcome (prepare source t) world s = (.ok schema, s₁) ∧
    outcome (schema.getD .empty).collect world s₁ = (.ok settings, s')

/-- A run from one session to another in which nothing happens before its stage. -/
structure Restrained (source : Source) (t : Template) (choice : Choice) (world : World)
    (segment : List Stage) (a : Account) (s s' : Session) : Prop where
  /-- The account is complete. -/
  events : s'.events = s.events ++ a.events t
  /-- There is no work without the stage of building, and the files are as the probe left them. -/
  idle : .building ∉ segment → a.work = [] ∧ s'.files = (s.probed world t.builder).files
  one_request : a.requests.length ≤ 1
  no_request : t.builder = .gitRepo ∨ (outcome t.builder.isAvailable world s).1 ≠ .ok true →
    a.requests = []
  no_question : .collecting ∉ segment → a.questions = []
  one_summary : a.summaries.length = if .encoded ∈ segment ∧ choice.agreed = false then 1 else 0
  /-- The settings that were collected are those in the summary. They are also those that are built,
  by the command of the builder and nothing else, if the user agreed to them. -/
  carried : .encoded ∈ segment → ∃ settings s₂, Collects source t world s settings s₂ ∧
    (∀ rows ∈ a.summaries, rows = settings.rows) ∧
    (.building ∈ segment →
      (choice.agreed = true ∨ world.confirm s₂.events t.name settings.rows = .ok true) ∧
      Builder.Work (t.builder.command t.descriptor settings choice.output) a.work ∧
      s' = (outcome (t.builder.build t.descriptor (t.builder.encode settings) choice.output) world
        (s₂.recordAll (a.summaries.map (.confirmed t.name)))).2)

variable {source : Source} {t : Template} {choice : Choice} {world : World} {s s' : Session}
  {stages : List Stage} {result : Except Failure Bool}

/-- Where the stage of building is reached, the build takes over what was collected and agreed to. -/
theorem restrained_of_building {schema : Option Schema} {settings : Settings}
    {r : Except Failure Unit} {segment : List Stage} {s₁ s₂ s₃ s₄ : Session}
    (prepared : outcome (prepare source t) world s = (.ok schema, s₁))
    (collected : outcome (schema.getD .empty).collect world s₁ = (.ok settings, s₂))
    (agreed : outcome (consent t choice settings) world s₂ = (.ok (), s₃))
    (built : outcome (t.builder.build t.descriptor (t.builder.encode settings) choice.output) world
      s₃ = (r, s₄))
    (hcollecting : .collecting ∈ segment) (hencoded : .encoded ∈ segment)
    (hbuilding : .building ∈ segment) :
    ∃ a, Restrained source t choice world segment a s s₄ := by
  obtain ⟨⟨requests, rfl, hone, hnone⟩, -⟩ := outcome_prepare prepared
  obtain ⟨⟨questions, -, rfl⟩, -⟩ := outcome_collect collected
  obtain ⟨rfl, hyes, -⟩ := outcome_consent agreed
  obtain ⟨⟨work, hwork, hown⟩, -⟩ := Builder.outcome_build built
  refine ⟨⟨requests, questions, summaries choice settings, work⟩, ?_, ?_, hone, hnone, ?_, ?_, ?_⟩
  · rw [hwork]
    simp [Account.events, Session.events_probed]
  · intro hnot
    exact absurd hbuilding hnot
  · intro hnot
    exact absurd hcollecting hnot
  · simp [length_summaries, hencoded]
  · intro _
    refine ⟨settings, _, ⟨schema, _, prepared, collected⟩,
      fun _ hrows => eq_rows_of_mem_summaries hrows, fun _ => ⟨hyes rfl, hown, ?_⟩⟩
    rw [built]

/-- Nothing happens before its stage on any course. -/
theorem Course.restrained (h : Course source t choice world s stages result s') :
    ∃ a, Restrained source t choice world (segmentOf stages result) a s s' := by
  cases h with
  | unprepared prepared =>
    obtain ⟨⟨requests, rfl, hone, hnone⟩, -⟩ := outcome_prepare prepared
    refine ⟨⟨requests, [], [], []⟩, ?_, fun _ => ⟨rfl, rfl⟩, hone, hnone, fun _ => rfl, ?_, ?_⟩
    · simp [Account.events, Session.events_probed]
    · simp [segmentOf]
    · simp [segmentOf]
  | uncollected prepared collected =>
    obtain ⟨⟨requests, rfl, hone, hnone⟩, -⟩ := outcome_prepare prepared
    obtain ⟨⟨questions, -, rfl⟩, -⟩ := outcome_collect collected
    refine ⟨⟨requests, questions, [], []⟩, ?_, fun _ => ⟨rfl, rfl⟩, hone, hnone, ?_, ?_, ?_⟩
    · simp [Account.events, Session.events_probed]
    · simp [segmentOf]
    · simp [segmentOf, ne_schemaStage]
    · simp [segmentOf, ne_schemaStage]
  | @refused schema settings _ _ _ _ prepared collected agreed =>
    obtain ⟨⟨requests, rfl, hone, hnone⟩, -⟩ := outcome_prepare prepared
    obtain ⟨⟨questions, -, rfl⟩, -⟩ := outcome_collect collected
    obtain ⟨rfl, -, -⟩ := outcome_consent agreed
    refine ⟨⟨requests, questions, summaries choice settings, []⟩, ?_, fun _ => ⟨rfl, rfl⟩, hone,
      hnone, ?_, ?_, ?_⟩
    · simp [Account.events, Session.events_probed]
    · simp [segmentOf]
    · simp [segmentOf, length_summaries]
    · intro _
      refine ⟨settings, _, ⟨schema, _, prepared, collected⟩,
        fun _ hrows => eq_rows_of_mem_summaries hrows, fun h => absurd h ?_⟩
      simp [segmentOf, ne_schemaStage]
  | unbuilt prepared collected agreed built =>
    apply restrained_of_building prepared collected agreed built <;> simp [segmentOf]
  | built prepared collected agreed built =>
    apply restrained_of_building prepared collected agreed built <;> simp [segmentOf]

/-- In every run, from whatever progress and in whatever world, nothing happens before its stage, and
what is shown to the user is what is built. A run without a template at the place does nothing. -/
theorem run_restrained (source : Source) (templates : List Template) (choice : Choice)
    (world : World) (p : Progress) (s : Session) :
    match templates[choice.index]? with
    | none => (stepOutcome (run source templates choice) world p s).2 = (p, s)
    | some t => ∃ segment a,
        (stepOutcome (run source templates choice) world p s).2.1.trail = p.trail ++ segment ∧
          Restrained source t choice world segment a s
            (stepOutcome (run source templates choice) world p s).2.2 := by
  split
  · next ht => rw [run_invalid source ht]
  · next t ht =>
    obtain ⟨stages, result, s', hcourse, hrun⟩ := run_course source ht world p s
    obtain ⟨a, ha⟩ := hcourse.restrained
    rw [hrun]
    exact ⟨segmentOf stages result, a, Progress.trail_advanceAll _ p, ha⟩

end Scaffolding.Scaffold
