import Scaffolding.Proofs.Scaffold.Parts

/-!
# The course of a run

A run of scaffolding takes one of a few courses: it is built, or it ends at one of the four attempts
on the way, which are to prepare, to collect, to have the consent and to build. A course says which
stages are reached and ties each attempt to the session that the one before has left, so that what is
true of the attempts can be told of the run.
-/

set_option autoImplicit false

namespace Scaffolding

/-- The stages of a list are reached, one after the other. -/
def Progress.advanceAll (stages : List Stage) (p : Progress) : Progress :=
  stages.foldl (fun p stage => p.advance stage) p

/-- Stages are added to the trail in the order in which they are reached. -/
theorem Progress.trail_advanceAll (stages : List Stage) (p : Progress) :
    (p.advanceAll stages).trail = p.trail ++ stages := by
  unfold Progress.advanceAll
  induction stages generalizing p with
  | nil => simp
  | cons stage stages ih =>
    rw [List.foldl_cons, ih]
    simp [Progress.advance]

/-- The stage is the last one of the trail. -/
def Progress.Sound (p : Progress) : Prop :=
  p.trail.getLast? = some p.stage

/-- At the start the trail and the stage agree. -/
theorem Progress.sound_start : Progress.start.Sound :=
  rfl

/-- They agree as well after any stages. -/
theorem Progress.sound_advanceAll (stages : List Stage) {p : Progress} (h : p.Sound) :
    (p.advanceAll stages).Sound := by
  unfold Progress.advanceAll
  induction stages generalizing p with
  | nil => exact h
  | cons stage stages ih =>
    apply ih
    simp [Progress.Sound, Progress.advance]

namespace Scaffold

variable {α β : Type} {world : World} {p : Progress} {s : Session}

/-! ## Steps -/

/-- What comes of a step in a world: its result, how far the scaffolding is, and the session. -/
def stepOutcome (step : Step α) (world : World) (p : Progress) (s : Session) :
    Except Failure α × Progress × Session :=
  let ((r, p), s) := ((step.run.run p).run world).run s
  (r, p, s)

/-- An attempt leaves the progress alone, and its failure ends the row of steps. -/
theorem stepOutcome_attempt_bind (action : Attempt α) (next : α → Step β) :
    stepOutcome (attempt action >>= next) world p s =
      match outcome action world s with
      | (.ok x, s) => stepOutcome (next x) world p s
      | (.error f, s) => (.error f, p, s) := by
  have hrun : stepOutcome (attempt action >>= next) world p s =
      match outcome action world s with
      | (r, s) => stepOutcome (ExceptT.mk (ExceptT.bindCont next r)) world p s := rfl
  rw [hrun]
  rcases outcome action world s with ⟨f | x, s₁⟩ <;> rfl

/-- Two attempts one after the other are one attempt of both. -/
theorem stepOutcome_attempt_attempt {γ : Type} (first : Attempt α) (second : α → Attempt β)
    (next : β → Step γ) :
    stepOutcome (attempt first >>= fun x => attempt (second x) >>= next) world p s =
      stepOutcome (attempt (first >>= second) >>= next) world p s := by
  rw [stepOutcome_attempt_bind, stepOutcome_attempt_bind, outcome_bind]
  rcases outcome first world s with ⟨f | x, s₁⟩
  · rfl
  · exact stepOutcome_attempt_bind (second x) next

/-- A stage that is reached is added to the progress. -/
theorem stepOutcome_reach_bind (stage : Stage) (next : Unit → Step β) :
    stepOutcome (reach stage >>= next) world p s =
      stepOutcome (next ()) world (p.advance stage) s :=
  rfl

/-- A failure is handled in the state in which it left the session. -/
theorem stepOutcome_tryCatch (step : Step α) (handler : Failure → Step α) :
    stepOutcome (tryCatch step handler) world p s =
      match stepOutcome step world p s with
      | (.ok x, p, s) => (.ok x, p, s)
      | (.error f, p, s) => stepOutcome (handler f) world p s := by
  unfold stepOutcome
  rw [ExceptT.run_tryCatch]
  simp only [StateT.run_bind, ReaderT.run_bind]
  rcases ((step.run.run p).run world).run s with ⟨⟨f | x, q⟩, s₁⟩ <;> rfl

/-! ## The four attempts -/

/-- Gets everything ready for collecting: the tool is there, and the schema as far as it can be
had. -/
def prepare (source : Source) (t : Template) : Attempt (Option Schema) := do
  requireTool t
  schemaOrNone source t

/-- Preparing probes for the tool and then sends one request, or none; none is sent for a plain
repository, and none when the tool is not there. -/
theorem outcome_prepare {source : Source} {t : Template} {s' : Session}
    {r : Except Failure (Option Schema)} (h : outcome (prepare source t) world s = (r, s')) :
    (∃ requests : List Remote.Request,
        s' = (s.probed world t.builder).recordAll (requests.map .sent) ∧ requests.length ≤ 1 ∧
          (t.builder = .gitRepo ∨ (outcome t.builder.isAvailable world s).1 ≠ .ok true →
            requests = [])) ∧
      FailsOnly [.missingTool, .system, .authentication] r := by
  rcases outcome_bind_cases h with ⟨f, htool, rfl⟩ | ⟨⟨⟩, s₁, htool, hschema⟩
  · obtain ⟨rfl, -, hkind⟩ := outcome_requireTool htool
    have hmore : ([.missingTool, .system] : List Failure.Kind) ⊆
        [.missingTool, .system, .authentication] := by simp
    exact ⟨⟨[], by simp⟩, failsOnly_error.mpr (hmore (failsOnly_error.mp hkind))⟩
  · obtain ⟨rfl, hthere, -⟩ := outcome_requireTool htool
    obtain ⟨hs, hkind⟩ := outcome_schemaOrNone hschema
    refine ⟨?_, hkind.mono (by simp)⟩
    rcases hs with rfl | ⟨hb, request, rfl⟩
    · exact ⟨[], by simp⟩
    · refine ⟨[request], rfl, by simp, ?_⟩
      rintro (hclone | hnot)
      · exact absurd hclone hb
      · exact absurd (hthere rfl) hnot

/-- The consent to a build is given beforehand, or asked for with the summary of the settings. -/
def consent (t : Template) (choice : Choice) (settings : Settings) : Attempt Unit :=
  if choice.agreed then return else agree t settings

/-- The summaries that are shown to have the consent. -/
def summaries (choice : Choice) (settings : Settings) : List (List (String × String)) :=
  if choice.agreed then [] else [settings.rows]

/-- The rows are shown once, unless the user agreed before. -/
theorem length_summaries (choice : Choice) (settings : Settings) :
    (summaries choice settings).length = if choice.agreed = false then 1 else 0 := by
  unfold summaries
  cases choice.agreed <;> rfl

/-- The rows that are shown are those of the settings. -/
theorem eq_rows_of_mem_summaries {choice : Choice} {settings : Settings}
    {rows : List (String × String)} (h : rows ∈ summaries choice settings) :
    rows = settings.rows := by
  unfold summaries at h
  split at h
  · simp at h
  · exact List.mem_singleton.mp h

/-- Consenting beforehand does nothing; otherwise the summary of the settings is shown, once. -/
theorem outcome_consent {t : Template} {choice : Choice} {settings : Settings} {s' : Session}
    {r : Except Failure Unit} (h : outcome (consent t choice settings) world s = (r, s')) :
    s' = s.recordAll ((summaries choice settings).map (.confirmed t.name)) ∧
      (r = .ok () →
        choice.agreed = true ∨ world.confirm s.events t.name settings.rows = .ok true) ∧
      FailsOnly [.collection] r := by
  unfold consent at h
  unfold summaries
  cases hagreed : choice.agreed with
  | true =>
    rw [hagreed] at h
    cases h
    exact ⟨by simp, fun _ => .inl rfl, by simp⟩
  | false =>
    rw [hagreed] at h
    obtain ⟨rfl, hyes, hkind⟩ := outcome_agree h
    exact ⟨rfl, fun hr => .inr (hyes hr), hkind⟩

/-- The stage after the schema of a template was had or not. -/
def schemaStage (hasSchema : Bool) : Stage :=
  if hasSchema then .schemaLoaded else .noSchema

/-- The stage for the schema is none of the others. -/
theorem ne_schemaStage {stage : Stage} (hloaded : stage ≠ .schemaLoaded)
    (hnone : stage ≠ .noSchema) (hasSchema : Bool) : stage ≠ schemaStage hasSchema := by
  cases hasSchema
  · exact hnone
  · exact hloaded

/-- What was built when the trail is this one. -/
def projectOf (t : Template) (choice : Choice) (trail : List Stage) (hasSchema : Bool) : Project :=
  ⟨t.name, choice.output, trail, hasSchema⟩

variable {source : Source} {t : Template} {choice : Choice}

/-- A template is scaffolded in four attempts, with the stages between them. -/
theorem stepOutcome_scaffold (source : Source) (t : Template) (choice : Choice) :
    stepOutcome (scaffold source t choice) world p s =
      stepOutcome (do
        let schema ← attempt (prepare source t)
        reach (schemaStage schema.isSome)
        reach .collecting
        let settings ← attempt (schema.getD .empty).collect
        reach .encoded
        attempt (consent t choice settings)
        reach .building
        attempt (t.builder.build t.descriptor (t.builder.encode settings) choice.output)
        reach .done
        return projectOf t choice (← get).trail schema.isSome) world p s := by
  unfold prepare
  rw [← stepOutcome_attempt_attempt]
  unfold scaffold consent
  cases choice.agreed <;> rfl

/-! ## Courses -/

/-- The courses of scaffolding a template: the stages that are reached, whether it comes to a project
with or without a schema or to a failure, and the session that is left. -/
inductive Course (source : Source) (t : Template) (choice : Choice) (world : World) (s : Session) :
    List Stage → Except Failure Bool → Session → Prop
  | unprepared {f : Failure} {s₁ : Session}
      (prepared : outcome (prepare source t) world s = (.error f, s₁)) :
      Course source t choice world s [] (.error f) s₁
  | uncollected {schema : Option Schema} {f : Failure} {s₁ s₂ : Session}
      (prepared : outcome (prepare source t) world s = (.ok schema, s₁))
      (collected : outcome (schema.getD .empty).collect world s₁ = (.error f, s₂)) :
      Course source t choice world s [schemaStage schema.isSome, .collecting] (.error f) s₂
  | refused {schema : Option Schema} {settings : Settings} {f : Failure} {s₁ s₂ s₃ : Session}
      (prepared : outcome (prepare source t) world s = (.ok schema, s₁))
      (collected : outcome (schema.getD .empty).collect world s₁ = (.ok settings, s₂))
      (agreed : outcome (consent t choice settings) world s₂ = (.error f, s₃)) :
      Course source t choice world s [schemaStage schema.isSome, .collecting, .encoded]
        (.error f) s₃
  | unbuilt {schema : Option Schema} {settings : Settings} {f : Failure} {s₁ s₂ s₃ s₄ : Session}
      (prepared : outcome (prepare source t) world s = (.ok schema, s₁))
      (collected : outcome (schema.getD .empty).collect world s₁ = (.ok settings, s₂))
      (agreed : outcome (consent t choice settings) world s₂ = (.ok (), s₃))
      (built : outcome
        (t.builder.build t.descriptor (t.builder.encode settings) choice.output) world s₃ =
          (.error f, s₄)) :
      Course source t choice world s [schemaStage schema.isSome, .collecting, .encoded, .building]
        (.error f) s₄
  | built {schema : Option Schema} {settings : Settings} {s₁ s₂ s₃ s₄ : Session}
      (prepared : outcome (prepare source t) world s = (.ok schema, s₁))
      (collected : outcome (schema.getD .empty).collect world s₁ = (.ok settings, s₂))
      (agreed : outcome (consent t choice settings) world s₂ = (.ok (), s₃))
      (built : outcome
        (t.builder.build t.descriptor (t.builder.encode settings) choice.output) world s₃ =
          (.ok (), s₄)) :
      Course source t choice world s
        [schemaStage schema.isSome, .collecting, .encoded, .building, .done] (.ok schema.isSome) s₄

/-- Every run of a template follows a course, and its stages, its result and its session are those
of the course. -/
theorem scaffold_course (source : Source) (t : Template) (choice : Choice) (world : World)
    (p : Progress) (s : Session) :
    ∃ stages result s', Course source t choice world s stages result s' ∧
      stepOutcome (scaffold source t choice) world p s =
        (result.map (projectOf t choice (p.trail ++ stages)), p.advanceAll stages, s') := by
  rw [stepOutcome_scaffold, stepOutcome_attempt_bind]
  rcases prepared : outcome (prepare source t) world s with ⟨f | schema, s₁⟩
  · exact ⟨_, _, _, .unprepared prepared, rfl⟩
  dsimp only
  rw [stepOutcome_reach_bind, stepOutcome_reach_bind, stepOutcome_attempt_bind]
  rcases collected : outcome (schema.getD .empty).collect world s₁ with ⟨f | settings, s₂⟩
  · exact ⟨_, _, _, .uncollected prepared collected, rfl⟩
  dsimp only
  rw [stepOutcome_reach_bind, stepOutcome_attempt_bind]
  rcases agreed : outcome (consent t choice settings) world s₂ with ⟨f | ⟨⟩, s₃⟩
  · exact ⟨_, _, _, .refused prepared collected agreed, rfl⟩
  dsimp only
  rw [stepOutcome_reach_bind, stepOutcome_attempt_bind]
  rcases built : outcome (t.builder.build t.descriptor (t.builder.encode settings) choice.output)
    world s₃ with ⟨f | ⟨⟩, s₄⟩
  · exact ⟨_, _, _, .unbuilt prepared collected agreed built, rfl⟩
  · refine ⟨_, _, _, .built prepared collected agreed built, ?_⟩
    rw [← Progress.trail_advanceAll]
    rfl

/-- The stages of a run, from those after the choice of the template: a failure is the last one. -/
def segmentOf (stages : List Stage) : Except Failure Bool → List Stage
  | .ok _ => .selected :: stages
  | .error _ => .selected :: (stages ++ [.failed])

/-- A run with a template at the place takes one of the courses. -/
theorem run_course (source : Source) {templates : List Template} {choice : Choice} {t : Template}
    (ht : templates[choice.index]? = some t) (world : World) (p : Progress) (s : Session) :
    ∃ stages result s', Course source t choice world s stages result s' ∧
      stepOutcome (run source templates choice) world p s =
        (result.map (projectOf t choice (p.trail ++ segmentOf stages result)),
          p.advanceAll (segmentOf stages result), s') := by
  obtain ⟨stages, result, s', hcourse, hscaffold⟩ :=
    scaffold_course source t choice world (p.advance .selected) s
  refine ⟨stages, result, s', hcourse, ?_⟩
  have hselect : select templates choice.index = .ok t := by
    simp [select, ht]
  unfold run
  rw [hselect]
  dsimp only
  rw [stepOutcome_reach_bind, stepOutcome_tryCatch, hscaffold]
  cases result with
  | ok hasSchema =>
    simp only [Except.map, segmentOf, Progress.advance, List.append_assoc, List.singleton_append]
    rfl
  | error f =>
    simp only [Except.map, segmentOf, Progress.advanceAll, List.foldl_cons, List.foldl_append]
    rfl

/-- A run without a template at the place does nothing. -/
theorem run_invalid (source : Source) {templates : List Template} {choice : Choice}
    (ht : templates[choice.index]? = none) (world : World) (p : Progress) (s : Session) :
    stepOutcome (run source templates choice) world p s =
      (.error (.invalidSelection choice.index templates.length), p, s) := by
  have hselect : select templates choice.index =
      .error (.invalidSelection choice.index templates.length) := by
    simp [select, ht]
  unfold run
  rw [hselect]
  rfl

end Scaffold

end Scaffolding
