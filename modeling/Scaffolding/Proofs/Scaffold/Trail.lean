import Mathlib.Data.List.Forall2
import Scaffolding.Proofs.Scaffold.Course

/-!
# The trail of stages

Calls of one driver, one after the other, leave a trail that starts at the listing and goes on with
one segment for each call. A segment is empty or one of a few shapes, and the shape and the result of
the call tell the same: a project ends the segment as done, and the class of a failure says after
which stage it came.
-/

set_option autoImplicit false

namespace Scaffolding.Scaffold

/-! ## Segments -/

/-- The stages that one call adds to the trail. -/
inductive Segment : List Stage → Prop
  | untouched : Segment []
  | unprepared : Segment [.selected, .failed]
  | uncollected (hasSchema : Bool) :
      Segment [.selected, schemaStage hasSchema, .collecting, .failed]
  | refused (hasSchema : Bool) :
      Segment [.selected, schemaStage hasSchema, .collecting, .encoded, .failed]
  | unbuilt (hasSchema : Bool) :
      Segment [.selected, schemaStage hasSchema, .collecting, .encoded, .building, .failed]
  | built (hasSchema : Bool) :
      Segment [.selected, schemaStage hasSchema, .collecting, .encoded, .building, .done]

/-- The last thing that happens is a failure right after a stage. -/
def FailsAfter (stage : Stage) (segment : List Stage) : Prop :=
  [stage, .failed] <:+ segment

instance (stage : Stage) (segment : List Stage) : Decidable (FailsAfter stage segment) :=
  inferInstanceAs (Decidable ([stage, .failed] <:+ segment))

/-- A result that is a failure of one of these classes. -/
def Fails (kinds : List Failure.Kind) (result : Except Failure Project) : Prop :=
  ∃ f, result = .error f ∧ f.kind ∈ kinds

/-- A project is no failure of any kind. -/
@[simp] theorem not_fails_ok (kinds : List Failure.Kind) (project : Project) :
    ¬ Fails kinds (.ok project) := by
  simp [Fails]

/-- A failure is one of some kinds if its own kind is among them. -/
@[simp] theorem fails_error (kinds : List Failure.Kind) (f : Failure) :
    Fails kinds (.error f) ↔ f.kind ∈ kinds := by
  simp [Fails]

/-- A segment and a result tell the same about a call. -/
structure Tells (segment : List Stage) (result : Except Failure Project) : Prop where
  done_iff : segment.getLast? = some .done ↔ ∃ project, result = .ok project
  untouched_iff : segment = [] ↔ Fails [.invalidSelection] result
  unprepared_iff : FailsAfter .selected segment ↔
    Fails [.missingTool, .system, .authentication] result
  uncollected_iff : FailsAfter .collecting segment ∨ FailsAfter .encoded segment ↔
    Fails [.collection] result
  unbuilt_iff : FailsAfter .building segment ↔ Fails [.build] result

/-- For a failure it is enough to compare the segment with its class. -/
theorem Tells.error {segment : List Stage} {f : Failure} {kind : Failure.Kind} (hf : f.kind = kind)
    (h : segment.getLast? ≠ some .done ∧ (segment = [] ↔ kind = .invalidSelection) ∧
      (FailsAfter .selected segment ↔ kind ∈ [.missingTool, .system, .authentication]) ∧
      (FailsAfter .collecting segment ∨ FailsAfter .encoded segment ↔ kind = .collection) ∧
      (FailsAfter .building segment ↔ kind = .build)) : Tells segment (.error f) := by
  subst hf
  obtain ⟨hdone, huntouched, hprepared, hcollected, hbuilt⟩ := h
  exact ⟨by simpa using hdone, by simpa using huntouched, by simpa using hprepared,
    by simpa using hcollected, by simpa using hbuilt⟩

/-- A segment tells of a project if it ends when all is done and after no earlier stage. -/
theorem Tells.ok {segment : List Stage} (project : Project)
    (h : segment.getLast? = some .done ∧ segment ≠ [] ∧
      ∀ stage ∈ [Stage.selected, .collecting, .encoded, .building], ¬ FailsAfter stage segment) :
    Tells segment (.ok project) := by
  obtain ⟨hdone, hne, hnot⟩ := h
  simp only [List.forall_mem_cons] at hnot
  obtain ⟨hselected, hcollecting, hencoded, hbuilding, -⟩ := hnot
  exact ⟨by simp [hdone], by simp [hne], by simp [hselected], by simp [hcollecting, hencoded],
    by simp [hbuilding]⟩

/-! ## Calls -/

/-- One call of the driver: what is to be built, out of which source and in which world. -/
structure Call where
  source : Source
  choice : Choice
  world : World

/-- What a call came to: the progress before it, its result, and the progress after it. -/
structure Turn where
  before : Progress
  result : Except Failure Project
  after : Progress

/-- What calls of one driver came to: their turns, and how far the driver is after them. -/
structure Drive where
  turns : List Turn
  progress : Progress
  session : Session

/-- Calls one driver for a listing, one call after the other. -/
def drive (templates : List Template) : List Call → Progress → Session → Drive
  | [], p, s => ⟨[], p, s⟩
  | call :: calls, p, s =>
    let (result, p', s') := stepOutcome (run call.source templates call.choice) call.world p s
    let rest := drive templates calls p' s'
    { rest with turns := ⟨p, result, p'⟩ :: rest.turns }

/-- There is a turn for every call. -/
theorem length_turns (templates : List Template) (calls : List Call) (p : Progress) (s : Session) :
    (drive templates calls p s).turns.length = calls.length := by
  induction calls generalizing p s with
  | nil => rfl
  | cons call calls ih =>
    rw [drive, List.length_cons, ih]
    rfl

/-- A turn in which the driver keeps to the stages. -/
structure Disciplined (segment : List Stage) (turn : Turn) : Prop where
  shape : Segment segment
  trail : turn.after.trail = turn.before.trail ++ segment
  /-- The stage is the last one of the trail. -/
  stage : turn.after.trail.getLast? = some turn.after.stage
  /-- Without a segment, nothing of the progress is changed. -/
  unchanged : segment = [] → turn.after = turn.before
  tells : Tells segment turn.result
  /-- A project reports the trail as it is, and the stage that its schema made. -/
  report : ∀ project, turn.result = .ok project →
    project.trail = turn.after.trail ∧ schemaStage project.hasSchema ∈ segment

variable {source : Source} {t : Template} {choice : Choice} {world : World} {s s' : Session}
  {stages : List Stage} {result : Except Failure Bool}

/-- Every course has one of the shapes. -/
theorem Course.segment (h : Course source t choice world s stages result s') :
    Segment (segmentOf stages result) := by
  cases h with
  | unprepared => exact .unprepared
  | uncollected => exact .uncollected _
  | refused => exact .refused _
  | unbuilt => exact .unbuilt _
  | built => exact .built _

/-- On every course, the class of a failure says after which stage it came. -/
theorem Course.tells (h : Course source t choice world s stages result s') (trail : List Stage) :
    Tells (segmentOf stages result) (result.map (projectOf t choice trail)) := by
  cases h with
  | unprepared prepared =>
    have hkind := failsOnly_error.mp (outcome_prepare prepared).2
    simp only [List.mem_cons, List.not_mem_nil, or_false] at hkind
    change Tells [.selected, .failed] _
    rcases hkind with hkind | hkind | hkind
    all_goals exact .error hkind (by decide)
  | @uncollected schema _ _ _ prepared collected =>
    have hkind := failsOnly_error.mp (outcome_collect collected).2
    change Tells [.selected, schemaStage schema.isSome, .collecting, .failed] _
    refine .error (List.mem_singleton.mp hkind) ?_
    cases schema.isSome <;> decide
  | @refused schema _ _ _ _ _ prepared collected agreed =>
    have hkind := failsOnly_error.mp (outcome_consent agreed).2.2
    change Tells [.selected, schemaStage schema.isSome, .collecting, .encoded, .failed] _
    refine .error (List.mem_singleton.mp hkind) ?_
    cases schema.isSome <;> decide
  | @unbuilt schema _ _ _ _ _ _ prepared collected agreed built =>
    have hkind := failsOnly_error.mp (Builder.outcome_build built).2
    change Tells [.selected, schemaStage schema.isSome, .collecting, .encoded, .building, .failed] _
    refine .error (List.mem_singleton.mp hkind) ?_
    cases schema.isSome <;> decide
  | @built schema =>
    refine .ok _ ?_
    cases schema.isSome <;> decide

/-- The stage of the schema that a project reports was reached. -/
theorem Course.schemaStage_mem {hasSchema : Bool}
    (h : Course source t choice world s stages (.ok hasSchema) s') :
    schemaStage hasSchema ∈ segmentOf stages (.ok hasSchema) := by
  cases h with
  | built => simp [segmentOf]

/-- A run from a driver whose stage is the last one of its trail keeps to the stages. -/
theorem run_disciplined (source : Source) (templates : List Template) (choice : Choice)
    (world : World) {p : Progress} (hp : p.Sound) (s : Session) :
    ∃ segment, Disciplined segment
      ⟨p, (stepOutcome (run source templates choice) world p s).1,
        (stepOutcome (run source templates choice) world p s).2.1⟩ := by
  cases ht : templates[choice.index]? with
  | none =>
    have hkind : (Failure.invalidSelection choice.index templates.length).kind =
        .invalidSelection := rfl
    rw [run_invalid source ht]
    exact ⟨[], .untouched, by simp, hp, fun _ => rfl, .error hkind (by decide), by simp⟩
  | some t =>
    obtain ⟨stages, result, s', hcourse, hrun⟩ := run_course source ht world p s
    rw [hrun]
    have hshape := hcourse.segment
    have htrail := Progress.trail_advanceAll (segmentOf stages result) p
    refine ⟨segmentOf stages result, hshape, htrail, Progress.sound_advanceAll _ hp, ?_,
      hcourse.tells _, ?_⟩
    · intro h
      cases result <;> cases h
    · intro project hproject
      cases result with
      | error f => cases hproject
      | ok hasSchema =>
        cases hproject
        exact ⟨htrail.symm, hcourse.schemaStage_mem⟩

/-- From a driver whose stage is the last one of its trail, every call keeps to the stages, and the
segments of the calls are what the trail goes on with. -/
theorem drive_disciplined_from (templates : List Template) (calls : List Call) {p : Progress}
    (hp : p.Sound) (s : Session) :
    ∃ segments : List (List Stage),
      (drive templates calls p s).progress.trail = p.trail ++ segments.flatten ∧
        (drive templates calls p s).progress.Sound ∧
        List.Forall₂ Disciplined segments (drive templates calls p s).turns := by
  induction calls generalizing p s with
  | nil => exact ⟨[], by simp [drive], hp, .nil⟩
  | cons call calls ih =>
    obtain ⟨segment, hturn⟩ := run_disciplined call.source templates call.choice call.world hp s
    obtain ⟨segments, htrail, hsound, hturns⟩ := ih hturn.stage
      (stepOutcome (run call.source templates call.choice) call.world p s).2.2
    refine ⟨segment :: segments, ?_, hsound, .cons hturn hturns⟩
    calc (drive templates (call :: calls) p s).progress.trail
        = _ := htrail
      _ = (p.trail ++ segment) ++ segments.flatten := by rw [hturn.trail]
      _ = p.trail ++ (segment :: segments).flatten := by
        rw [List.flatten_cons, List.append_assoc]

/-- Calls of one driver leave a trail of the listing and one segment for each call, in the order of
the calls. Each call keeps to the stages, and the stage at the end is the last one of the trail. -/
theorem drive_disciplined (templates : List Template) (calls : List Call) (s : Session) :
    ∃ segments : List (List Stage),
      (drive templates calls .start s).progress.trail = .listing :: segments.flatten ∧
        (drive templates calls .start s).progress.trail.getLast? =
          some (drive templates calls .start s).progress.stage ∧
        List.Forall₂ Disciplined segments (drive templates calls .start s).turns ∧
        (drive templates calls .start s).turns.length = calls.length := by
  obtain ⟨segments, htrail, hsound, hturns⟩ :=
    drive_disciplined_from templates calls Progress.sound_start s
  exact ⟨segments, htrail, hsound, hturns, length_turns templates calls .start s⟩

end Scaffolding.Scaffold
