import Scaffolding.Proofs.Scaffold.Unattended
import Scaffolding.Proofs.Session.Answered

/-!
# Cancelled runs

A prompt that cancels is the last thing that happens in a run, wherever it comes: the run fails,
nothing is built, and nobody is prompted again. An interrupted question, at whichever field, and a
declined request to go on come to one and the same failure. An interrupted request to go on does not,
as its failure repeats the text of the error.
-/

set_option autoImplicit false

namespace Scaffolding.Scaffold

open Session (Answered Spared)

variable {source : Source} {t : Template} {choice : Choice} {world : World} {s s' : Session}

/-! ## Where nothing cancels -/

/-- What is asked while a schema is prepared was answered. -/
theorem answered_prepare {r : Except Failure (Option Schema)}
    (h : outcome (prepare source t) world s = (r, s')) : Answered world s s' := by
  obtain ⟨⟨requests, rfl, -⟩, -⟩ := outcome_prepare h
  refine ⟨t.builder.probes.map .ran ++ requests.map .sent, ?_, uncancelled_of_silent ?_⟩
  · simp [Session.events_probed]
  · intro e he start f hcancels
    rcases List.mem_append.mp he with he | he
    all_goals
      obtain ⟨x, -, rfl⟩ := List.mem_map.mp he
      cases hcancels

/-- What is asked while a template is built was answered. -/
theorem answered_build {settings : Settings} {output : String} {r : Except Failure Unit}
    (h : outcome (t.builder.build t.descriptor (t.builder.encode settings) output) world s =
      (r, s')) : Answered world s s' := by
  obtain ⟨⟨work, hwork, hown⟩, -⟩ := Builder.outcome_build h
  refine ⟨work, hwork, uncancelled_of_silent ?_⟩
  intro e he start f hcancels
  rcases hown.effects e he with rfl | ⟨deed, rfl⟩ <;> cases hcancels

/-- The questions of fields that were filled in were all answered. -/
theorem answered_of_filled {fields : List Schema.Field}
    (h : (Schema.fillings world s.events fields).map Prod.fst = fields) :
    Answered world s (s.recordAll (fields.map fun f => .asked f.question)) := by
  induction fields generalizing s with
  | nil => simpa using Answered.refl
  | cons f rest ih =>
    cases hask : world.ask s.events f.question with
    | error e =>
      rw [Schema.fillings_cons_error hask] at h
      cases h
    | ok answer =>
      rw [Schema.fillings_cons_ok hask, List.map_cons] at h
      have hfirst : Answered world s (s.record (.asked f.question)) := by
        refine .record fun g hcancels => ?_
        cases hcancels with
        | question hfails =>
          rw [hask] at hfails
          cases hfails
      rw [List.map_cons, ← Session.recordAll_record]
      exact hfirst.trans (ih (List.cons_eq_cons.mp h).2)

/-- Settings that were collected come from questions that were all answered. -/
theorem answered_collect {schema : Schema} {settings : Settings}
    (h : outcome schema.collect world s = (.ok settings, s')) : Answered world s s' := by
  have hok : (outcome schema.collect world s).1 = .ok settings := by rw [h]
  obtain ⟨hfilled, -⟩ := (Schema.outcome_collect_eq_ok_iff schema settings).mp hok
  rcases Schema.outcome_collect_cases h with ⟨-, rfl⟩ | ⟨_, _, _, _, -, -, -, -, hr⟩
  · exact answered_of_filled hfilled
  · cases hr

/-- A user who agreed was asked and answered. -/
theorem answered_consent {settings : Settings}
    (h : outcome (consent t choice settings) world s = (.ok (), s')) : Answered world s s' := by
  obtain ⟨rfl, hyes, -⟩ := outcome_consent h
  unfold summaries
  split
  · simpa using Answered.refl
  · next hagreed =>
    have hanswer := (hyes rfl).resolve_left hagreed
    refine .record fun f hcancels => ?_
    cases hcancels with
    | confirmation hfails =>
      rw [hanswer] at hfails
      cases hfails
    | declined hno =>
      rw [hanswer] at hno
      cases hno

/-- Where a build is begun, every prompt was answered. -/
theorem answered_until_build {schema : Option Schema} {settings : Settings} {s₁ s₂ s₃ : Session}
    (prepared : outcome (prepare source t) world s = (.ok schema, s₁))
    (collected : outcome (schema.getD .empty).collect world s₁ = (.ok settings, s₂))
    (agreed : outcome (consent t choice settings) world s₂ = (.ok (), s₃)) :
    Answered world s s₃ :=
  (answered_prepare prepared).trans
    ((answered_collect collected).trans (answered_consent agreed))

/-! ## Where the last prompt fails -/

/-- Collecting fails at the last question, and if this one cancels, with its failure. -/
theorem collect_stopped {schema : Schema} {f : Failure}
    (h : outcome schema.collect world s = (.error f, s')) :
    ∃ s₁ last, Answered world s s₁ ∧ s'.events = s₁.events ++ [last] ∧
      ∀ g, Cancels world s₁.events last g → f = g := by
  rcases Schema.outcome_collect_cases h with ⟨⟨_, hr⟩, -⟩ |
    ⟨before, field, rest, e, -, hfilled, rfl, hfails, hr⟩
  · cases hr
  · refine ⟨_, .asked field.question, answered_of_filled hfilled, by simp, ?_⟩
    intro g hcancels
    cases hcancels with
    | @question _ e' hfails' hkind =>
      cases hfails.symm.trans hfails'
      cases hr
      exact if_pos hkind

/-- Without consent, the prompt that was cancelled is the last thing that happened. -/
theorem consent_stopped {settings : Settings} {f : Failure}
    (h : outcome (consent t choice settings) world s = (.error f, s')) :
    ∃ s₁ last, Answered world s s₁ ∧ s'.events = s₁.events ++ [last] ∧
      ∀ g, Cancels world s₁.events last g → f = g := by
  unfold consent at h
  split at h
  · cases h
  · refine ⟨s, .confirmed t.name settings.rows, .refl, by rw [(outcome_agree h).1]; rfl, ?_⟩
    unfold agree at h
    rw [outcome_confirm_bind] at h
    intro g hcancels
    cases hcancels with
    | confirmation hfails =>
      rw [hfails] at h
      cases h
      rfl
    | declined hno =>
      rw [hno] at h
      cases h
      rfl

/-! ## Runs -/

variable {before after : List Event} {prompt : Event} {f : Failure}

/-- On every course, a prompt that cancels is the last event, and its failure is the end. -/
theorem Course.cancelled {stages : List Stage} {result : Except Failure Bool}
    (h : Course source t choice world s stages result s')
    (hevents : s'.events = s.events ++ (before ++ prompt :: after))
    (hcancels : Cancels world (s.events ++ before) prompt f) :
    result = .error f ∧ after = [] ∧ .building ∉ segmentOf stages result ∧ Spared world s s' := by
  -- only a course that ends with a prompt can have one that cancels, and only as its last event
  cases h with
  | unprepared prepared => exact absurd hcancels ((answered_prepare prepared).not_cancels hevents)
  | @uncollected schema _ _ _ prepared collected =>
    obtain ⟨s₁, last, hanswered, hlast, hfailure⟩ := collect_stopped collected
    obtain ⟨hafter, hlastCancels⟩ :=
      ((answered_prepare prepared).trans hanswered).eq_last (hlast.symm.trans hevents) hcancels
    refine ⟨congrArg _ (hfailure f hlastCancels), hafter, ?_,
      (spared_prepare prepared).trans (spared_collect collected)⟩
    simp [segmentOf, ne_schemaStage]
  | @refused schema _ _ _ _ _ prepared collected agreed =>
    obtain ⟨s₁, last, hanswered, hlast, hfailure⟩ := consent_stopped agreed
    obtain ⟨hafter, hlastCancels⟩ :=
      ((answered_prepare prepared).trans ((answered_collect collected).trans hanswered)).eq_last
        (hlast.symm.trans hevents) hcancels
    refine ⟨congrArg _ (hfailure f hlastCancels), hafter, ?_,
      (spared_prepare prepared).trans ((spared_collect collected).trans (spared_consent agreed))⟩
    simp [segmentOf, ne_schemaStage]
  | unbuilt prepared collected agreed built =>
    have hanswered := (answered_until_build prepared collected agreed).trans (answered_build built)
    exact absurd hcancels (hanswered.not_cancels hevents)
  | built prepared collected agreed built =>
    have hanswered := (answered_until_build prepared collected agreed).trans (answered_build built)
    exact absurd hcancels (hanswered.not_cancels hevents)

/-- A cancelled run says so, unless the final prompt failed with a text of its own. -/
theorem Cancels.eq_cancelled_iff {events : List Event} (h : Cancels world events prompt f) :
    f = .cancelled ↔ ∀ template rows e, prompt = .confirmed template rows →
      world.confirm events template rows = .error e → e.text = "cancelled by user" := by
  cases h with
  | question => simp
  | @confirmation template rows e hfails =>
    constructor
    · rintro hf template' rows' e' ⟨⟩ hfails'
      cases hfails.symm.trans hfails'
      exact Failure.collection.inj hf
    · intro h
      rw [h template rows e rfl hfails]
      rfl
  | @declined template rows hanswer =>
    refine iff_of_true rfl ?_
    rintro template' rows' e ⟨⟩ hfails
    cases hanswer.symm.trans hfails

/-- Whatever run it is and at whatever place of it a prompt cancels, the run fails with this, nothing
happens after it, and nothing was built. The failure is the one of a declined request to go on, unless
it is the request to go on that was interrupted, with an error of another text. -/
theorem run_cancelled (source : Source) (templates : List Template) (choice : Choice)
    (world : World) (p : Progress) (s : Session) {before after : List Event} {prompt : Event}
    {f : Failure}
    (hevents : (stepOutcome (run source templates choice) world p s).2.2.events =
      s.events ++ (before ++ prompt :: after))
    (hcancels : Cancels world (s.events ++ before) prompt f) :
    (stepOutcome (run source templates choice) world p s).1 = .error f ∧ after = [] ∧
      (∃ segment, (stepOutcome (run source templates choice) world p s).2.1.trail =
        p.trail ++ segment ∧ .building ∉ segment) ∧
      Spared world s (stepOutcome (run source templates choice) world p s).2.2 ∧
      (f = .cancelled ↔ ∀ template rows e, prompt = .confirmed template rows →
        world.confirm (s.events ++ before) template rows = .error e →
          e.text = "cancelled by user") := by
  cases ht : templates[choice.index]? with
  | none =>
    rw [run_invalid source ht] at hevents
    simp at hevents
  | some t =>
    obtain ⟨stages, result, s', hcourse, hrun⟩ := run_course source ht world p s
    rw [hrun] at hevents ⊢
    obtain ⟨rfl, hafter, hbuilding, hspared⟩ := hcourse.cancelled hevents hcancels
    exact ⟨rfl, hafter, ⟨_, Progress.trail_advanceAll _ p, hbuilding⟩, hspared,
      Cancels.eq_cancelled_iff hcancels⟩

/-- The error of a prompt that the user left. -/
def leaving : SystemError :=
  ⟨.interrupted, "ctrl-c"⟩

/-- A template with a document for its settings. -/
def survey : Template where
  descriptor := ⟨"survey", "", .cookiecutter, "acme", "survey", "main", "config.yaml"⟩
  builder := .cookiecutter

/-- A schema with two fields is there, and the user leaves at the second one. -/
def hesitant : World :=
  { World.steady "name: \x7b\x7d\nsize: \x7b\x7d" fun _ => none with
    ask := fun events _ =>
      if events.any fun e => e matches .asked _ then .error leaving else .ok none }

/-- Whoever hesitates leaves at the next question. -/
theorem hesitant_leaves {events : List Event} {question : Question} (h : .asked question ∈ events)
    (next : Question) : hesitant.ask events next = .error leaving :=
  if_pos (List.any_eq_true.mpr ⟨_, h, rfl⟩)

/-- What happens in this world when the template is built. -/
def hesitantEvents : List Event :=
  (stepOutcome (run .standard [survey] ⟨0, "out", false⟩) hesitant .start ⟨[], default⟩).2.2.events

/-- The run ends at the second question, after the first one was answered. -/
theorem run_cancelled_hesitant :
    ∃ before, hesitantEvents = [] ++ (before ++ [.asked (.input "size" none)]) ∧
      .asked (.input "name" none) ∈ before ∧
      Cancels hesitant ([] ++ before) (.asked (.input "size" none)) .cancelled ∧
      (stepOutcome (run .standard [survey] ⟨0, "out", false⟩) hesitant .start
        ⟨[], default⟩).1 = .error .cancelled := by
  have hlast : hesitantEvents.drop 2 = [.asked (.input "size" none)] := by decide +kernel
  have hfirst : .asked (.input "name" none) ∈ hesitantEvents.take 2 := by decide +kernel
  have hevents : hesitantEvents =
      [] ++ (hesitantEvents.take 2 ++ [.asked (.input "size" none)]) := by
    rw [← hlast, List.nil_append, List.take_append_drop]
  have hcancels : Cancels hesitant ([] ++ hesitantEvents.take 2) (.asked (.input "size" none))
      .cancelled := by
    rw [List.nil_append]
    exact .question (hesitant_leaves hfirst _) rfl
  exact ⟨_, hevents, hfirst, hcancels, (run_cancelled .standard [survey] ⟨0, "out", false⟩ hesitant
    .start ⟨[], default⟩ hevents hcancels).1⟩

/-- A repository that is cloned without settings. -/
def starter : Template where
  descriptor := ⟨"starter", "", .gitRepo, "acme", "starter", "main", "config.yaml"⟩
  builder := .gitRepo

/-- A world that differs in nothing but the answer of a user who is asked to go on. -/
def deciding (answer : Except SystemError Bool) : World :=
  { World.steady "" fun _ => none with confirm := fun _ _ _ => answer }

/-- The user who leaves where a build is to be confirmed is not told the same as one who declines. -/
theorem run_interrupted_at_confirmation :
    leaving.kind = .interrupted ∧
      (stepOutcome (run .standard [starter] ⟨0, "out", false⟩) (deciding (.error leaving)) .start
        ⟨[], default⟩).2.2.events = [.confirmed "starter" []] ∧
      (stepOutcome (run .standard [starter] ⟨0, "out", false⟩) (deciding (.error leaving)) .start
        ⟨[], default⟩).1 = .error (.collection "ctrl-c") ∧
      (stepOutcome (run .standard [starter] ⟨0, "out", false⟩) (deciding (.ok false)) .start
        ⟨[], default⟩).1 = .error .cancelled ∧
      Failure.collection "ctrl-c" ≠ .cancelled :=
  ⟨rfl, rfl, rfl, rfl, by decide⟩

end Scaffolding.Scaffold
