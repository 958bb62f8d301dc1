import Scaffolding.Proofs.Remote.Fetch
import Scaffolding.Proofs.Scaffold.Effects
import Scaffolding.Proofs.Scaffold.Trail
import Scaffolding.Proofs.Schema.Entries
import Scaffolding.Proofs.Schema.Filling

/-!
# What the response for a schema decides

The one request for the schema of a template has one of three ends. The response is about the
credential, and the run fails with that; it is a document that reads as a schema, and the fields of
this schema are asked for; or it is anything else, or there is none, and the run goes on without a
schema, asks nothing and builds with no settings.

Which of the three it is depends on the response and on whether a token was shown, and on nothing
else. A template that takes no settings sends no request, and so no response for it arrives.
-/

set_option autoImplicit false

namespace Scaffolding

/-- The question that was asked, if it is one that happened. -/
def Event.question? : Event → Option Question
  | asked question => some question
  | _ => none

/-- The questions that were asked so far. -/
def Session.questions (s : Session) : List Question :=
  s.events.filterMap Event.question?

/-- The form in which a builder takes no settings at all. -/
def Builder.blank : Builder → Configuration
  | nix => .nix "\x7b \x7d"
  | cookiecutter => .json "\x7b\x7d"
  | gitRepo => .empty

/-- No settings are encoded as the form without any. -/
theorem Builder.encode_empty (b : Builder) : b.encode .empty = b.blank := by
  cases b <;> rfl

namespace Scaffold

variable {source : Source} {t : Template} {choice : Choice} {world : World} {s s' : Session}

/-! ## Responses -/

/-- A response with a status and a body arrives to the request for the schema of a template. -/
def Responds (source : Source) (t : Template) (world : World) (s : Session) (status : Nat)
    (body : String) : Prop :=
  t.builder.takesSettings = true ∧
    ∃ url, source.documentUrl t.descriptor.organization t.descriptor.repository
        t.descriptor.schemaPath t.descriptor.branch = .ok url ∧
      (Remote.Request.of source url).flaw? = none ∧
      world.send s.events (Remote.Request.of source url) = .answered status body

/-- The response is about the credential. -/
def Denied (source : Source) (t : Template) (world : World) (s : Session) : Prop :=
  ∃ status body, Responds source t world s status body ∧
    (status = 401 ∨ (status = 403 ∨ status = 404) ∧ source.token = none)

/-- The response is a document that reads as a schema. -/
def Offered (source : Source) (t : Template) (world : World) (s : Session) (schema : Schema) :
    Prop :=
  ∃ status body, Responds source t world s status body ∧ 200 ≤ status ∧ status < 300 ∧
    Text.isBlankText body = false ∧ Schema.read body = .ok schema

/-- Only one response arrives, and it offers one schema at most. -/
theorem Offered.unique {schema other : Schema} (h : Offered source t world s schema)
    (h' : Offered source t world s other) : schema = other := by
  obtain ⟨status, body, ⟨-, url, hurl, -, hanswer⟩, -, -, -, hread⟩ := h
  obtain ⟨status', body', ⟨-, url', hurl', -, hanswer'⟩, -, -, -, hread'⟩ := h'
  cases hurl.symm.trans hurl'
  cases hanswer.symm.trans hanswer'
  exact Except.ok.inj (hread.symm.trans hread')

/-! ## The schema step -/

/-- For a template with settings, having the schema is fetching and reading its document. -/
theorem outcome_schemaOf_eq (htakes : t.builder.takesSettings = true) :
    outcome (schemaOf source t) world s =
      match outcome (Remote.fetch source t.descriptor.organization t.descriptor.repository
        t.descriptor.schemaPath t.descriptor.branch) world s with
      | (.ok text, s') => ((Schema.read text).map some, s')
      | (.error f, s') => (.error f, s') := by
  unfold schemaOf
  rw [if_pos htakes, outcome_bind]
  unfold remoteSchema
  dsimp only
  rw [outcome_bind]
  rcases outcome (Remote.fetch source t.descriptor.organization t.descriptor.repository
    t.descriptor.schemaPath t.descriptor.branch) world s with ⟨f | text, s'⟩
  · rfl
  · dsimp only
    cases Schema.read text <;> rfl

/-- A template without settings has no schema, and nothing is sent for it. -/
theorem outcome_schemaOf_none (htakes : t.builder.takesSettings = false) :
    outcome (schemaOf source t) world s = (.ok none, s) := by
  unfold schemaOf
  rw [htakes]
  rfl

/-- There is a schema exactly if the response offers it. -/
theorem outcome_schemaOf_eq_some_iff {schema : Schema} :
    (outcome (schemaOf source t) world s).1 = .ok (some schema) ↔
      Offered source t world s schema := by
  unfold Offered Responds
  cases htakes : t.builder.takesSettings with
  | false =>
    rw [outcome_schemaOf_none htakes]
    simp
  | true =>
    rw [outcome_schemaOf_eq htakes]
    constructor
    · intro h
      rcases hfetch : outcome (Remote.fetch source t.descriptor.organization
        t.descriptor.repository t.descriptor.schemaPath t.descriptor.branch) world s with
        ⟨f | text, s'⟩
      · rw [hfetch] at h
        cases h
      · rw [hfetch] at h
        obtain ⟨url, status, hurl, hflaw, hanswer, hsuccess, hsays, -⟩ :=
          Remote.outcome_fetch_eq_ok_iff.mp hfetch
        have hread : Schema.read text = .ok schema := by
          cases hread : Schema.read text <;> simp_all [Except.map]
        obtain ⟨hlow, hhigh⟩ := Remote.isSuccess_iff.mp hsuccess
        exact ⟨status, text, ⟨rfl, url, hurl, hflaw, hanswer⟩, hlow, hhigh, hsays, hread⟩
    · rintro ⟨status, text, ⟨-, url, hurl, hflaw, hanswer⟩, hlow, hhigh, hsays, hread⟩
      have hfetch := Remote.outcome_fetch_eq_ok_iff.mpr
        ⟨url, status, hurl, hflaw, hanswer, Remote.isSuccess_iff.mpr ⟨hlow, hhigh⟩, hsays, rfl⟩
      rw [hfetch]
      simp [hread, Except.map]

/-- Having the schema fails for the credential exactly if the response denies it. -/
theorem outcome_schemaOf_authentication_iff :
    (∃ f, (outcome (schemaOf source t) world s).1 = .error f ∧ f.kind = .authentication) ↔
      Denied source t world s := by
  unfold Denied Responds
  cases htakes : t.builder.takesSettings with
  | false =>
    rw [outcome_schemaOf_none htakes]
    simp
  | true =>
    -- what the document reads as has no say in this, so it is the fetching that fails
    have hfetch : (∃ f, (outcome (schemaOf source t) world s).1 = .error f ∧
        f.kind = .authentication) ↔
        ∃ f, (outcome (Remote.fetch source t.descriptor.organization t.descriptor.repository
          t.descriptor.schemaPath t.descriptor.branch) world s).1 = .error f ∧
          f.kind = .authentication := by
      rw [outcome_schemaOf_eq htakes]
      rcases outcome (Remote.fetch source t.descriptor.organization t.descriptor.repository
        t.descriptor.schemaPath t.descriptor.branch) world s with ⟨f | text, s'⟩
      · simp
      · cases hread : Schema.read text with
        | error f => simp [Except.map, hread, Schema.kind_of_read_error hread]
        | ok schema => simp [Except.map, hread]
    rw [hfetch, Remote.outcome_fetch_authentication_iff]
    constructor
    · rintro ⟨url, status, body, hurl, hflaw, hanswer, hdenial⟩
      refine ⟨status, body, ⟨rfl, url, hurl, hflaw, hanswer⟩, ?_⟩
      simpa [Remote.IsDenial] using hdenial
    · rintro ⟨status, body, ⟨-, url, hurl, hflaw, hanswer⟩, hdenial⟩
      refine ⟨url, status, body, hurl, hflaw, hanswer, ?_⟩
      simpa [Remote.IsDenial] using hdenial

/-- The schema step has one of three ends, by the response. -/
theorem outcome_schemaOrNone_cases {r : Except Failure (Option Schema)}
    (h : outcome (schemaOrNone source t) world s = (r, s')) :
    (Denied source t world s ∧ ∃ f, r = .error f ∧ f.kind = .authentication) ∨
      (¬ Denied source t world s ∧ ∃ schema, Offered source t world s schema ∧
        r = .ok (some schema)) ∨
      (¬ Denied source t world s ∧ (∀ schema, ¬ Offered source t world s schema) ∧
        r = .ok none) := by
  rw [schemaOrNone, outcome_tryCatch] at h
  have hdenied : (∃ f, (outcome (schemaOf source t) world s).1 = .error f ∧
      f.kind = .authentication) ↔ Denied source t world s := outcome_schemaOf_authentication_iff
  have hoffered : ∀ schema, (outcome (schemaOf source t) world s).1 = .ok (some schema) ↔
      Offered source t world s schema := fun schema => outcome_schemaOf_eq_some_iff
  rcases hschema : outcome (schemaOf source t) world s with ⟨f | schema, s₁⟩
  · rw [hschema] at h hdenied hoffered
    have hnone : ∀ schema, ¬ Offered source t world s schema := by
      intro schema hoffer
      cases (hoffered schema).mpr hoffer
    cases f with
    | authentication url text =>
      cases h
      exact .inl ⟨hdenied.mp ⟨_, rfl, rfl⟩, _, rfl, rfl⟩
    | _ =>
      cases h
      refine .inr (.inr ⟨?_, hnone, rfl⟩)
      intro hdeny
      obtain ⟨f, hf, hkind⟩ := hdenied.mpr hdeny
      cases hf
      cases hkind
  · rw [hschema] at h hdenied hoffered
    cases h
    have hnot : ¬ Denied source t world s := by
      intro hdeny
      obtain ⟨f, hf, -⟩ := hdenied.mpr hdeny
      cases hf
    cases schema with
    | some schema => exact .inr (.inl ⟨hnot, schema, (hoffered schema).mp rfl, rfl⟩)
    | none =>
      refine .inr (.inr ⟨hnot, ?_, rfl⟩)
      intro schema hoffer
      cases (hoffered schema).mpr hoffer

/-- The one response either denies or offers, and never both. -/
theorem Denied.not_offered (h : Denied source t world s) (schema : Schema) :
    ¬ Offered source t world s schema := by
  rintro ⟨status', body', ⟨-, url', hurl', -, hanswer'⟩, hlow, hhigh, -, -⟩
  obtain ⟨status, body, ⟨-, url, hurl, -, hanswer⟩, hdenial⟩ := h
  cases hurl.symm.trans hurl'
  cases hanswer.symm.trans hanswer'
  omega

/-- Where the tool is there, preparing is having the schema. -/
theorem outcome_prepare_of_available
    (hthere : (outcome t.builder.isAvailable world s).1 = .ok true) :
    outcome (prepare source t) world s =
      outcome (schemaOrNone source t) world (s.probed world t.builder) := by
  have hprobed := (outcome_isAvailable (Prod.eta (outcome t.builder.isAvailable world s)).symm).1
  have htool : outcome t.builder.isAvailable world s = (.ok true, s.probed world t.builder) :=
    Prod.ext hthere hprobed
  unfold prepare requireTool
  rw [outcome_bind, outcome_bind, htool]
  rfl

/-! ## Questions -/

/-- The questions of some events are added to those before. -/
theorem questions_recordAll (events : List Event) :
    (s.recordAll events).questions = s.questions ++ events.filterMap Event.question? := by
  simp [Session.questions]

/-- Events without questions add none. -/
theorem questions_of_events {events : List Event} (h : s'.events = s.events ++ events)
    (hnone : ∀ e ∈ events, e.question? = none) : s'.questions = s.questions := by
  unfold Session.questions
  rw [h, List.filterMap_append, List.filterMap_eq_nil_iff.mpr hnone, List.append_nil]

/-- Preparing a template asks nothing. -/
theorem questions_prepare {r : Except Failure (Option Schema)}
    (h : outcome (prepare source t) world s = (r, s')) : s'.questions = s.questions := by
  obtain ⟨⟨requests, rfl, -, -⟩, -⟩ := outcome_prepare h
  have hprobed : (s.probed world t.builder).questions = s.questions := by
    refine questions_of_events (Session.events_probed t.builder) ?_
    intro e he
    obtain ⟨call, -, rfl⟩ := List.mem_map.mp he
    rfl
  rw [← hprobed]
  refine questions_of_events rfl ?_
  intro e he
  obtain ⟨request, -, rfl⟩ := List.mem_map.mp he
  rfl

/-- Asking for consent is no question about a setting. -/
theorem questions_consent {settings : Settings} {r : Except Failure Unit}
    (h : outcome (consent t choice settings) world s = (r, s')) : s'.questions = s.questions := by
  obtain ⟨rfl, -, -⟩ := outcome_consent h
  refine questions_of_events rfl ?_
  intro e he
  obtain ⟨rows, -, rfl⟩ := List.mem_map.mp he
  rfl

/-- Building asks nothing. -/
theorem questions_build {settings : Settings} {output : String} {r : Except Failure Unit}
    (h : outcome (t.builder.build t.descriptor (t.builder.encode settings) output) world s =
      (r, s')) : s'.questions = s.questions := by
  obtain ⟨⟨work, hwork, hown⟩, -⟩ := Builder.outcome_build h
  refine questions_of_events hwork ?_
  intro e he
  rcases hown.effects e he with rfl | ⟨deed, rfl⟩ <;> rfl

/-! ## Runs -/

/-- What the response for the schema makes of a run. -/
structure Settled (source : Source) (t : Template) (choice : Choice) (world : World) (s : Session)
    (segment : List Stage) (result : Except Failure Project) (s' : Session) : Prop where
  /-- The run fails for the credential exactly if the response denies it. -/
  denied_iff : Fails [.authentication] result ↔ Denied source t world (s.probed world t.builder)
  /-- It goes on with a schema exactly if the response offers one. -/
  loaded_iff : [.selected, .schemaLoaded, .collecting] <+: segment ↔
    ∃ schema, Offered source t world (s.probed world t.builder) schema
  /-- In every other case it goes on without. -/
  unloaded_iff : [.selected, .noSchema, .collecting, .encoded] <+: segment ↔
    ¬ Denied source t world (s.probed world t.builder) ∧
      ∀ schema, ¬ Offered source t world (s.probed world t.builder) schema
  /-- The fields of the schema that is offered are asked for: all of them, or as far as asking goes. -/
  asked : ∀ schema, Offered source t world (s.probed world t.builder) schema →
    (.encoded ∈ segment ∧ s'.questions = s.questions ++ schema.fields.map (·.question)) ∨
      ∃ before f rest e, schema.fields = before ++ f :: rest ∧
        s'.questions = s.questions ++ (before ++ [f]).map (·.question) ∧
        result = .error (f.failureOf e)
  /-- Without a schema nothing is asked. -/
  silent : (∀ schema, ¬ Offered source t world (s.probed world t.builder) schema) →
    s'.questions = s.questions
  /-- A run that goes on without a schema collects nothing and builds with nothing. -/
  blank : [.selected, .noSchema, .collecting, .encoded] <+: segment →
    ∃ s₁, Collects source t world s .empty s₁ ∧ t.builder.encode .empty = t.builder.blank ∧
      (.building ∈ segment →
        s' = (outcome (t.builder.build t.descriptor t.builder.blank choice.output) world
          (s₁.recordAll ((summaries choice .empty).map (.confirmed t.name)))).2)

variable {segment : List Stage} {result : Except Failure Project} {s₁ s₂ : Session}

/-- A run that fails before collecting was denied. -/
theorem settled_of_unprepared {f : Failure}
    (hthere : (outcome t.builder.isAvailable world s).1 = .ok true)
    (prepared : outcome (prepare source t) world s = (.error f, s')) :
    Settled source t choice world s [.selected, .failed] (.error f) s' := by
  have hsilent := questions_prepare prepared
  rw [outcome_prepare_of_available hthere] at prepared
  rcases outcome_schemaOrNone_cases prepared with ⟨hdenied, g, hg, hkind⟩ | ⟨-, schema, -, hr⟩ |
    ⟨-, -, hr⟩
  · cases hg
    have hnone := hdenied.not_offered
    refine ⟨by simp [hkind, hdenied], ?_, ?_, ?_, fun _ => hsilent, ?_⟩
    · simp [hnone]
    · simp [hdenied]
    · intro schema hoffered
      exact absurd hoffered (hnone schema)
    · intro hprefix
      simp at hprefix
  · cases hr
  · cases hr

/-- A run that collected its settings was offered their schema, or goes on with nothing. -/
theorem settled_of_collected {schema : Option Schema} {settings : Settings}
    (hthere : (outcome t.builder.isAvailable world s).1 = .ok true)
    (prepared : outcome (prepare source t) world s = (.ok schema, s₁))
    (collected : outcome (schema.getD .empty).collect world s₁ = (.ok settings, s₂))
    (hsegment : [.selected, schemaStage schema.isSome, .collecting, .encoded] <+: segment)
    (hresult : ¬ Fails [.authentication] result) (hquestions : s'.questions = s₂.questions)
    (hbuilt : .building ∈ segment →
      s' = (outcome (t.builder.build t.descriptor (t.builder.encode settings) choice.output) world
        (s₂.recordAll ((summaries choice settings).map (.confirmed t.name)))).2) :
    Settled source t choice world s segment result s' := by
  have hasked := questions_prepare prepared
  have hprepared := prepared
  rw [outcome_prepare_of_available hthere] at hprepared
  obtain ⟨rest, rfl⟩ := hsegment
  rcases outcome_schemaOrNone_cases hprepared with ⟨-, f, hf, -⟩ | ⟨hnot, found, hoffered, hr⟩ |
    ⟨hnot, hnone, hr⟩
  · cases hf
  · cases hr
    refine ⟨by simp [hresult, hnot], ?_, ?_, ?_, ?_, ?_⟩
    · simp [schemaStage, List.cons_prefix_cons, Exists.intro found hoffered]
    · constructor
      · intro hprefix
        simp [schemaStage, List.cons_prefix_cons] at hprefix
      · rintro ⟨-, hnone⟩
        exact absurd hoffered (hnone found)
    · intro schema hother
      cases hoffered.unique hother
      refine .inl ⟨by simp, ?_⟩
      rcases Schema.outcome_collect_cases collected with ⟨-, rfl⟩ | ⟨_, _, _, _, -, -, -, -, hr⟩
      · rw [hquestions, questions_recordAll, hasked, List.filterMap_map]
        simp [Function.comp_def, Event.question?]
      · cases hr
    · intro hnone
      exact absurd hoffered (hnone found)
    · intro hprefix
      simp [schemaStage, List.cons_prefix_cons] at hprefix
  · cases hr
    cases collected
    refine ⟨by simp [hresult, hnot], ?_, ?_, ?_, ?_, ?_⟩
    · simp [schemaStage, List.cons_prefix_cons, hnone]
    · simp [schemaStage, List.cons_prefix_cons, hnot, hnone]
    · intro schema hoffered
      exact absurd hoffered (hnone schema)
    · intro _
      exact hquestions.trans hasked
    · intro _
      refine ⟨s₁, ⟨none, s₁, prepared, rfl⟩, t.builder.encode_empty, ?_⟩
      rw [← t.builder.encode_empty]
      exact hbuilt

/-- A run that fails while it collects was offered the schema that it collects for. -/
theorem settled_of_uncollected {schema : Option Schema} {f : Failure}
    (hthere : (outcome t.builder.isAvailable world s).1 = .ok true)
    (prepared : outcome (prepare source t) world s = (.ok schema, s₁))
    (collected : outcome (schema.getD .empty).collect world s₁ = (.error f, s')) :
    Settled source t choice world s
      [.selected, schemaStage schema.isSome, .collecting, .failed] (.error f) s' := by
  have hasked := questions_prepare prepared
  rw [outcome_prepare_of_available hthere] at prepared
  rcases outcome_schemaOrNone_cases prepared with ⟨-, f, hf, -⟩ | ⟨hnot, found, hoffered, hr⟩ |
    ⟨-, -, hr⟩
  · cases hf
  · cases hr
    rcases Schema.outcome_collect_cases collected with ⟨⟨_, hr⟩, -⟩ |
      ⟨before, g, rest, e, hfields, -, rfl, -, hr⟩
    · cases hr
    · cases hr
      have hkind : (g.failureOf e).kind = .collection := by
        simpa using (outcome_collect collected).2
      have hquestions : (s₁.recordAll ((before ++ [g]).map fun f => .asked f.question)).questions =
          s.questions ++ (before ++ [g]).map (·.question) := by
        rw [questions_recordAll, hasked, List.filterMap_map]
        simp [Function.comp_def, Event.question?]
      refine ⟨by simp [hkind, hnot], ?_, ?_, ?_, ?_, ?_⟩
      · simp [schemaStage, Exists.intro found hoffered]
      · constructor
        · intro hprefix
          simp [schemaStage] at hprefix
        · rintro ⟨-, hnone⟩
          exact absurd hoffered (hnone found)
      · intro schema hother
        cases hoffered.unique hother
        exact .inr ⟨before, g, rest, e, hfields, hquestions, rfl⟩
      · intro hnone
        exact absurd hoffered (hnone found)
      · intro hprefix
        simp [schemaStage] at hprefix
  · cases hr
    cases collected

/-- Every course is settled by the response for the schema. -/
theorem Course.settled {stages : List Stage} {reached : Except Failure Bool}
    (hthere : (outcome t.builder.isAvailable world s).1 = .ok true)
    (h : Course source t choice world s stages reached s') (trail : List Stage) :
    Settled source t choice world s (segmentOf stages reached)
      (reached.map (projectOf t choice trail)) s' := by
  cases h with
  | unprepared prepared => exact settled_of_unprepared hthere prepared
  | uncollected prepared collected => exact settled_of_uncollected hthere prepared collected
  | @refused schema settings f _ _ _ prepared collected agreed =>
    have hkind : f.kind = .collection := by simpa using (outcome_consent agreed).2.2
    refine settled_of_collected hthere prepared collected ?_ ?_ (questions_consent agreed) ?_
    · simp [segmentOf]
    · simp [Except.map, hkind]
    · intro hbuilding
      cases hschema : schema.isSome <;> simp [segmentOf, schemaStage, hschema] at hbuilding
  | @unbuilt schema settings f _ _ _ _ prepared collected agreed built =>
    have hkind : f.kind = .build := by simpa using (Builder.outcome_build built).2
    refine settled_of_collected hthere prepared collected ?_ ?_
      ((questions_build built).trans (questions_consent agreed)) ?_
    · simp [segmentOf]
    · simp [Except.map, hkind]
    · intro _
      rw [← (outcome_consent agreed).1, built]
  | built prepared collected agreed built =>
    refine settled_of_collected hthere prepared collected ?_ ?_
      ((questions_build built).trans (questions_consent agreed)) ?_
    · simp [segmentOf]
    · simp [Except.map]
    · intro _
      rw [← (outcome_consent agreed).1, built]

/-- No response settles the schema of a plain repository. -/
theorem Settled.unloaded_of_gitRepo
    (h : Settled source t choice world s segment result s') (hb : t.builder = .gitRepo) :
    [.selected, .noSchema, .collecting, .encoded] <+: segment := by
  have hnot : ∀ status body, ¬ Responds source t world (s.probed world t.builder) status body := by
    rintro status body ⟨htakes, -⟩
    rw [hb] at htakes
    cases htakes
  apply h.unloaded_iff.mpr
  constructor
  · rintro ⟨status, body, hresponds, -⟩
    exact hnot status body hresponds
  · rintro schema ⟨status, body, hresponds, -⟩
    exact hnot status body hresponds

/-- Every run of a template whose tool is there is settled by the response for the schema. Only Nix is
looked for; the tools of the other builders count as there. A plain repository is always cloned
without a schema. -/
theorem run_settled (source : Source) (templates : List Template) (choice : Choice)
    (world : World) (p : Progress) (s : Session) {t : Template}
    (ht : templates[choice.index]? = some t)
    (hthere : t.builder = .nix → (outcome t.builder.isAvailable world s).1 = .ok true) :
    ∃ segment,
      (stepOutcome (run source templates choice) world p s).2.1.trail = p.trail ++ segment ∧
        Settled source t choice world s segment
          (stepOutcome (run source templates choice) world p s).1
          (stepOutcome (run source templates choice) world p s).2.2 ∧
        (t.builder = .gitRepo → [.selected, .noSchema, .collecting, .encoded] <+: segment) := by
  have hthere : (outcome t.builder.isAvailable world s).1 = .ok true := by
    cases hbuilder : t.builder with
    | nix =>
      rw [← hbuilder]
      exact hthere hbuilder
    | cookiecutter => rfl
    | gitRepo => rfl
  obtain ⟨stages, reached, s', hcourse, hrun⟩ := run_course source ht world p s
  have hsettled := hcourse.settled hthere (p.trail ++ segmentOf stages reached)
  rw [hrun]
  exact ⟨segmentOf stages reached, Progress.trail_advanceAll _ p, hsettled,
    hsettled.unloaded_of_gitRepo⟩

/-- A template with a document for its settings. -/
def pipeline : Template where
  descriptor := ⟨"pipeline", "", .cookiecutter, "acme", "pipeline", "main", "config.yaml"⟩
  builder := .cookiecutter

/-- A schema with one field is offered, and the run is settled by it. -/
theorem run_settled_pipeline :
    [pipeline][0]? = some pipeline ∧ ∃ schema segment,
      Offered .standard pipeline (.steady "name: {}" fun _ => none) ⟨[], default⟩ schema ∧
      schema.fields.length = 1 ∧
      Settled .standard pipeline ⟨0, "out", true⟩ (.steady "name: {}" fun _ => none)
        ⟨[], default⟩ segment
        (stepOutcome (run .standard [pipeline] ⟨0, "out", true⟩)
          (.steady "name: {}" fun _ => none) .start ⟨[], default⟩).1
        (stepOutcome (run .standard [pipeline] ⟨0, "out", true⟩)
          (.steady "name: {}" fun _ => none) .start ⟨[], default⟩).2.2 := by
  have hread : (Schema.read "name: {}").toOption.map (·.fields.length) = some 1 := by
    decide +kernel
  obtain ⟨schema, hschema, hone⟩ := Option.map_eq_some_iff.mp hread
  have hsendable : (Source.standard.documentUrl "acme" "pipeline" "config.yaml"
      "main").toOption.map (fun url => (Remote.Request.of .standard url).flaw?) = some none := by
    decide +kernel
  obtain ⟨url, hurl, hflaw⟩ := Option.map_eq_some_iff.mp hsendable
  have hsays : Text.isBlankText "name: {}" = false := by
    decide +kernel
  obtain ⟨segment, -, hsettled, -⟩ := run_settled .standard [pipeline] ⟨0, "out", true⟩
    (.steady "name: {}" fun _ => none) .start ⟨[], default⟩ rfl (by decide)
  exact ⟨rfl, schema, segment,
    ⟨200, _, ⟨rfl, url, toOption_eq_some_iff.mp hurl, hflaw, rfl⟩, by decide, by decide, hsays,
      toOption_eq_some_iff.mp hschema⟩, hone, hsettled⟩

end Scaffold

end Scaffolding
