import Scaffolding.Proofs.Schema.Filling
import Scaffolding.Proofs.Settings.Placement

/-!
# Interviews

Collecting settings is an interview: the fields of a schema are asked for in their order, one question
each, and every answer settles what its field stores. What a field asks and what an answer settles is
told here for each kind of field, fallbacks included, and not by the functions that collect.

An interview ends after all fields, or at the first question that fails. In the settings after all
fields, the last word on a place stands: a field has there what it stored unless a field after it
stored something in the same place, above it or below it. Nothing else stands there: a value that is
no object was stored by a field with just this place.
-/

set_option autoImplicit false

namespace Scaffolding.Schema

open Settings

variable {world : World} {s : Session}

/-! ## Questions and answers -/

/-- The question that a field asks, an answer to it or none, and what the field then stores, if it
stores anything. -/
inductive Field.Settles (f : Field) :
    (question : Question) → Option question.Answer → Option Json → Prop
  | text {default : Option String} {answer : String} (hkind : f.kind = .text default)
      (hanswer : answer ≠ "") :
      Settles f (.input f.prompt default) (some answer) (some (.string answer))
  /-- An empty text is no answer; without a default the field stores it all the same. -/
  | noText {default answer : Option String} (hkind : f.kind = .text default)
      (hanswer : answer = none ∨ answer = some "") :
      Settles f (.input f.prompt default) answer (some (.string (default.getD "")))
  | yesNo {default : Option Bool} {answer : Bool} (hkind : f.kind = .yesNo default) :
      Settles f (.confirm f.prompt (default.getD false)) (some answer) (some (.bool answer))
  | noYesNo {default : Option Bool} (hkind : f.kind = .yesNo default) :
      Settles f (.confirm f.prompt (default.getD false)) none (some (.bool (default.getD false)))
  | choice {choices : List String} {default : Option String} {answer : String}
      (hkind : f.kind = .oneOf choices default) (hanswer : answer ∈ choices) :
      Settles f (.select f.prompt choices default) (some answer) (some (.string answer))
  /-- What is not among the choices is no answer; without a default the field stores nothing. -/
  | noChoice {choices : List String} {default answer : Option String}
      (hkind : f.kind = .oneOf choices default) (hanswer : ∀ c ∈ answer, c ∉ choices) :
      Settles f (.select f.prompt choices default) answer (default.map .string)
  | choices {choices default answer : List String} (hkind : f.kind = .anyOf choices default) :
      Settles f (.multiselect f.prompt choices default) (some answer)
        (some (.array ((answer.filter (· ∈ choices)).map .string)))
  | noChoices {choices default : List String} (hkind : f.kind = .anyOf choices default) :
      Settles f (.multiselect f.prompt choices default) none
        (some (.array (default.map .string)))

/-- A question is the one of a field if some answer to it settles the field. -/
def Field.Asks (f : Field) (question : Question) : Prop :=
  ∃ answer value, f.Settles question answer value

/-- What settles a question may be written in another way. -/
theorem Field.Settles.congr {f : Field} {question : Question} {answer : Option question.Answer}
    {value other : Option Json} (h : f.Settles question answer value) (heq : other = value) :
    f.Settles question answer other := by
  rw [heq]
  exact h

/-- What collecting asks about a field and stores for an answer is the question about it and what the
answer settles. -/
theorem Field.settles_valueOf (f : Field) (answer : Option f.question.Answer) :
    f.Settles f.question answer (f.valueOf answer) := by
  obtain ⟨name, kind, prompt, destination⟩ := f
  cases kind with
  | text default =>
    change Option String at answer
    rcases answer with - | answer
    · exact .noText rfl (.inl rfl)
    · by_cases hempty : answer = ""
      · subst hempty
        exact .noText rfl (.inr rfl)
      · apply Settles.congr (.text rfl hempty)
        simp [Field.valueOf, Kind.valueOf, Option.filter, hempty]
  | yesNo default =>
    change Option Bool at answer
    rcases answer with - | answer
    · exact .noYesNo rfl
    · exact .yesNo rfl
  | oneOf choices default =>
    change Option String at answer
    by_cases hchoice : ∃ c ∈ answer, c ∈ choices
    · obtain ⟨c, rfl, hmem⟩ := hchoice
      apply Settles.congr (.choice rfl hmem)
      simp [Field.valueOf, Kind.valueOf, Option.filter, hmem]
    · have hnone : answer.filter choices.contains = none := by
        rw [Option.filter_eq_none_iff]
        intro c hc hmem
        exact hchoice ⟨c, hc, by simpa using hmem⟩
      apply Settles.congr (.noChoice rfl fun c hc hmem => hchoice ⟨c, hc, hmem⟩)
      change ((answer.filter choices.contains).or default).map Json.string = _
      rw [hnone, Option.none_or]
  | anyOf choices default =>
    change Option (List String) at answer
    rcases answer with - | answer
    · exact .noChoices rfl
    · have hfilter : answer.filter choices.contains = answer.filter (· ∈ choices) := by
        apply List.filter_congr
        intro c _
        simp
      apply Settles.congr (.choices rfl)
      rw [← hfilter]
      rfl

/-- The question of a field asks for it. -/
theorem Field.asks_question (f : Field) : f.Asks f.question :=
  ⟨none, f.valueOf none, f.settles_valueOf none⟩

/-! ## Interviews -/

/-- After some events a world answers the questions about fields, one after the other, and each field
stores what its answer settles. -/
inductive Interview (world : World) :
    List Event → List Field → List Question → List (Field × Option Json) → Prop
  | nil (events : List Event) : Interview world events [] [] []
  | cons {events : List Event} {f : Field} {question : Question} {answer : Option question.Answer}
      {value : Option Json} {fields : List Field} {questions : List Question}
      {stored : List (Field × Option Json)} (hsettles : f.Settles question answer value)
      (hanswer : world.ask events question = .ok answer)
      (hrest : Interview world (events ++ [.asked question]) fields questions stored) :
      Interview world events (f :: fields) (question :: questions) ((f, value) :: stored)

/-- Fields that are all filled are an interview with their questions. -/
theorem interview_fillings {events : List Event} {fields : List Field}
    (h : (fillings world events fields).map Prod.fst = fields) :
    Interview world events fields (fields.map Field.question) (fillings world events fields) := by
  induction fields generalizing events with
  | nil => exact .nil events
  | cons f rest ih =>
    cases hask : world.ask events f.question with
    | ok answer =>
      rw [fillings_cons_ok hask] at h ⊢
      have hrest := ih (List.cons.inj h).2
      exact .cons (f.settles_valueOf answer) hask hrest
    | error e =>
      rw [fillings_cons_error hask] at h
      cases h

/-! ## What is kept -/

/-- What fields stored, one after the other, as it is found in settings. -/
structure Kept (stored : List (Field × Option Json)) (settings : Settings) : Prop where
  /-- A field has what it stored, unless a later one stored something in its way. -/
  last : ∀ earlier f v later, stored = earlier ++ (f, some v) :: later →
    (∀ g w, (g, some w) ∈ later → Apart g.destination f.destination) →
      settings.get? f.destination = some v
  /-- A value that is no object was stored by a field with just this place. -/
  source : ∀ keys v, valueAt keys settings.toJson = some v → IsLeaf v →
    ∃ f, (f, some v) ∈ stored ∧ pathKeys f.destination = keys

/-- What is put are the values that were stored, each at the destination of its field. -/
theorem mem_puts {stored : List (Field × Option Json)} {p : String × Json} :
    p ∈ puts stored ↔ ∃ f, (f, some p.2) ∈ stored ∧ f.destination = p.1 := by
  unfold puts
  rw [List.mem_filterMap]
  constructor
  · rintro ⟨⟨f, value⟩, hmem, hp⟩
    obtain ⟨v, rfl, rfl⟩ := Option.map_eq_some_iff.mp hp
    exact ⟨f, hmem, rfl⟩
  · rintro ⟨f, hmem, hpath⟩
    exact ⟨(f, some p.2), hmem, by rw [Option.map_some, hpath]⟩

/-- What is put for a field stands between what is put before and after it. -/
theorem puts_append_cons (earlier : List (Field × Option Json)) (f : Field) (v : Json)
    (later : List (Field × Option Json)) :
    puts (earlier ++ (f, some v) :: later) = puts earlier ++ (f.destination, v) :: puts later := by
  unfold puts
  rw [List.filterMap_append, List.filterMap_cons]
  rfl

/-- Of the values for one destination the last one is kept, and every leaf comes from one of them.
-/
theorem kept_putAll {stored : List (Field × Option Json)}
    (hleaf : ∀ p ∈ puts stored, IsLeaf p.2) : Kept stored (Settings.empty.putAll (puts stored)) where
  last := by
    rintro earlier f v later rfl hlater
    have hapart : ∀ p ∈ puts later, Apart p.1 f.destination := by
      intro p hp
      obtain ⟨g, hg, hpath⟩ := mem_puts.mp hp
      rw [← hpath]
      exact hlater g p.2 hg
    rw [puts_append_cons, putAll_append, putAll_cons, get?_putAll_of_apart hapart,
      get?_eq_valueAt]
    have hput := valueAt_put_inside f.destination [] v (Settings.empty.putAll (puts earlier))
    rwa [List.append_nil] at hput
  source := by
    intro keys v hvalue hv
    rcases leaf_of_putAll hleaf hv hvalue with ⟨p, hp, hkeys, rfl⟩ | hempty
    · obtain ⟨f, hf, hpath⟩ := mem_puts.mp hp
      exact ⟨f, hf, by rw [hpath, hkeys]⟩
    · -- without a put there is the empty object and nothing in it
      cases keys with
      | nil =>
        cases hempty
        exact absurd rfl (hv [])
      | cons key rest => cases hempty

/-! ## Endings -/

/-- How collecting ends after an interview, with the fields that were not interviewed: there are none,
and what the others stored is kept; or the question about the first of them fails, and no question
comes after it. -/
inductive Ends (world : World) (s : Session) (questions : List Question)
    (stored : List (Field × Option Json)) :
    List Field → Except Failure Settings × Session → Prop
  | finished {settings : Settings} (hkept : Kept stored settings) :
      Ends world s questions stored [] (.ok settings, s.recordAll (questions.map .asked))
  | stopped {f : Field} {rest : List Field} {question : Question} {e : SystemError}
      {failure : Failure} (hasks : f.Asks question)
      (hfails : world.ask (s.events ++ questions.map .asked) question = .error e)
      (hkind : failure.kind = .collection) :
      Ends world s questions stored (f :: rest)
        (.error failure, s.recordAll ((questions ++ [question]).map .asked))

/-- Collecting settings for a schema interviews its fields in order, and ends after all of them or at
the first question that fails. -/
theorem collect_interview (schema : Schema) (world : World) (s : Session) :
    ∃ before after questions stored, schema.fields = before ++ after ∧
      Interview world s.events before questions stored ∧
        Ends world s questions stored after (outcome schema.collect world s) := by
  rcases houtcome : outcome schema.collect world s with ⟨r, s'⟩
  rcases outcome_collect_cases houtcome with ⟨⟨settings, rfl⟩, rfl⟩ |
    ⟨before, f, rest, e, hfields, hfilled, rfl, hfails, rfl⟩
  · have hresult : (outcome schema.collect world s).1 = .ok settings := by rw [houtcome]
    obtain ⟨hfilled, rfl⟩ := (outcome_collect_eq_ok_iff schema settings).mp hresult
    refine ⟨schema.fields, [], schema.fields.map Field.question, _, (List.append_nil _).symm,
      interview_fillings hfilled, ?_⟩
    have hkept := kept_putAll fun p (hp : p ∈ puts (fillings world s.events schema.fields)) =>
      isLeaf_of_mem_puts hp
    have hends : Ends world s (schema.fields.map Field.question) _ [] _ := .finished hkept
    rwa [List.map_map] at hends
  · refine ⟨before, f :: rest, before.map Field.question, _, hfields,
      interview_fillings hfilled, ?_⟩
    have hfails' : world.ask (s.events ++ (before.map Field.question).map .asked) f.question =
        .error e := by
      rw [List.map_map]
      exact hfails
    have hquestions : before.map Field.question ++ [f.question] =
        (before ++ [f]).map Field.question := by
      simp
    have hends : Ends world s (before.map Field.question) (fillings world s.events before)
        (f :: rest) _ := .stopped f.asks_question hfails' (kind_failureOf f e)
    rwa [hquestions, List.map_map] at hends

end Scaffolding.Schema
