import Scaffolding.Proofs.Session.Outcome
import Scaffolding.Proofs.Settings.Shape
import Scaffolding.Schema.Basic

/-!
# Filling in the fields of a schema

What the answers of a world give to the fields of a schema, as a list: each field with its value, up
to the first field for which asking fails. Collecting settings succeeds exactly when this list has all
fields, and the settings are then its values, put at the paths of their fields in the order of the
fields.
-/

set_option autoImplicit false

namespace Scaffolding.Schema

variable {world : World} {s s' : Session} {settings : Settings}

/-- What a world answers for fields, one after the other and after some events. -/
def fillings (world : World) : List Event → List Field → List (Field × Option Json)
  | _, [] => []
  | events, f :: rest =>
    match world.ask events f.question with
    | .ok answer => (f, f.valueOf answer) :: fillings world (events ++ [.asked f.question]) rest
    | .error _ => []

/-- The values that fields are given, with the paths at which they are put. -/
def puts (filled : List (Field × Option Json)) : List (String × Json) :=
  filled.filterMap fun x => x.2.map fun v => (x.1.destination, v)

/-- An answer fills its field, and the next fields are asked for after it. -/
theorem fillings_cons_ok {events : List Event} {f : Field} {answer : Option f.question.Answer}
    (h : world.ask events f.question = .ok answer) (rest : List Field) :
    fillings world events (f :: rest) =
      (f, f.valueOf answer) :: fillings world (events ++ [.asked f.question]) rest := by
  rw [fillings, h]

/-- A question that fails is the last one. -/
theorem fillings_cons_error {events : List Event} {f : Field} {e : SystemError}
    (h : world.ask events f.question = .error e) (rest : List Field) :
    fillings world events (f :: rest) = [] := by
  rw [fillings, h]

/-- Fields are filled in their order, and none is left out before one for which asking fails. -/
theorem fillings_in_order (world : World) (events : List Event) (fields : List Field) :
    (fillings world events fields).map Prod.fst <+: fields := by
  induction fields generalizing events with
  | nil => simp [fillings]
  | cons f rest ih =>
    cases h : world.ask events f.question with
    | ok answer =>
      rw [fillings_cons_ok h, List.map_cons, List.prefix_cons_inj]
      exact ih _
    | error e =>
      rw [fillings_cons_error h]
      exact List.nil_prefix

/-- What a field is filled with comes from an answer to its question. -/
theorem answer_of_mem_fillings {events : List Event} {fields : List Field}
    {x : Field × Option Json} (h : x ∈ fillings world events fields) :
    ∃ answer, x.2 = x.1.valueOf answer := by
  induction fields generalizing events with
  | nil => simp [fillings] at h
  | cons f rest ih =>
    cases hask : world.ask events f.question with
    | ok answer =>
      rw [fillings_cons_ok hask] at h
      rcases List.mem_cons.mp h with rfl | h
      · exact ⟨answer, rfl⟩
      · exact ih h
    | error e =>
      rw [fillings_cons_error hask] at h
      cases h

/-! ## Collecting -/

/-- Asking for a field fails in collecting. -/
theorem kind_failureOf (f : Field) (e : SystemError) : (f.failureOf e).kind = .collection := by
  unfold Field.failureOf
  split <;> rfl

/-- A field that is answered puts its value, if it has one. -/
theorem outcome_askField_ok {f : Field} {answer : Option f.question.Answer}
    (h : world.ask s.events f.question = .ok answer) :
    outcome (askField settings f) world s =
      (.ok (settings.putAll (puts [(f, f.valueOf answer)])), s.record (.asked f.question)) := by
  rw [askField, outcome_ask_bind, h]
  cases hvalue : f.valueOf answer with
  | none =>
    simp only [puts, List.filterMap_cons, List.filterMap_nil, Option.map_none, hvalue]
    rfl
  | some v =>
    simp only [puts, List.filterMap_cons, List.filterMap_nil, Option.map_some, hvalue]
    rfl

/-- A field that is not answered fails the collection. -/
theorem outcome_askField_error {f : Field} {e : SystemError}
    (h : world.ask s.events f.question = .error e) :
    outcome (askField settings f) world s =
      (.error (f.failureOf e), s.record (.asked f.question)) := by
  rw [askField, outcome_ask_bind, h]
  rfl

/-- Asking for fields gives settings exactly when all of them are filled in, and then these. -/
theorem outcome_askFields_eq_ok_iff (fields : List Field) (settings result : Settings) :
    (outcome (fields.foldlM askField settings) world s).1 = .ok result ↔
      (fillings world s.events fields).map Prod.fst = fields ∧
        result = settings.putAll (puts (fillings world s.events fields)) := by
  -- every answer adds to the settings and to the events on which later answers depend
  induction fields generalizing settings s with
  | nil =>
    have hnil : outcome (([] : List Field).foldlM askField settings) world s = (.ok settings, s) :=
      rfl
    rw [hnil]
    simp [fillings, puts, eq_comm]
  | cons f rest ih =>
    rw [List.foldlM_cons, outcome_bind]
    cases h : world.ask s.events f.question with
    | ok answer =>
      have hputs : puts (fillings world s.events (f :: rest)) =
          puts [(f, f.valueOf answer)] ++
            puts (fillings world (s.record (.asked f.question)).events rest) := by
        rw [fillings_cons_ok h, ← List.singleton_append, puts, List.filterMap_append]
        rfl
      rw [outcome_askField_ok h]
      dsimp only
      rw [ih, hputs, fillings_cons_ok h]
      simp [Settings.putAll, Session.record]
    | error e =>
      rw [outcome_askField_error h, fillings_cons_error h]
      simp

/-- Settings are collected exactly if every field is filled, and they hold what the fields were
filled with. -/
theorem outcome_collect_eq_ok_iff (schema : Schema) (result : Settings) :
    (outcome schema.collect world s).1 = .ok result ↔
      (fillings world s.events schema.fields).map Prod.fst = schema.fields ∧
        result = Settings.empty.putAll (puts (fillings world s.events schema.fields)) :=
  outcome_askFields_eq_ok_iff schema.fields .empty result

/-- Asking for fields asks all of them and comes to settings, or it stops at the first field whose
question cannot be asked, with all fields before it filled in. -/
theorem outcome_askFields_cases (fields : List Field) (settings : Settings)
    {r : Except Failure Settings}
    (h : outcome (fields.foldlM askField settings) world s = (r, s')) :
    ((∃ result, r = .ok result) ∧ s' = s.recordAll (fields.map fun f => .asked f.question)) ∨
      ∃ before f rest e, fields = before ++ f :: rest ∧
        (fillings world s.events before).map Prod.fst = before ∧
        s' = s.recordAll ((before ++ [f]).map fun f => .asked f.question) ∧
        world.ask (s.events ++ before.map fun f => .asked f.question) f.question = .error e ∧
        r = .error (f.failureOf e) := by
  induction fields generalizing settings s with
  | nil =>
    cases h
    exact .inl ⟨⟨settings, rfl⟩, by simp⟩
  | cons f rest ih =>
    rw [List.foldlM_cons, outcome_bind] at h
    cases hask : world.ask s.events f.question with
    | error e =>
      rw [outcome_askField_error hask] at h
      cases h
      exact .inr ⟨[], f, rest, e, rfl, rfl, rfl, by simpa using hask, rfl⟩
    | ok answer =>
      rw [outcome_askField_ok hask] at h
      rcases ih _ h with ⟨hresult, rfl⟩ | ⟨before, g, after, e, rfl, hfilled, rfl, hfails, hr⟩
      · exact .inl ⟨hresult, by simp⟩
      · refine .inr ⟨f :: before, g, after, e, rfl, ?_, by simp, ?_, hr⟩
        · rw [fillings_cons_ok hask, List.map_cons]
          exact congrArg (f :: ·) hfilled
        · simpa [Session.record] using hfails

/-- Collecting asks for every field and succeeds, or it fails at the first one that is not answered.
-/
theorem outcome_collect_cases {schema : Schema} {r : Except Failure Settings}
    (h : outcome schema.collect world s = (r, s')) :
    ((∃ result, r = .ok result) ∧
        s' = s.recordAll (schema.fields.map fun f => .asked f.question)) ∨
      ∃ before f rest e, schema.fields = before ++ f :: rest ∧
        (fillings world s.events before).map Prod.fst = before ∧
        s' = s.recordAll ((before ++ [f]).map fun f => .asked f.question) ∧
        world.ask (s.events ++ before.map fun f => .asked f.question) f.question = .error e ∧
        r = .error (f.failureOf e) :=
  outcome_askFields_cases schema.fields .empty h

/-- No field is given an object. -/
theorem isLeaf_of_valueOf {f : Field} {answer : Option f.question.Answer} {v : Json}
    (h : f.valueOf answer = some v) : Settings.IsLeaf v := by
  obtain ⟨name, kind, prompt, destination⟩ := f
  intro members hobject
  rw [hobject] at h
  cases kind with
  | text default => cases h
  | yesNo default => cases h
  | oneOf choices default =>
    obtain ⟨choice, -, hchoice⟩ := Option.map_eq_some_iff.mp h
    cases hchoice
  | anyOf choices default => cases h

/-- What is put for a field is no object. -/
theorem isLeaf_of_mem_puts {events : List Event} {fields : List Field} {p : String × Json}
    (h : p ∈ puts (fillings world events fields)) : Settings.IsLeaf p.2 := by
  obtain ⟨x, hx, hp⟩ := List.mem_filterMap.mp h
  obtain ⟨v, hv, rfl⟩ := Option.map_eq_some_iff.mp hp
  obtain ⟨answer, hanswer⟩ := answer_of_mem_fillings hx
  exact isLeaf_of_valueOf (hanswer.symm.trans hv)

end Scaffolding.Schema
