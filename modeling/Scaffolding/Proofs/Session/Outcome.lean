import Scaffolding.Session.Basic

/-!
# What comes of an attempt

An attempt in a world has a result and leaves a session. The laws here say what comes of attempts one
after the other: the second one goes on with the result and the session of the first, and a failure
ends the row with the session as it is. What touches the world by itself never fails; it leaves one
more event, and only a command or a change of files touches the files.
-/

set_option autoImplicit false

namespace Scaffolding

variable {α β : Type} {world : World} {s s' : Session}

/-- The result of an attempt in a world, and the session after it. -/
def outcome (attempt : Attempt α) (world : World) (s : Session) : Except Failure α × Session :=
  (attempt.run.run world).run s

/-- The next attempt goes on with the result and the session of the one before. -/
theorem outcome_bind (attempt : Attempt α) (next : α → Attempt β) :
    outcome (attempt >>= next) world s =
      match outcome attempt world s with
      | (.ok x, s) => outcome (next x) world s
      | (.error f, s) => (.error f, s) := by
  unfold outcome
  simp only [ExceptT.run_bind, ReaderT.run_bind, StateT.run_bind]
  rcases (attempt.run.run world).run s with ⟨x | f, s'⟩ <;> rfl

/-- A row of two attempts ends with a failure of the first one, or with what comes of the second. -/
theorem outcome_bind_cases {attempt : Attempt α} {next : α → Attempt β} {r : Except Failure β}
    (h : outcome (attempt >>= next) world s = (r, s')) :
    (∃ f, outcome attempt world s = (.error f, s') ∧ r = .error f) ∨
      ∃ x s₁, outcome attempt world s = (.ok x, s₁) ∧ outcome (next x) world s₁ = (r, s') := by
  rw [outcome_bind] at h
  rcases ha : outcome attempt world s with ⟨f | x, s₁⟩
  · rw [ha] at h
    cases h
    exact .inl ⟨f, rfl, rfl⟩
  · rw [ha] at h
    exact .inr ⟨x, s₁, rfl, h⟩

/-- A handler goes on where an attempt failed, with the session as the failure left it. -/
theorem outcome_tryCatch (attempt : Attempt α) (handler : Failure → Attempt α) :
    outcome (tryCatch attempt handler) world s =
      match outcome attempt world s with
      | (.ok x, s) => (.ok x, s)
      | (.error f, s) => outcome (handler f) world s := by
  unfold outcome
  rw [ExceptT.run_tryCatch]
  simp only [ReaderT.run_bind, StateT.run_bind]
  rcases (attempt.run.run world).run s with ⟨x | f, s'⟩ <;> rfl

/-- A result that is a failure only of one of these classes. -/
def FailsOnly (kinds : List Failure.Kind) (r : Except Failure α) : Prop :=
  ∀ f, r = .error f → f.kind ∈ kinds

/-- A success fails in no way. -/
@[simp] theorem failsOnly_ok {kinds : List Failure.Kind} {x : α} :
    FailsOnly kinds (.ok x : Except Failure α) := by
  simp [FailsOnly]

/-- A failure is of some kinds if its own is among them. -/
@[simp] theorem failsOnly_error {kinds : List Failure.Kind} {f : Failure} :
    FailsOnly kinds (.error f : Except Failure α) ↔ f.kind ∈ kinds := by
  simp [FailsOnly]

/-- More kinds may be allowed. -/
theorem FailsOnly.mono {kinds more : List Failure.Kind} {r : Except Failure α}
    (h : FailsOnly kinds r) (hmore : kinds ⊆ more) : FailsOnly more r :=
  fun f hf => hmore (h f hf)

/-- A result that is there is a success. -/
theorem toOption_eq_some_iff {ε : Type} {r : Except ε α} {x : α} :
    r.toOption = some x ↔ r = .ok x := by
  cases r <;> simp [Except.toOption]

/-! ## Touching the world -/

/-- The session with more events and the same files. -/
def Session.recordAll (events : List Event) (s : Session) : Session :=
  { s with events := s.events ++ events }

/-- No events change nothing. -/
@[simp] theorem Session.recordAll_nil : s.recordAll [] = s := by
  simp [Session.recordAll]

/-- Events are noted after those before. -/
@[simp] theorem Session.events_recordAll (events : List Event) :
    (s.recordAll events).events = s.events ++ events :=
  rfl

/-- Noting events leaves the files alone. -/
@[simp] theorem Session.files_recordAll (events : List Event) :
    (s.recordAll events).files = s.files :=
  rfl

/-- Events are noted one after the other. -/
@[simp] theorem Session.recordAll_record (event : Event) (events : List Event) :
    (s.record event).recordAll events = s.recordAll (event :: events) := by
  simp [Session.recordAll, Session.record]

/-- A command is noted, and the reply goes to what is next. -/
theorem outcome_run_bind (call : Tool.Command) (next : Tool.Reply → Attempt β) :
    outcome (Session.run call >>= next) world s =
      outcome (next (world.run s.events s.files call).1) world
        ⟨s.events ++ [.ran call], (world.run s.events s.files call).2⟩ :=
  rfl

/-- A request is noted, and what becomes of it goes to what is next. -/
theorem outcome_send_bind (request : Remote.Request) (next : Remote.Delivery → Attempt β) :
    outcome (Session.send request >>= next) world s =
      outcome (next (world.send s.events request)) world (s.record (.sent request)) :=
  rfl

/-- A question is noted, and the answer goes to what is next. -/
theorem outcome_ask_bind (question : Question)
    (next : Except SystemError (Option question.Answer) → Attempt β) :
    outcome (Session.ask question >>= next) world s =
      outcome (next (world.ask s.events question)) world (s.record (.asked question)) :=
  rfl

/-- A confirmation is noted, and the answer goes to what is next. -/
theorem outcome_confirm_bind (template : String) (rows : List (String × String))
    (next : Except SystemError Bool → Attempt β) :
    outcome (Session.confirm template rows >>= next) world s =
      outcome (next (world.confirm s.events template rows)) world
        (s.record (.confirmed template rows)) :=
  rfl

/-- A change is what the files make of it, whatever the world is. -/
theorem outcome_change_bind (deed : Deed) (next : Except SystemError Unit → Attempt β) :
    outcome (Session.change deed >>= next) world s =
      outcome (next (deed.step.run s.files).1) world
        ⟨s.events ++ [.changed deed], (deed.step.run s.files).2⟩ :=
  rfl

/-! ## A steady world -/

/-- A world that never changes its mind: no command can be started, every request is answered by the
same body, every question by the answer for it, and the user always agrees to go on. -/
def World.steady (body : String) (answer : (question : Question) → Option question.Answer) :
    World where
  run _ files _ := (.error ⟨.notFound, "No such file or directory (os error 2)"⟩, files)
  send _ _ := .answered 200 body
  ask _ question := .ok (answer question)
  confirm _ _ _ := .ok true

end Scaffolding
