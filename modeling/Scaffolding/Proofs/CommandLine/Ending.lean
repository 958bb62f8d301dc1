import Scaffolding.CommandLine.Run
import Scaffolding.Proofs.Scaffold.Parts

/-!
# How a command ends

A task ends in a world with a result or a problem, and leaves a session. Tasks one after the other go
on as attempts do, and an attempt is a task whose failure is a problem. What the program prints is
read off from how its task ends.
-/

set_option autoImplicit false

namespace Scaffolding.CommandLine

variable {α β : Type} {world : World} {s s' : Session}

/-- The result of a task in a world or its problem, and the session after it. -/
def ending (task : Task α) (world : World) (s : Session) : Except Problem α × Session :=
  (task.run.run world).run s

/-- A task and the one after it end as the second one does, unless the first one fails. -/
theorem ending_bind (task : Task α) (next : α → Task β) :
    ending (task >>= next) world s =
      match ending task world s with
      | (.ok x, s) => ending (next x) world s
      | (.error p, s) => (.error p, s) := by
  unfold ending
  simp only [ExceptT.run_bind, ReaderT.run_bind, StateT.run_bind]
  rcases (task.run.run world).run s with ⟨x | p, s'⟩ <;> rfl

/-- A row of two tasks ends with a problem of the first one, or as the second one does. -/
theorem ending_bind_cases {task : Task α} {next : α → Task β} {r : Except Problem β}
    (h : ending (task >>= next) world s = (r, s')) :
    (∃ p, ending task world s = (.error p, s') ∧ r = .error p) ∨
      ∃ x s₁, ending task world s = (.ok x, s₁) ∧ ending (next x) world s₁ = (r, s') := by
  rw [ending_bind] at h
  rcases ht : ending task world s with ⟨p | x, s₁⟩
  · rw [ht] at h
    cases h
    exact .inl ⟨p, rfl, rfl⟩
  · rw [ht] at h
    exact .inr ⟨x, s₁, rfl, h⟩

/-- A task that attempts an action ends with the outcome of the action. -/
theorem ending_attempt (action : Attempt α) :
    ending (attempt action) world s =
      ((outcome action world s).1.mapError .failure, (outcome action world s).2) :=
  rfl

/-- Such a task succeeds exactly if the action does. -/
theorem ending_attempt_eq_ok_iff {action : Attempt α} {x : α} :
    ending (attempt action) world s = (.ok x, s') ↔ outcome action world s = (.ok x, s') := by
  constructor
  · intro h
    rw [ending_attempt] at h
    rcases houtcome : outcome action world s with ⟨f | y, s₁⟩
    · rw [houtcome] at h
      cases h
    · rw [houtcome] at h
      cases h
      rfl
  · intro h
    rw [ending_attempt, h]
    rfl

/-- It fails only if the action does. -/
theorem ending_attempt_eq_error {action : Attempt α} {p : Problem}
    (h : ending (attempt action) world s = (.error p, s')) :
    ∃ f, outcome action world s = (.error f, s') := by
  rw [ending_attempt] at h
  rcases houtcome : outcome action world s with ⟨f | y, s₁⟩
  · rw [houtcome] at h
    cases h
    exact ⟨f, rfl⟩
  · rw [houtcome] at h
    cases h

/-- Looking at the files gives them to the next task and changes nothing. -/
theorem ending_look_bind (next : Files → Task β) :
    ending ((Session.look : Action Files) >>= fun files => next files) world s =
      ending (next s.files) world s :=
  rfl

/-- A question that the world fails ends the task with the error. -/
theorem ending_ask_error {question : Question} {e : SystemError}
    (h : world.ask s.events question = .error e) :
    ending (ask question) world s = (.error (.unanswered e), s.record (.asked question)) := by
  have hrun : ending (Session.ask question : Action _) world s =
      (.ok (world.ask s.events question), s.record (.asked question)) := rfl
  unfold ask
  rw [ending_bind, hrun, h]
  rfl

/-- What the program prints in a world, and the session that it leaves. -/
def printedBy (env : Environment) (args : List String) (world : World) (s : Session) :
    Printed × Session :=
  ((run env args).run world).run s

/-- The program prints what its task comes to, or a report of the problem. -/
theorem printedBy_of_read (env : Environment) {args : List String} {arguments : Arguments}
    (h : read args = .ok arguments) (world : World) (s : Session) :
    printedBy env args world s =
      match ending (perform env arguments) world s with
      | (.ok printed, s) => (printed, s)
      | (.error p, s) => (⟨1, "", p.report⟩, s) := by
  unfold printedBy run ending
  rw [h]
  simp only [ReaderT.run_bind, StateT.run_bind]
  rcases ((perform env arguments).run.run world).run s with ⟨x | p, s'⟩ <;> rfl

end Scaffolding.CommandLine
