import Mathlib.Data.List.Forall2
import Scaffolding.Proofs.Session.Outcome

/-!
# Sessions that differ in a token only

Two sessions are twins for two tokens if the same things happened in both, except that each request
of the one shows the first token where its twin of the other shows the second one. Two worlds are
twins if they answer everything alike after what are twins so far; they may not tell the tokens apart.

Two attempts are veiled if in twin worlds, from twin sessions, they come to the same result and leave
twin sessions. Doing nothing is veiled from itself, so is touching the world, and veiled attempts one
after the other are veiled: an attempt that never looks at its token is so by its build alone.
-/

set_option autoImplicit false

namespace Scaffolding

/-- Requests that are the same, except that each shows a token of its own behind the same
credentials. -/
structure Remote.Request.Twin (a b : String) (r r' : Remote.Request) : Prop where
  url : r'.url = r.url
  accept : r'.accept = r.accept
  agent : r'.agent = r.agent
  authorization : ∃ credentials : List String,
    r.authorization = credentials ++ [Remote.bearerCredential a] ∧
      r'.authorization = credentials ++ [Remote.bearerCredential b]

/-- Events that are the same, or requests that are twins. -/
inductive Event.Twin (a b : String) : Event → Event → Prop
  | ran (call : Tool.Command) : Twin a b (.ran call) (.ran call)
  | sent {r r' : Remote.Request} (h : r.Twin a b r') : Twin a b (.sent r) (.sent r')
  | asked (question : Question) : Twin a b (.asked question) (.asked question)
  | confirmed (template : String) (rows : List (String × String)) :
      Twin a b (.confirmed template rows) (.confirmed template rows)
  | changed (deed : Deed) : Twin a b (.changed deed) (.changed deed)

/-- Sessions in which the same happened but for the token, and with the same files. -/
structure Session.Twin (a b : String) (s s' : Session) : Prop where
  events : List.Forall₂ (Event.Twin a b) s.events s'.events
  files : s'.files = s.files

/-- Worlds that answer alike whatever twins happened before. -/
structure World.Twin (a b : String) (world world' : World) : Prop where
  run : ∀ events events' files call, List.Forall₂ (Event.Twin a b) events events' →
    world'.run events' files call = world.run events files call
  send : ∀ events events' request request', List.Forall₂ (Event.Twin a b) events events' →
    request.Twin a b request' → world'.send events' request' = world.send events request
  ask : ∀ events events' question, List.Forall₂ (Event.Twin a b) events events' →
    world'.ask events' question = world.ask events question
  confirm : ∀ events events' template rows, List.Forall₂ (Event.Twin a b) events events' →
    world'.confirm events' template rows = world.confirm events template rows

/-- A world that never changes its mind does not tell tokens apart. -/
theorem World.twin_steady (a b body : String)
    (answer : (question : Question) → Option question.Answer) :
    (World.steady body answer).Twin a b (.steady body answer) :=
  ⟨fun _ _ _ _ _ => rfl, fun _ _ _ _ _ _ => rfl, fun _ _ _ _ => rfl, fun _ _ _ _ _ => rfl⟩

variable {a b : String}

/-- Before anything happens there is nothing to tell sessions apart. -/
theorem Session.twin_empty (files : Files) : Session.Twin a b ⟨[], files⟩ ⟨[], files⟩ :=
  ⟨.nil, rfl⟩

/-- Twin events keep sessions twins. -/
theorem Session.Twin.append {s s' : Session} {events events' : List Event} {files files' : Files}
    (h : s.Twin a b s') (hevents : List.Forall₂ (Event.Twin a b) events events')
    (hfiles : files' = files) :
    Session.Twin a b ⟨s.events ++ events, files⟩ ⟨s'.events ++ events', files'⟩ :=
  ⟨List.rel_append h.events hevents, hfiles⟩

/-- So does one of them. -/
theorem Session.Twin.record {s s' : Session} {e e' : Event} (h : s.Twin a b s')
    (he : e.Twin a b e') : Session.Twin a b (s.record e) (s'.record e') :=
  h.append (.cons he .nil) h.files

/-- Attempts that come to the same result in twin worlds, and leave twin sessions. -/
def Veiled {α : Type} (a b : String) (x y : Attempt α) : Prop :=
  ∀ ⦃world world' : World⦄, world.Twin a b world' → ∀ ⦃s s' : Session⦄, s.Twin a b s' →
    ∃ r t t', outcome x world s = (r, t) ∧ outcome y world' s' = (r, t') ∧ t.Twin a b t'

namespace Veiled

variable {α β : Type}

/-- A result is the same on both sides. -/
theorem pure (v : α) : Veiled a b (Pure.pure v) (Pure.pure v) := by
  intro world world' hworld s s' hs
  exact ⟨.ok v, s, s', rfl, rfl, hs⟩

/-- So is a failure. -/
theorem throw (f : Failure) : Veiled a b (throw f : Attempt α) (MonadExcept.throw f) := by
  intro world world' hworld s s' hs
  exact ⟨.error f, s, s', rfl, rfl, hs⟩

/-- Actions that come to the same can be followed by others that do. -/
theorem bind {x y : Attempt α} {f g : α → Attempt β} (hx : Veiled a b x y)
    (hf : ∀ v, Veiled a b (f v) (g v)) : Veiled a b (x >>= f) (y >>= g) := by
  intro world world' hworld s s' hs
  obtain ⟨r, t, t', hxr, hyr, ht⟩ := hx hworld hs
  rw [outcome_bind, outcome_bind, hxr, hyr]
  cases r with
  | error e => exact ⟨.error e, t, t', rfl, rfl, ht⟩
  | ok v => exact hf v hworld ht

/-- Failures are handled alike. -/
theorem tryCatch {x y : Attempt α} {f g : Failure → Attempt α} (hx : Veiled a b x y)
    (hf : ∀ e, Veiled a b (f e) (g e)) :
    Veiled a b (MonadExcept.tryCatch x f) (MonadExcept.tryCatch y g) := by
  intro world world' hworld s s' hs
  obtain ⟨r, t, t', hxr, hyr, ht⟩ := hx hworld hs
  rw [outcome_tryCatch, outcome_tryCatch, hxr, hyr]
  cases r with
  | error e => exact hf e hworld ht
  | ok v => exact ⟨.ok v, t, t', rfl, rfl, ht⟩

/-! ## Touching the world -/

/-- A command comes to the same. -/
theorem run_bind {call : Tool.Command} {f g : Tool.Reply → Attempt β}
    (hf : ∀ reply, Veiled a b (f reply) (g reply)) :
    Veiled a b (Session.run call >>= f) (Session.run call >>= g) := by
  intro world world' hworld s s' hs
  rw [outcome_run_bind, outcome_run_bind, hs.files, hworld.run _ _ _ _ hs.events]
  apply hf _ hworld
  exact hs.append (.cons (.ran call) .nil) rfl

/-- Requests that differ in the token alone come to the same. -/
theorem send_bind {request request' : Remote.Request} (hrequest : request.Twin a b request')
    {f g : Remote.Delivery → Attempt β} (hf : ∀ delivery, Veiled a b (f delivery) (g delivery)) :
    Veiled a b (Session.send request >>= f) (Session.send request' >>= g) := by
  intro world world' hworld s s' hs
  rw [outcome_send_bind, outcome_send_bind, hworld.send _ _ _ _ hs.events hrequest]
  exact hf _ hworld (hs.record (.sent hrequest))

/-- A question comes to the same. -/
theorem ask_bind {question : Question}
    {f g : Except SystemError (Option question.Answer) → Attempt β}
    (hf : ∀ answer, Veiled a b (f answer) (g answer)) :
    Veiled a b (Session.ask question >>= f) (Session.ask question >>= g) := by
  intro world world' hworld s s' hs
  rw [outcome_ask_bind, outcome_ask_bind, hworld.ask _ _ _ hs.events]
  exact hf _ hworld (hs.record (.asked question))

/-- A confirmation comes to the same. -/
theorem confirm_bind {template : String} {rows : List (String × String)}
    {f g : Except SystemError Bool → Attempt β} (hf : ∀ answer, Veiled a b (f answer) (g answer)) :
    Veiled a b (Session.confirm template rows >>= f) (Session.confirm template rows >>= g) := by
  intro world world' hworld s s' hs
  rw [outcome_confirm_bind, outcome_confirm_bind, hworld.confirm _ _ _ _ hs.events]
  exact hf _ hworld (hs.record (.confirmed template rows))

/-- A change of the files comes to the same. -/
theorem change_bind {deed : Deed} {f g : Except SystemError Unit → Attempt β}
    (hf : ∀ done, Veiled a b (f done) (g done)) :
    Veiled a b (Session.change deed >>= f) (Session.change deed >>= g) := by
  intro world world' hworld s s' hs
  rw [outcome_change_bind, outcome_change_bind, hs.files]
  apply hf _ hworld
  exact hs.append (.cons (.changed deed) .nil) rfl

/-- A loop over a list is veiled if each of its rounds is. -/
theorem foldlM {γ : Type} {f : β → γ → Attempt β} (hf : ∀ v x, Veiled a b (f v x) (f v x))
    (xs : List γ) (v : β) : Veiled a b (xs.foldlM f v) (xs.foldlM f v) := by
  induction xs generalizing v with
  | nil => exact pure v
  | cons x xs ih =>
    rw [List.foldlM_cons]
    exact (hf v x).bind ih

end Veiled

end Scaffolding
