import Scaffolding.Proofs.Session.Outcome

/-!
# Prompts that cancel

The user is prompted by questions and by the request to go on. A prompt cancels what is being done if
the user interrupts it, or declines to go on. An interrupted question and a declined request come to
the same failure; an interrupted request comes to a failure with the text of the error.

Whether a prompt cancels depends on all that happened before it, so events are gone through in their
order: what was uncancelled so far has no cancelling prompt at any of its places.
-/

set_option autoImplicit false

namespace Scaffolding

/-- After some events, an event is a prompt that cancels with a failure. -/
inductive Cancels (world : World) (events : List Event) : Event → Failure → Prop
  | question {question : Question} {e : SystemError} (hfails : world.ask events question = .error e)
      (hkind : e.kind = .interrupted) : Cancels world events (.asked question) .cancelled
  | confirmation {template : String} {rows : List (String × String)} {e : SystemError}
      (hfails : world.confirm events template rows = .error e) (hkind : e.kind = .interrupted) :
      Cancels world events (.confirmed template rows) (.collection e.text)
  | declined {template : String} {rows : List (String × String)}
      (hanswer : world.confirm events template rows = .ok false) :
      Cancels world events (.confirmed template rows) .cancelled

/-- Events after others, none of which is a prompt that cancels. -/
inductive Uncancelled (world : World) : List Event → List Event → Prop
  | nil (start : List Event) : Uncancelled world start []
  | cons {start events : List Event} {e : Event} (hgoes : ∀ f, ¬ Cancels world start e f)
      (hrest : Uncancelled world (start ++ [e]) events) : Uncancelled world start (e :: events)

variable {world : World} {start before after : List Event} {prompt : Event} {f : Failure}

/-- What was not cancelled goes on without being cancelled. -/
theorem Uncancelled.append {events more : List Event} (h : Uncancelled world start events)
    (hmore : Uncancelled world (start ++ events) more) :
    Uncancelled world start (events ++ more) := by
  induction h with
  | nil => simpa using hmore
  | cons hgoes _ ih => exact .cons hgoes (ih (by simpa using hmore))

/-- Commands, requests and changes of files do not cancel. -/
theorem uncancelled_of_silent {events : List Event}
    (h : ∀ e ∈ events, ∀ start f, ¬ Cancels world start e f) : Uncancelled world start events := by
  induction events generalizing start with
  | nil => exact .nil start
  | cons e events ih =>
    rw [List.forall_mem_cons] at h
    exact .cons (h.1 start) (ih h.2)

/-- A prompt that cancels comes after what was uncancelled. -/
theorem Uncancelled.is_before {events rest : List Event} (h : Uncancelled world start events)
    (heq : events ++ rest = before ++ prompt :: after)
    (hcancels : Cancels world (start ++ before) prompt f) : ∃ more, before = events ++ more := by
  induction h generalizing before with
  | nil => exact ⟨before, rfl⟩
  | @cons start events e hgoes _ ih =>
    cases before with
    | nil =>
      cases heq
      rw [List.append_nil] at hcancels
      exact absurd hcancels (hgoes f)
    | cons b before =>
      obtain ⟨rfl, htail⟩ := List.cons_eq_cons.mp heq
      obtain ⟨more, rfl⟩ := ih htail (by simpa using hcancels)
      exact ⟨more, rfl⟩

namespace Session

variable {s s₁ s₂ : Session}

/-- Every prompt between two sessions was answered, and nobody declined. -/
def Answered (world : World) (s s' : Session) : Prop :=
  ∃ events, s'.events = s.events ++ events ∧ Uncancelled world s.events events

/-- Where nothing happens, nothing is cancelled. -/
theorem Answered.refl : Answered world s s :=
  ⟨[], by simp, .nil _⟩

/-- What was answered before and what is answered then was all answered. -/
theorem Answered.trans (h : Answered world s s₁) (h' : Answered world s₁ s₂) :
    Answered world s s₂ := by
  obtain ⟨events, hevents, huncancelled⟩ := h
  obtain ⟨more, hmore, hthen⟩ := h'
  refine ⟨events ++ more, by rw [hmore, hevents, List.append_assoc], huncancelled.append ?_⟩
  rwa [← hevents]

/-- An event that cancels nothing was answered. -/
theorem Answered.record {e : Event} (h : ∀ f, ¬ Cancels world s.events e f) :
    Answered world s (s.record e) :=
  ⟨[e], rfl, .cons h (.nil _)⟩

/-- No prompt that was answered cancels anything. -/
theorem Answered.not_cancels (h : Answered world s s₁)
    (hevents : s₁.events = s.events ++ (before ++ prompt :: after)) :
    ¬ Cancels world (s.events ++ before) prompt f := by
  intro hcancels
  obtain ⟨events, heq, huncancelled⟩ := h
  have hsame : events ++ [] = before ++ prompt :: after := by
    rw [List.append_nil]
    exact List.append_cancel_left (heq.symm.trans hevents)
  obtain ⟨more, rfl⟩ := huncancelled.is_before hsame hcancels
  have hlength := congrArg List.length hsame
  simp at hlength

/-- Where everything was answered but for the last event, only this one can cancel. -/
theorem Answered.eq_last (h : Answered world s s₁) {last : Event}
    (hevents : s₁.events ++ [last] = s.events ++ (before ++ prompt :: after))
    (hcancels : Cancels world (s.events ++ before) prompt f) :
    after = [] ∧ Cancels world s₁.events last f := by
  obtain ⟨events, heq, huncancelled⟩ := h
  have hsame : events ++ [last] = before ++ prompt :: after := by
    rw [heq, List.append_assoc] at hevents
    exact List.append_cancel_left hevents
  obtain ⟨more, rfl⟩ := huncancelled.is_before hsame hcancels
  rw [List.append_assoc] at hsame
  have hlast := List.append_cancel_left hsame
  cases more with
  | nil =>
    cases hlast
    rw [List.append_nil, ← heq] at hcancels
    exact ⟨rfl, hcancels⟩
  | cons e more => simp at hlast

end Session

end Scaffolding
