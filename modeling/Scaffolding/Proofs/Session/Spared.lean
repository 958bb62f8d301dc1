import Scaffolding.Proofs.Scaffold.Parts
import Scaffolding.Template.Basic

/-!
# Sessions in which nothing is done

Asking, fetching and looking for Nix leave things as they are. Between two sessions in which nothing
else happened, nothing was built and no file was changed; such sessions can be put together. A world
in which nobody answers is one in which every question fails.
-/

set_option autoImplicit false

namespace Scaffolding

/-- Nobody answers: every question fails. -/
structure World.Unattended (world : World) : Prop where
  ask : ∀ events question, ∃ e, world.ask events question = .error e
  confirm : ∀ events template rows, ∃ e, world.confirm events template rows = .error e

/-- The command that looks for Nix, the only tool that is looked for. -/
def Builder.probe : Tool.Command :=
  Tool.versionQuery nix.tool

/-- A builder looks for a tool with one command at most. -/
theorem Builder.probes_subset (b : Builder) : b.probes ⊆ [probe] := by
  intro call hcall
  cases b with
  | nix => exact hcall
  | cookiecutter => cases hcall
  | gitRepo => cases hcall

/-- Events that leave things as they are: no file is changed, and no command runs but to look for
Nix. -/
def Event.IsHarmless : Event → Prop
  | ran call => call = Builder.probe
  | changed _ => False
  | _ => True

namespace Session

variable {world : World} {s s₁ s₂ : Session}

/-- Nothing was built or changed between two sessions. As the world decides what a command does to
the files, they are the same if looking for Nix leaves them alone. -/
structure Spared (world : World) (s s' : Session) : Prop where
  events : ∃ events, s'.events = s.events ++ events ∧ ∀ e ∈ events, e.IsHarmless
  files : (∀ events files, (world.run events files Builder.probe).2 = files) → s'.files = s.files

/-- A session in which nothing happens is spared. -/
theorem Spared.refl : Spared world s s :=
  ⟨⟨[], by simp⟩, fun _ => rfl⟩

/-- Spared twice is spared. -/
theorem Spared.trans (h : Spared world s s₁) (h' : Spared world s₁ s₂) : Spared world s s₂ := by
  obtain ⟨before, hbefore, hharmless⟩ := h.events
  obtain ⟨after, hafter, hharmless'⟩ := h'.events
  constructor
  · refine ⟨before ++ after, ?_, ?_⟩
    · rw [hafter, hbefore, List.append_assoc]
    · intro e he
      rcases List.mem_append.mp he with he | he
      · exact hharmless e he
      · exact hharmless' e he
  · intro hstill
    rw [h'.files hstill, h.files hstill]

/-- Harmless events spare a session. -/
theorem Spared.recordAll {events : List Event} (h : ∀ e ∈ events, e.IsHarmless) :
    Spared world s (s.recordAll events) :=
  ⟨⟨events, rfl, h⟩, fun _ => rfl⟩

/-- So does one of them. -/
theorem Spared.record {e : Event} (h : e.IsHarmless) : Spared world s (s.record e) :=
  ⟨⟨[e], rfl, by simpa using h⟩, fun _ => rfl⟩

/-- Looking for a tool spares a session. -/
theorem Spared.probed (b : Builder) : Spared world s (s.probed world b) := by
  constructor
  · refine ⟨b.probes.map .ran, s.events_probed b, ?_⟩
    intro e he
    obtain ⟨call, hcall, rfl⟩ := List.mem_map.mp he
    exact List.mem_singleton.mp (b.probes_subset hcall)
  · intro hstill
    unfold Session.probed
    split
    · next hb =>
      subst hb
      exact hstill _ _
    · rfl

/-- A command is the only one that ran between two sessions, but to look for Nix. -/
def RanOnly (call : Tool.Command) (s s' : Session) : Prop :=
  ∃ events, s'.events = s.events ++ events ∧
    ∀ other, .ran other ∈ events → other = Builder.probe ∨ other = call

/-- A command is the only one that counts if the session was spared before it. -/
theorem Spared.ranOnly {call : Tool.Command} (h : Spared world s s₁) (h' : RanOnly call s₁ s₂) :
    RanOnly call s s₂ := by
  obtain ⟨before, hbefore, hharmless⟩ := h.events
  obtain ⟨after, hafter, hran⟩ := h'
  refine ⟨before ++ after, ?_, ?_⟩
  · rw [hafter, hbefore, List.append_assoc]
  · intro other hother
    rcases List.mem_append.mp hother with hother | hother
    · exact .inl (hharmless _ hother)
    · exact hran other hother

end Session

end Scaffolding
