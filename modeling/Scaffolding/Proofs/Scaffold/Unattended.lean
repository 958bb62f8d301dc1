import Scaffolding.Proofs.Scaffold.Course
import Scaffolding.Proofs.Schema.Filling
import Scaffolding.Proofs.Session.Spared

/-!
# Scaffolding without a user

Where nobody answers, a run of scaffolding gets to the build exactly if it was agreed to beforehand
and the schema, if there is one, has no fields. Then it is built without settings. Otherwise the run
fails, and nothing is done.
-/

set_option autoImplicit false

namespace Scaffolding.Scaffold

open Session (Spared RanOnly)

variable {source : Source} {t : Template} {choice : Choice} {world : World} {s s' : Session}

/-- Preparing a template spares the session. -/
theorem spared_prepare {r : Except Failure (Option Schema)}
    (h : outcome (prepare source t) world s = (r, s')) : Spared world s s' := by
  obtain ⟨⟨requests, rfl, -⟩, -⟩ := outcome_prepare h
  apply (Spared.probed t.builder).trans
  apply Spared.recordAll
  intro e he
  obtain ⟨request, -, rfl⟩ := List.mem_map.mp he
  trivial

/-- Collecting settings spares it when nobody answers. -/
theorem spared_collect {schema : Schema} {r : Except Failure Settings}
    (h : outcome schema.collect world s = (r, s')) : Spared world s s' := by
  obtain ⟨⟨questions, -, rfl⟩, -⟩ := outcome_collect h
  apply Spared.recordAll
  intro e he
  obtain ⟨question, -, rfl⟩ := List.mem_map.mp he
  trivial

/-- Asking for consent spares it. -/
theorem spared_consent {settings : Settings} {r : Except Failure Unit}
    (h : outcome (consent t choice settings) world s = (r, s')) : Spared world s s' := by
  obtain ⟨rfl, -⟩ := outcome_consent h
  apply Spared.recordAll
  intro e he
  obtain ⟨rows, -, rfl⟩ := List.mem_map.mp he
  trivial

variable (hworld : world.Unattended)

include hworld

/-- Settings are collected only where there is nothing to ask, and then there are none. -/
theorem collect_unattended {schema : Schema} {settings : Settings}
    (h : outcome schema.collect world s = (.ok settings, s')) :
    schema.fields = [] ∧ settings = .empty := by
  have hok : (outcome schema.collect world s).1 = .ok settings := by
    rw [h]
  obtain ⟨hfilled, hsettings⟩ := (Schema.outcome_collect_eq_ok_iff schema settings).mp hok
  have hnone : Schema.fillings world s.events schema.fields = [] := by
    cases hfields : schema.fields with
    | nil => rfl
    | cons f rest =>
      obtain ⟨e, he⟩ := hworld.ask s.events f.question
      exact Schema.fillings_cons_error he rest
  rw [hnone] at hfilled hsettings
  exact ⟨hfilled.symm, hsettings⟩

/-- Without anybody to ask, whoever consents has agreed before. -/
theorem consent_unattended {settings : Settings}
    (h : outcome (consent t choice settings) world s = (.ok (), s')) : choice.agreed = true := by
  obtain ⟨-, hyes, -⟩ := outcome_consent h
  rcases hyes rfl with hagreed | hconfirmed
  · exact hagreed
  · obtain ⟨e, he⟩ := hworld.confirm s.events t.name settings.rows
    rw [he] at hconfirmed
    cases hconfirmed

/-- Where nobody answers, a build was agreed to beforehand and has no settings, and runs the command
of the builder. -/
theorem build_unattended {schema : Option Schema} {settings : Settings} {r : Except Failure Unit}
    {s₁ s₂ s₃ s₄ : Session} (prepared : outcome (prepare source t) world s = (.ok schema, s₁))
    (collected : outcome (schema.getD .empty).collect world s₁ = (.ok settings, s₂))
    (agreed : outcome (consent t choice settings) world s₂ = (.ok (), s₃))
    (built : outcome (t.builder.build t.descriptor (t.builder.encode settings) choice.output) world
      s₃ = (r, s₄)) :
    choice.agreed = true ∧ (schema.getD .empty).fields = [] ∧
      RanOnly (t.builder.command t.descriptor .empty choice.output) s s₄ := by
  obtain ⟨hfields, rfl⟩ := collect_unattended hworld collected
  have hagreed := consent_unattended hworld agreed
  obtain ⟨⟨work, hwork, hown⟩, -⟩ := Builder.outcome_build built
  have hran : RanOnly (t.builder.command t.descriptor .empty choice.output) s₃ s₄ := by
    refine ⟨work, hwork, ?_⟩
    intro other hother
    rcases hown.effects _ hother with heq | ⟨deed, heq⟩
    · cases heq
      exact .inr rfl
    · cases heq
  have hspared := (spared_prepare prepared).trans
    ((spared_collect collected).trans (spared_consent agreed))
  exact ⟨hagreed, hfields, hspared.ranOnly hran⟩

/-- Where nobody answers, a course ends in a failure with nothing done, or everything it takes to
build without a question was there. -/
theorem Course.unattended {stages : List Stage} {result : Except Failure Bool}
    (h : Course source t choice world s stages result s') :
    (∃ f, result = .error f) ∧ Spared world s s' ∨
      choice.agreed = true ∧
        (∃ schema, (outcome (prepare source t) world s).1 = .ok schema ∧
          (schema.getD .empty).fields = []) ∧
        RanOnly (t.builder.command t.descriptor .empty choice.output) s s' := by
  cases h with
  | @unprepared f _ prepared => exact .inl ⟨⟨f, rfl⟩, spared_prepare prepared⟩
  | @uncollected _ f _ _ prepared collected =>
    exact .inl ⟨⟨f, rfl⟩, (spared_prepare prepared).trans (spared_collect collected)⟩
  | @refused _ _ f _ _ _ prepared collected agreed =>
    have hspared := (spared_collect collected).trans (spared_consent agreed)
    exact .inl ⟨⟨f, rfl⟩, (spared_prepare prepared).trans hspared⟩
  | @unbuilt schema _ _ _ _ _ _ prepared collected agreed built =>
    obtain ⟨hagreed, hfields, hran⟩ := build_unattended hworld prepared collected agreed built
    exact .inr ⟨hagreed, ⟨schema, by rw [prepared], hfields⟩, hran⟩
  | @built schema _ _ _ _ _ prepared collected agreed built =>
    obtain ⟨hagreed, hfields, hran⟩ := build_unattended hworld prepared collected agreed built
    exact .inr ⟨hagreed, ⟨schema, by rw [prepared], hfields⟩, hran⟩

omit hworld

/-- A course on which there is nothing to ask, and which was agreed to beforehand, gets to the
build. -/
theorem Course.gets_to_build {stages : List Stage} {result : Except Failure Bool}
    {schema : Option Schema} (h : Course source t choice world s stages result s')
    (hagreed : choice.agreed = true) (hschema : (outcome (prepare source t) world s).1 = .ok schema)
    (hfields : (schema.getD .empty).fields = []) :
    ∃ s₁, Spared world s s₁ ∧ s' = (outcome (t.builder.build t.descriptor
      (t.builder.encode .empty) choice.output) world s₁).2 := by
  have hcollect : ∀ s₁, outcome (schema.getD .empty).collect world s₁ = (.ok .empty, s₁) := by
    intro s₁
    unfold Schema.collect
    rw [hfields]
    rfl
  have hconsent : ∀ settings s₁, outcome (consent t choice settings) world s₁ = (.ok (), s₁) := by
    intro settings s₁
    unfold consent
    rw [if_pos hagreed]
    rfl
  cases h with
  | unprepared prepared =>
    rw [prepared] at hschema
    cases hschema
  | uncollected prepared collected =>
    rw [prepared] at hschema
    cases hschema
    rw [hcollect] at collected
    cases collected
  | refused prepared collected agreed =>
    rw [hconsent] at agreed
    cases agreed
  | unbuilt prepared collected agreed built =>
    rw [prepared] at hschema
    cases hschema
    rw [hcollect] at collected
    cases collected
    rw [hconsent] at agreed
    cases agreed
    exact ⟨_, spared_prepare prepared, by rw [built]⟩
  | built prepared collected agreed built =>
    rw [prepared] at hschema
    cases hschema
    rw [hcollect] at collected
    cases collected
    rw [hconsent] at agreed
    cases agreed
    exact ⟨_, spared_prepare prepared, by rw [built]⟩

end Scaffolding.Scaffold
