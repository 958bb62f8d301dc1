import Scaffolding.Proofs.Schema.Choice

/-!
# Accepting the default

The default that is shown with a question is the value that its field takes without an answer. It makes
no difference whether a user accepts what is shown or answers nothing, for one field or for any of them:
the questions that follow are the same, and so are the settings in the end, or the failure.

This rests on the schema being read from a document, since an answer that is no choice does not count
and a default always does.
-/

set_option autoImplicit false

namespace Scaffolding

namespace Question

/-- The answer that is shown with a question as its default, if there is one. -/
def shown? : (question : Question) → Option question.Answer
  | input _ default => default
  | confirm _ default => some default
  | select _ _ default => default
  | multiselect _ _ defaults => some defaults

/-- Replies to a question that are the same, or of which one is the default that is shown and the other
one is no answer. -/
inductive Alike (question : Question) :
    Except SystemError (Option question.Answer) → Except SystemError (Option question.Answer) → Prop
  | same (reply : Except SystemError (Option question.Answer)) : Alike question reply reply
  | accepted {default : question.Answer} (h : question.shown? = some default) :
      Alike question (.ok (some default)) (.ok none)
  | passed {default : question.Answer} (h : question.shown? = some default) :
      Alike question (.ok none) (.ok (some default))

/-- Accepting the default that is shown is like giving no answer. -/
theorem alike_shown?_none (question : Question) :
    question.Alike (.ok question.shown?) (.ok none) := by
  cases h : question.shown? with
  | none => exact .same (.ok none)
  | some default => exact .accepted h

end Question

/-- Worlds in which the user answers alike, whatever happened before. -/
def World.AnswersLike (world world' : World) : Prop :=
  ∀ (events : List Event) (question : Question),
    question.Alike (world.ask events question) (world'.ask events question)

namespace Schema

variable {world world' : World}

/-- The default of a sound question gives the value that no answer gives. -/
theorem Kind.valueOf_shown {kind : Kind} {prompt : String} (hsound : (kind.question prompt).Sound)
    {default : (kind.question prompt).Answer}
    (h : (kind.question prompt).shown? = some default) :
    kind.valueOf prompt (some default) = kind.valueOf prompt none := by
  cases kind with
  | text shown =>
    change String at default
    obtain rfl : shown = some default := h
    -- an empty default counts as no answer and is taken as the default all the same
    by_cases hempty : default = ""
    · subst hempty
      rfl
    · simp [Kind.valueOf, Option.filter, hempty]
  | yesNo shown =>
    obtain rfl : shown.getD false = default := Option.some.inj h
    rfl
  | oneOf choices shown =>
    change String at default
    obtain rfl : shown = some default := h
    have hchoice : default ∈ choices := hsound.2 default rfl
    simp [Kind.valueOf, Option.filter, hchoice]
  | anyOf choices shown =>
    obtain rfl : shown = default := Option.some.inj h
    have hchoices : ∀ d ∈ shown, d ∈ choices := hsound.2
    have hkept : shown.filter choices.contains = shown := by
      rw [List.filter_eq_self]
      intro d hd
      simpa using hchoices d hd
    change some (Json.ofTexts (shown.filter choices.contains)) = some (Json.ofTexts shown)
    rw [hkept]

/-- One field makes of replies that are alike the same settings. -/
theorem outcome_askField_of_alike {f : Field} (hsound : f.question.Sound) {s : Session}
    (h : f.question.Alike (world.ask s.events f.question) (world'.ask s.events f.question))
    (settings : Settings) :
    outcome (askField settings f) world s = outcome (askField settings f) world' s := by
  generalize hreply : world.ask s.events f.question = reply at h
  generalize hreply' : world'.ask s.events f.question = reply' at h
  cases h with
  | same =>
    rw [askField, outcome_ask_bind, outcome_ask_bind, hreply, hreply']
    cases reply with
    | error e => rfl
    | ok answer =>
      dsimp only
      cases f.valueOf answer <;> rfl
  | accepted h =>
    have hvalue : f.valueOf (some _) = f.valueOf none := Kind.valueOf_shown hsound h
    rw [outcome_askField_ok hreply, outcome_askField_ok hreply', hvalue]
  | passed h =>
    have hvalue : f.valueOf (some _) = f.valueOf none := Kind.valueOf_shown hsound h
    rw [outcome_askField_ok hreply, outcome_askField_ok hreply', hvalue]

/-- Sound fields, one after the other: what was asked stays the same, so that the replies are alike up
to the last one. -/
theorem outcome_askFields_of_alike (h : world.AnswersLike world') {fields : List Field}
    (hsound : ∀ f ∈ fields, f.question.Sound) (settings : Settings) (s : Session) :
    outcome (fields.foldlM askField settings) world s =
      outcome (fields.foldlM askField settings) world' s := by
  induction fields generalizing settings s with
  | nil => rfl
  | cons f rest ih =>
    have hfield := outcome_askField_of_alike (hsound f List.mem_cons_self)
      (h s.events f.question) settings
    rw [List.foldlM_cons, outcome_bind, outcome_bind, hfield]
    rcases outcome (askField settings f) world' s with ⟨e | next, s'⟩
    · rfl
    · exact ih (fun g hg => hsound g (List.mem_cons_of_mem f hg)) next s'

/-- For a schema that was read from a document, two users who answer alike, except that on any questions
one of them accepts the default that is shown where the other one gives no answer, end with the same
settings or the same failure, after the same questions. -/
theorem collect_of_alike {text : String} {schema : Schema} (hread : read text = .ok schema)
    {world world' : World} (h : world.AnswersLike world') (s : Session) :
    outcome schema.collect world s = outcome schema.collect world' s :=
  outcome_askFields_of_alike h (fun _ hf => sound_of_mem_fields hread hf) .empty s

/-- A document with an empty default, defaults for many choices under a path that overlaps with it, and
a field of yes or no without a default. -/
def overlap : String :=
  "a: \x7bdefault: '', option: x.y\x7d\n" ++
    "b: \x7btype: checkbox, list: [p, q], default: [q, z], option: x\x7d\n" ++
      "c: \x7btype: confirm\x7d"

def overlapping : Schema where
  fields := [⟨"a", .text (some ""), "a", "x.y"⟩, ⟨"b", .anyOf ["p", "q"] ["q"], "b", "x"⟩,
    ⟨"c", .yesNo none, "c", "c"⟩]
  skipped := []

/-- A user who accepts all that is shown. -/
def accepting : World :=
  .steady "" Question.shown?

/-- A user who answers nothing. -/
def silent : World :=
  .steady "" fun _ => none

/-- Accepting every default and answering nothing come to the same, also for fields with one
destination. -/
theorem collect_of_alike_overlapping :
    read overlap = .ok overlapping ∧ accepting.AnswersLike silent ∧
      outcome overlapping.collect accepting ⟨[], default⟩ =
        outcome overlapping.collect silent ⟨[], default⟩ := by
  have hread : read overlap = .ok overlapping := by
    rw [← toOption_eq_some_iff]
    decide +kernel
  have halike : accepting.AnswersLike silent := fun _ question => question.alike_shown?_none
  exact ⟨hread, halike, collect_of_alike hread halike _⟩

end Schema

end Scaffolding
