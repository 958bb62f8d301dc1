import Scaffolding.Proofs.Scaffold.Parts
import Scaffolding.Proofs.Schema.Entries
import Scaffolding.Proofs.Schema.Filling

/-!
# Choices keep to what is offered

A schema that was read from a document asks only questions that make sense: where there are choices to
pick from, there is one, and the default is among them. Reading takes care of that, and collecting
takes care of the answers: what no choice is does not count. Together they give every field a value of
its kind, whatever the user answers and also if the user answers nothing.

A field whose two choices are a word for yes and a word for no is a field of yes or no.
-/

set_option autoImplicit false

namespace Scaffolding

/-- If there are choices to pick from, there is one, and what is picked by default is among them. -/
def Question.Sound : Question → Prop
  | .input .. => True
  | .confirm .. => True
  | .select _ choices default => choices ≠ [] ∧ ∀ d ∈ default, d ∈ choices
  | .multiselect _ choices defaults => choices ≠ [] ∧ ∀ d ∈ defaults, d ∈ choices

namespace Schema

/-- The values that a field of a kind may be given; a field with one choice may be given none. -/
def Kind.Takes : Kind → Option Json → Prop
  | text _, value => ∃ s, value = some (.string s)
  | yesNo _, value => ∃ b, value = some (.bool b)
  | oneOf choices _, value => value = none ∨ ∃ choice ∈ choices, value = some (.string choice)
  | anyOf choices _, value =>
    ∃ picked : List String, (∀ p ∈ picked, p ∈ choices) ∧ value = some (Json.ofTexts picked)

/-! ## Answers -/

/-- Whatever the answer to a sound question is, the value that it gives is one of its kind. -/
theorem Kind.takes_valueOf {kind : Kind} {prompt : String} (h : (kind.question prompt).Sound)
    (answer : Option (kind.question prompt).Answer) : kind.Takes (kind.valueOf prompt answer) := by
  cases kind with
  | text default => exact ⟨_, rfl⟩
  | yesNo default => exact ⟨_, rfl⟩
  | oneOf choices default =>
    have hdefault : ∀ d ∈ default, d ∈ choices := h.2
    change Option String at answer
    change Kind.Takes _ (((answer.filter choices.contains).or default).map .string)
    cases hpicked : (answer.filter choices.contains).or default with
    | none => exact .inl rfl
    | some choice =>
      refine .inr ⟨choice, ?_, rfl⟩
      rcases Option.or_eq_some_iff.mp hpicked with hanswer | ⟨-, hchoice⟩
      · simpa using (Option.filter_eq_some_iff.mp hanswer).2
      · exact hdefault choice hchoice
  | anyOf choices default =>
    have hdefault : ∀ d ∈ default, d ∈ choices := h.2
    change Option (List String) at answer
    refine ⟨(answer.map fun picked => picked.filter choices.contains).getD default, ?_, rfl⟩
    cases answer with
    | none => exact hdefault
    | some picked =>
      intro p hp
      have hcontains := (List.mem_filter.mp hp).2
      simpa using hcontains

/-! ## Kinds of fields -/

/-- A question for one of some choices is sound, whatever the default is. -/
theorem sound_oneOfKind {choices : List String} (hne : choices ≠ []) (default : Option Yaml.Value)
    (prompt : String) : ((oneOfKind choices default).question prompt).Sound := by
  unfold oneOfKind
  split
  · trivial
  · refine ⟨hne, ?_⟩
    intro d hd
    simpa using (Option.filter_eq_some_iff.mp hd).2

/-- A question for any of some choices is sound, whatever the defaults are. -/
theorem sound_anyOfKind {choices : List String} (hne : choices ≠ []) (default : Option Yaml.Value)
    (prompt : String) : ((anyOfKind choices default).question prompt).Sound := by
  refine ⟨hne, ?_⟩
  intro d hd
  simpa using (List.mem_filter.mp hd).2

/-- A description gives a kind that asks a sound question, or no kind. -/
theorem sound_kindOf {r : Yaml.Record} {kind : Kind} (h : kindOf r = .ok kind) (prompt : String) :
    (kind.question prompt).Sound := by
  unfold kindOf at h
  dsimp only at h
  split at h
  · cases h
    trivial
  · cases h
    trivial
  · split at h
    · cases h
    · next hne =>
      cases h
      exact sound_oneOfKind (by simpa using hne) _ prompt
  · split at h
    · cases h
    · next hne =>
      cases h
      exact sound_anyOfKind (by simpa using hne) _ prompt
  · cases h

/-- The question of a field that was read is sound. -/
theorem sound_readField {name : String} {v : Yaml.Value} {f : Field} (h : readField name v = .ok f) :
    f.question.Sound := by
  obtain ⟨r, kind, -, hkind, rfl⟩ := readField_eq_ok_iff.mp h
  exact sound_kindOf hkind _

/-! ## From a document to fields -/

/-- The field that an entry writes, if it can be used. -/
def entryField? (entry : Yaml.Value × Yaml.Value) : Option Field :=
  entry.1.scalarText?.bind fun name => (readField name entry.2).toOption

/-- The field of an entry is the one that its fate tells. -/
theorem field?_fateOf (entry : Yaml.Value × Yaml.Value) :
    (fateOf entry).field? = entryField? entry := by
  unfold fateOf entryField?
  cases entry.1.scalarText? with
  | none => rfl
  | some name =>
    cases hread : readField name entry.2 <;>
      simp [hread, Fate.field?, Except.toOption]

/-- The fields of a schema are those that the entries of its document write, in order. -/
theorem fields_read {text : String} {schema : Schema} (h : read text = .ok schema) :
    schema.fields = (declared text).filterMap entryField? := by
  rw [eq_ofFates_of_read h, ← funext field?_fateOf]
  exact List.filterMap_map

/-- The question of every field of a schema is sound. -/
theorem sound_of_mem_fields {text : String} {schema : Schema} (h : read text = .ok schema)
    {f : Field} (hf : f ∈ schema.fields) : f.question.Sound := by
  rw [fields_read h, List.mem_filterMap] at hf
  obtain ⟨entry, -, hentry⟩ := hf
  obtain ⟨name, -, hfield⟩ := Option.bind_eq_some_iff.mp hentry
  exact sound_readField (toOption_eq_some_iff.mp hfield)

/-! ## Fields of yes or no -/

/-- A description with a type of one choice, of which the choices are a word for yes and a word for
no, in either order. -/
def DeclaresYesNo (v : Yaml.Value) : Prop :=
  ∃ r word a b, description.read v = .ok r ∧ r.text? "type" = some word ∧
    word ∈ ["singleChoice", "choose", "radio", "select"] ∧
    (r.items "choices").filterMap Yaml.Value.scalarText? = [a, b] ∧
    (Text.yesNo? a = some true ∧ Text.yesNo? b = some false ∨
      Text.yesNo? a = some false ∧ Text.yesNo? b = some true)

/-- The four words for one of some choices mean it. -/
theorem ofText?_oneOf {word : String}
    (h : word ∈ ["singleChoice", "choose", "radio", "select"]) :
    TypeWord.ofText? word = some .oneOf := by
  simp only [List.mem_cons, List.not_mem_nil, or_false] at h
  rcases h with rfl | rfl | rfl | rfl <;> rfl

/-- Such a description writes a field of yes or no. -/
theorem DeclaresYesNo.readField {v : Yaml.Value} (h : DeclaresYesNo v) (name : String) :
    ∃ f default, Schema.readField name v = .ok f ∧ f.name = name ∧ f.kind = .yesNo default := by
  obtain ⟨r, word, a, b, hr, hword, hone, hchoices, hyesNo⟩ := h
  have hchoice : isYesNo [a, b] = true := by
    rcases hyesNo with ⟨ha, hb⟩ | ⟨ha, hb⟩ <;> simp [isYesNo, ha, hb]
  have hkind : kindOf r = .ok (.yesNo ((r.value? "default").bind yesNoOf?)) := by
    simp [kindOf, hword, ofText?_oneOf hone, hchoices, oneOfKind, hchoice]
  exact ⟨_, _, readField_eq_ok_iff.mpr ⟨r, _, hr, hkind, rfl⟩, rfl, rfl⟩

/-! ## Collecting -/

/-- Collecting settings for a schema in a world keeps to the choices that its document offers. -/
structure ChoiceSafe (text : String) (schema : Schema) (world : World) (s : Session) : Prop where
  /-- All that happens is that sound questions are asked. -/
  asked : ∃ questions : List Question, (∀ q ∈ questions, q.Sound) ∧
    (outcome schema.collect world s).2 = s.recordAll (questions.map .asked)
  /-- Every field that is filled in has a value of its kind. -/
  filled : ∀ x ∈ fillings world s.events schema.fields, x.1.kind.Takes x.2
  /-- If settings are collected, they are these values, and those of all fields. -/
  collected : ∀ settings, (outcome schema.collect world s).1 = .ok settings →
    (fillings world s.events schema.fields).map Prod.fst = schema.fields ∧
      settings = Settings.empty.putAll (puts (fillings world s.events schema.fields))
  /-- Two choices for yes and no make a field that is always given a boolean. -/
  yesNo : ∀ key v name, (key, v) ∈ declared text → key.scalarText? = some name →
    DeclaresYesNo v → ∃ f ∈ schema.fields, readField name v = .ok f ∧ f.name = name ∧
      ∀ x ∈ fillings world s.events schema.fields, x.1 = f → ∃ b, x.2 = some (.bool b)

/-- Every document that writes a schema keeps collecting to its choices, in every world. -/
theorem choiceSafe_of_read {text : String} {schema : Schema} (hread : read text = .ok schema)
    (world : World) (s : Session) : ChoiceSafe text schema world s := by
  have hsound : ∀ f ∈ schema.fields, f.question.Sound := fun f => sound_of_mem_fields hread
  have hfields : ∀ x ∈ fillings world s.events schema.fields, x.1 ∈ schema.fields := by
    intro x hx
    exact (fillings_in_order world s.events schema.fields).subset (List.mem_map.mpr ⟨x, hx, rfl⟩)
  have htakes : ∀ x ∈ fillings world s.events schema.fields, x.1.kind.Takes x.2 := by
    intro x hx
    obtain ⟨answer, hanswer⟩ := answer_of_mem_fillings hx
    rw [hanswer]
    exact Kind.takes_valueOf (hsound x.1 (hfields x hx)) answer
  refine ⟨?_, htakes, ?_, ?_⟩
  · obtain ⟨⟨questions, horder, hsession⟩, -⟩ :=
      Scaffold.outcome_collect (Prod.eta (outcome schema.collect world s)).symm
    refine ⟨questions, ?_, hsession⟩
    intro q hq
    obtain ⟨f, hf, rfl⟩ := List.mem_map.mp (horder.subset hq)
    exact hsound f hf
  · intro settings hsettings
    exact (outcome_collect_eq_ok_iff schema settings).mp hsettings
  · intro key v name hentry hname hyesNo
    obtain ⟨f, default, hfield, hfname, hkind⟩ := hyesNo.readField name
    have hmem : f ∈ schema.fields := by
      rw [fields_read hread, List.mem_filterMap]
      refine ⟨(key, v), hentry, ?_⟩
      simp [entryField?, hname, hfield, Except.toOption]
    refine ⟨f, hmem, hfield, hfname, ?_⟩
    intro x hx hxf
    have hx := htakes x hx
    rw [hxf, hkind] at hx
    exact hx

/-- A document with a field of yes or no, a field for one choice and a field for many, with a default
of no kind, a number and a list. -/
def offer : String :=
  "a: \x7btype: radio, list: [y, no]\x7d\n" ++
    "b: \x7btype: radio, list: [x, 2], default: 2\x7d\n" ++
      "c: \x7btype: checkbox, list: [p, q], default: [q, z]\x7d"

def offered : Schema where
  fields := [⟨"a", .yesNo none, "a", "a"⟩, ⟨"b", .oneOf ["x", "2"] (some "2"), "b", "b"⟩,
    ⟨"c", .anyOf ["p", "q"] ["q"], "c", "c"⟩]
  skipped := []

/-- A user who gives no yes or no, picks something else, and picks one choice twice. -/
def wayward : World :=
  .steady "" fun
    | .input .. => none
    | .confirm .. => none
    | .select .. => some "z"
    | .multiselect .. => some ["p", "w", "p"]

/-- The schema on offer is read, and collecting it is safe although the answers are not. -/
theorem choiceSafe_offered :
    read offer = .ok offered ∧ ChoiceSafe offer offered wayward ⟨[], default⟩ := by
  have hread : read offer = .ok offered := by
    rw [← toOption_eq_some_iff]
    decide +kernel
  exact ⟨hread, choiceSafe_of_read hread wayward ⟨[], default⟩⟩

example : (fillings wayward [] offered.fields).map Prod.snd =
    [some (.bool false), some (.string "2"), some (Json.ofTexts ["p", "p"])] :=
  rfl

end Schema

end Scaffolding
