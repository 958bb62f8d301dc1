import Scaffolding.Session.Basic
import Scaffolding.Settings.Basic

/-!
# Schemas

The schema of a template is the list of its fields, each of which is a question to ask: its name,
what kind of value it takes, the prompt, and the dotted path under which the value is put. Fields
that could not be read are kept aside with the reason.
-/

set_option autoImplicit false

namespace Scaffolding

/-- The kind of value that a field takes, with its default. -/
inductive Schema.Kind
  /-- A text. -/
  | text (default : Option String)
  /-- Yes or no. -/
  | yesNo (default : Option Bool)
  /-- One of the choices. -/
  | oneOf (choices : List String) (default : Option String)
  /-- Any number of the choices. -/
  | anyOf (choices : List String) (default : List String)
  deriving DecidableEq, Repr, Inhabited

structure Schema.Field where
  name : String
  kind : Schema.Kind
  prompt : String
  /-- The dotted path under which the value is put. -/
  destination : String
  deriving DecidableEq, Repr, Inhabited

structure Schema where
  fields : List Schema.Field
  /-- The fields left out, with the reason. -/
  skipped : List (String × String)
  deriving DecidableEq, Repr, Inhabited

namespace Schema

/-- A schema without fields. -/
def empty : Schema :=
  ⟨[], []⟩

/-- A schema without fields asks for nothing. -/
def isEmpty (s : Schema) : Bool :=
  s.fields.isEmpty

end Schema

end Scaffolding

namespace Scaffolding.Schema

/-!
## Collecting settings

Every field of a schema is asked for, in order, and the answer is put under the path of the field.
Without an answer a field takes its default; without a default a text is empty, yes or no is no,
many choices are none, and one choice is left out. An answer that is no choice does not count.
-/

/-- The question that asks for a value of a kind. -/
def Kind.question (prompt : String) : Kind → Question
  | text default => .input prompt default
  | yesNo default => .confirm prompt (default.getD false)
  | oneOf choices default => .select prompt choices default
  | anyOf choices default => .multiselect prompt choices default

/-- The value that an answer gives, if it gives any. -/
def Kind.valueOf (prompt : String) :
    (kind : Kind) → Option (kind.question prompt).Answer → Option Json
  | text default, (answer : Option String) =>
    some (.string (((answer.filter fun s => !s.isEmpty).or default).getD ""))
  | yesNo default, (answer : Option Bool) =>
    some (.bool (answer.getD (default.getD false)))
  | oneOf choices default, (answer : Option String) =>
    ((answer.filter choices.contains).or default).map .string
  | anyOf choices default, (answer : Option (List String)) =>
    some (Json.ofTexts ((answer.map fun picked => picked.filter choices.contains).getD default))

def Field.question (f : Field) : Question :=
  f.kind.question f.prompt

def Field.valueOf (f : Field) (answer : Option f.question.Answer) : Option Json :=
  f.kind.valueOf f.prompt answer

def Field.failureOf (f : Field) (e : SystemError) : Failure :=
  if e.kind = .interrupted then .cancelled
  else .collection ("field '" ++ f.name ++ "': " ++ e.text)

/-- Asks for a field and puts its value into the settings so far. -/
def askField (settings : Settings) (f : Field) : Attempt Settings := do
  match ← Session.ask f.question with
  | .error e => throw (f.failureOf e)
  | .ok answer =>
    match f.valueOf answer with
    | some value => return settings.put f.destination value
    | none => return settings

/-- Asks for the fields of a schema. -/
def collect (s : Schema) : Attempt Settings :=
  s.fields.foldlM askField .empty

end Scaffolding.Schema
