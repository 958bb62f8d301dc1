import Scaffolding.Failure
import Scaffolding.Schema.Basic
import Scaffolding.Text.Blank
import Scaffolding.Yaml.Record
import Scaffolding.Yaml.Value
import Scaffolding.Yaml.Value.Reader

/-!
# Reading schemas

A schema is written as a YAML mapping from the names of fields to their descriptions. A description
that cannot be used leaves its field out and nothing else; only a document that is no mapping is an
error. A blank document, or one that writes null, is a schema without fields.

A choice between two words, one that reads as yes and one that reads as no, is a field of yes or no.
-/

set_option autoImplicit false

namespace Scaffolding.Schema

/-- The description of a field, as it is written. -/
def description : Yaml.RecordType where
  expected := "struct RawField"
  fields :=
    [⟨"type", [], .optionalText, false⟩,
      ⟨"prompt", [], .optionalText, false⟩,
      ⟨"default", [], .optionalValue, false⟩,
      ⟨"choices", ["list"], .optionalList, false⟩,
      ⟨"option", ["destinationPath"], .optionalText, false⟩]

/-- What a value reads as, if it is a boolean or a word for one. -/
def yesNoOf? : Yaml.Value → Option Bool
  | .bool b => some b
  | .string s => Text.yesNo? s
  | _ => none

/-- Two choices, one that reads as yes and one that reads as no. -/
def isYesNo (choices : List String) : Bool :=
  match choices.map Text.yesNo? with
  | [some true, some false] => true
  | [some false, some true] => true
  | _ => false

/-- A text that says something. -/
def notBlank? (text : Option String) : Option String :=
  text.filter fun s => !Text.isBlankText s

/-- The defaults of a field with many choices: the items of a list, or a single text that is not
empty. -/
def defaultsOf : Option Yaml.Value → List String
  | some (.sequence items) => items.filterMap Yaml.Value.scalarText?
  | some v => (v.scalarText?.filter fun s => !s.isEmpty).toList
  | none => []

/-- The kind of a field with one choice. -/
def oneOfKind (choices : List String) (default : Option Yaml.Value) : Kind :=
  if isYesNo choices then .yesNo (default.bind yesNoOf?)
  else .oneOf choices ((default.bind Yaml.Value.scalarText?).filter choices.contains)

def anyOfKind (choices : List String) (default : Option Yaml.Value) : Kind :=
  .anyOf choices ((defaultsOf default).filter choices.contains)

/-- The kinds of fields that a type word can mean. -/
inductive TypeWord
  | text
  | yesNo
  | oneOf
  | anyOf
  deriving DecidableEq, Repr

def TypeWord.ofText? (word : String) : Option TypeWord :=
  match word with
  | "string" | "input" | "text" => some .text
  | "boolean" | "bool" | "confirm" => some .yesNo
  | "singleChoice" | "choose" | "radio" | "select" => some .oneOf
  | "multiChoice" | "checkbox" | "multiselect" => some .anyOf
  | _ => none

/-- The kind that the description of a field gives, or the reason why it gives none. Without a type
word a field is a text. -/
def kindOf (r : Yaml.Record) : Except String Kind :=
  let word := (r.text? "type").getD "string"
  let default := r.value? "default"
  let choices := (r.items "choices").filterMap Yaml.Value.scalarText?
  match TypeWord.ofText? word with
  | some .text => .ok (.text (default.bind Yaml.Value.scalarText?))
  | some .yesNo => .ok (.yesNo (default.bind yesNoOf?))
  | some .oneOf =>
    if choices.isEmpty then .error "choice field has no choices"
    else .ok (oneOfKind choices default)
  | some .anyOf =>
    if choices.isEmpty then .error "choice field has no choices"
    else .ok (anyOfKind choices default)
  | none => .error ("unsupported field type '" ++ word ++ "'")

/-- The field with a name and a description. The name stands for a prompt or a path that is blank or
missing. -/
def fieldOf (name : String) (r : Yaml.Record) : Except String Field := do
  let kind ← kindOf r
  return ⟨name, kind, (notBlank? (r.text? "prompt")).getD name,
    (notBlank? (r.text? "option")).getD name⟩

/-- The field written by the value of an entry, or the reason why there is none. -/
def readField (name : String) (v : Yaml.Value) : Except String Field :=
  match description.read v with
  | .ok r => fieldOf name r
  | .error e => .error ("malformed field: " ++ e.message)

def addField (f : Field) (s : Schema) : Schema :=
  { s with fields := s.fields ++ [f] }

/-- Keeps a field aside. -/
def addSkipped (name reason : String) (s : Schema) : Schema :=
  { s with skipped := s.skipped ++ [(name, reason)] }

/-- Reads one entry into the schema read so far. -/
def addEntry (s : Schema) (entry : Yaml.Value × Yaml.Value) : Schema :=
  match entry.1.scalarText? with
  | none => s.addSkipped "<non-scalar key>" "field names must be scalars"
  | some name =>
    match readField name entry.2 with
    | .ok f => s.addField f
    | .error reason => s.addSkipped name reason

def ofValue : Yaml.Value → Except Failure Schema
  | .null => .ok empty
  | .mapping entries => .ok (entries.foldl addEntry empty)
  | other =>
    .error (.retrieval "template schema"
      ("expected a mapping of fields, found " ++ other.kindName))

def read (text : String) : Except Failure Schema :=
  if Text.isBlankText text then .ok empty
  else
    match Yaml.parse text with
    | .ok v => ofValue v
    | .error e => .error (.retrieval "template schema" e.message)

end Scaffolding.Schema
