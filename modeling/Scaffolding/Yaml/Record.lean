import Scaffolding.Text.Hidden
import Scaffolding.Yaml.Value

/-!
# Records

A record is a mapping with known fields. A record type is a list of fields, each with its name, the
other names it may have, and the shape of its value. Reading a record checks its entries in their
order: a key must be a text, a field may come once under all its names, and its value must have the
shape of the field. Entries with unknown keys are passed over, and null is a record without entries.
-/

set_option autoImplicit false

namespace Scaffolding.Yaml

/-!
## Values of the wrong shape

Why a value is not what its place in a record asks for: it is of another type, or the record lacks a
field or has it twice. The message names what was found and what was expected.
-/

/-- Why a value does not have the shape that is asked of it. -/
inductive Mismatch
  | type (found : Value) (expected : String)
  | missingField (name : String)
  | duplicateField (name : String)

/-- Doubles in messages: always with a point and never with an exponent. -/
def Mismatch.layout : Layout := ⟨400, 400, false⟩

/-- A number as a message names it. -/
def Numeral.description : Numeral → String
  | finite (.integer n _) => "integer \x60" ++ String.ofList (intChars n) ++ "\x60"
  | finite (.double d) =>
    "floating point \x60" ++ String.ofList (Mismatch.layout.doubleChars d) ++ "\x60"
  | infinity false => "floating point \x60inf\x60"
  | infinity true => "floating point \x60-inf\x60"
  | notANumber => "floating point \x60NaN\x60"

/-- A value as a message names it. -/
def Value.description : Value → String
  | null => "unit value"
  | bool true => "boolean \x60true\x60"
  | bool false => "boolean \x60false\x60"
  | number n => n.description
  | string s => "string " ++ Text.shown s
  | sequence _ => "sequence"
  | mapping _ => "map"
  | tagged .. => "enum"

/-- The message about a value of the wrong shape. -/
def Mismatch.message : Mismatch → String
  | type found expected => "invalid type: " ++ found.description ++ ", expected " ++ expected
  | missingField name => "missing field \x60" ++ name ++ "\x60"
  | duplicateField name => "duplicate field \x60" ++ name ++ "\x60"

/-! ## Record types -/

/-- The shape of the value of a field. -/
inductive Shape
  /-- A text. -/
  | text
  /-- A text, or null for none. -/
  | optionalText
  /-- Any value, null for none. -/
  | optionalValue
  /-- A list, or null for none. -/
  | optionalList
  deriving DecidableEq, Repr

/-- What a field holds. -/
inductive Content
  | absent
  | text (value : String)
  | value (value : Value)
  | list (items : List Value)

def readText (v : Value) : Except Mismatch String :=
  match v.untag with
  | .string s => .ok s
  | other => .error (.type other "a string")

/-- Reads a list; null under a tag is an empty one. -/
def readList (v : Value) : Except Mismatch (List Value) :=
  match v.untag with
  | .sequence items => .ok items
  | .null => .ok []
  | other => .error (.type other "a sequence")

def Shape.read (shape : Shape) (v : Value) : Except Mismatch Content :=
  match shape, v with
  | .text, _ => (readText v).map .text
  | _, .null => .ok .absent
  | .optionalText, _ => (readText v).map .text
  | .optionalValue, _ => .ok (.value v)
  | .optionalList, _ => (readList v).map .list

/-- A field of a record type. -/
structure Field where
  name : String
  otherNames : List String
  shape : Shape
  required : Bool

/-- A record type, with the word for it in messages. -/
structure RecordType where
  expected : String
  fields : List Field

/-- The fields of a record that were given, with what they hold. -/
abbrev Record := List (String × Content)

namespace Record

/-- The text that a field holds. -/
def text? (r : Record) (name : String) : Option String :=
  match r.lookup name with
  | some (.text s) => some s
  | _ => none

/-- The value that a field holds. -/
def value? (r : Record) (name : String) : Option Value :=
  match r.lookup name with
  | some (.value v) => some v
  | _ => none

/-- The items of the list that a field holds. -/
def items (r : Record) (name : String) : List Value :=
  match r.lookup name with
  | some (.list items) => items
  | _ => []

end Record

namespace RecordType

def field? (t : RecordType) (key : String) : Option Field :=
  t.fields.find? fun f => f.name == key || f.otherNames.contains key

def readKey (k : Value) : Except Mismatch String :=
  match k.untag with
  | .string s => .ok s
  | other => .error (.type other "field identifier")

/-- Reads one entry into the record read so far. -/
def readEntry (t : RecordType) (done : Record) (entry : Value × Value) :
    Except Mismatch Record := do
  let key ← readKey entry.1
  match t.field? key with
  | none => return done
  | some f =>
    if (done.lookup f.name).isSome then .error (.duplicateField f.name)
    let content ← f.shape.read entry.2
    return (f.name, content) :: done

/-- The first required field that a record lacks. -/
def missing? (t : RecordType) (r : Record) : Option String :=
  (t.fields.find? fun f => f.required && (r.lookup f.name).isNone).map Field.name

/-- Reads a record of this type from the entries of a mapping. -/
def readEntries (t : RecordType) (entries : List (Value × Value)) : Except Mismatch Record := do
  let r ← entries.foldlM t.readEntry []
  match t.missing? r with
  | some name => .error (.missingField name)
  | none => return r

def read (t : RecordType) (v : Value) : Except Mismatch Record :=
  match v.untag with
  | .mapping entries => t.readEntries entries
  | .null => t.readEntries []
  | other => .error (.type other t.expected)

end RecordType

end Scaffolding.Yaml
