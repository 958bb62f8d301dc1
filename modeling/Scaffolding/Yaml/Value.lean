import Scaffolding.Number.Basic

/-!
# YAML values

What the nodes of a document mean: null, booleans, numbers, texts, lists, mappings with the order of
their entries, and tagged values. Numbers include the two infinities and the value that is no number.
-/

set_option autoImplicit false

namespace Scaffolding.Yaml

/-- A number of a YAML document. -/
inductive Numeral
  | finite (number : Number)
  | infinity (negative : Bool)
  | notANumber
  deriving DecidableEq

namespace Numeral

/-- Doubles as text: as in JSON, but without a plus sign in exponents. -/
def layout : Layout := ⟨16, 5, false⟩

/-- The text of a number. -/
def chars : Numeral → List Char
  | finite n => n.chars layout
  | infinity false => ".inf".toList
  | infinity true => "-.inf".toList
  | notANumber => ".nan".toList

def text (n : Numeral) : String :=
  String.ofList n.chars

/-- The same number; the two zeros among the doubles are one, and what is no number is itself. -/
def same : Numeral → Numeral → Bool
  | finite a, finite b => a.sameValue b
  | infinity a, infinity b => a == b
  | notANumber, notANumber => true
  | _, _ => false

end Numeral

inductive Value
  | null
  | bool (value : Bool)
  | number (value : Numeral)
  | string (value : String)
  | sequence (items : List Value)
  | mapping (entries : List (Value × Value))
  | tagged (tag : String) (value : Value)
  deriving Inhabited

namespace Value

/-- A tag without the exclamation mark at its start, if anything is left then. -/
def tagName (tag : String) : List Char :=
  match tag.toList with
  | '!' :: c :: rest => c :: rest
  | cs => cs

mutual

/-- The same value, as keys are compared: the order of entries does not count. -/
def same : Value → Value → Bool
  | .null, .null => true
  | .bool a, .bool b => a == b
  | .number a, .number b => a.same b
  | .string a, .string b => a == b
  | .sequence as, .sequence bs => sameItems as bs
  | .mapping as, .mapping bs => as.length == bs.length && sameEntries as bs
  | .tagged s a, .tagged t b => tagName s == tagName t && same a b
  | _, _ => false

def sameItems : List Value → List Value → Bool
  | [], [] => true
  | a :: as, b :: bs => same a b && sameItems as bs
  | _, _ => false

/-- Every entry of the first list is in the second. -/
def sameEntries : List (Value × Value) → List (Value × Value) → Bool
  | [], _ => true
  | (k, v) :: rest, bs => bs.any (fun (k', v') => same k k' && same v v') && sameEntries rest bs

end

/-- The value under its tags. -/
def untag : Value → Value
  | .tagged _ v => untag v
  | v => v

/-- A value that is one text, one number or one boolean, as text. -/
def scalarText? : Value → Option String
  | .string s => some s
  | .number n => some n.text
  | .bool b => some (if b then "true" else "false")
  | _ => none

def text? : Value → Option String
  | .string s => some s
  | _ => none

/-- The value of a text key in a mapping. -/
def get? (key : String) : Value → Option Value
  | .mapping entries => (entries.find? fun (k, _) => k.text? == some key).map Prod.snd
  | .tagged _ v => get? key v
  | _ => none

end Value

end Scaffolding.Yaml

namespace Scaffolding.Yaml.Value

/-!
## Kinds of values

The words by which a message tells what kind of value stands where a mapping was expected.
-/

/-- The kind of a value, in words. -/
def kindName : Value → String
  | null => "null"
  | bool _ => "a boolean"
  | number _ => "a number"
  | string _ => "a string"
  | sequence _ => "a list"
  | mapping _ => "a mapping"
  | tagged .. => "a tagged value"

end Scaffolding.Yaml.Value
