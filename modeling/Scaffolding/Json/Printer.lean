import Scaffolding.Json.Basic

/-!
# JSON text

The compact text of a JSON value and its indented text. Both escape the two special characters, the
control characters and nothing else, so every other character stands for itself.
-/

set_option autoImplicit false

namespace Scaffolding.Json

/-- Doubles in JSON text: a point for up to sixteen digits before it and four zeros after it, and a
plus sign in an exponent that is not negative. -/
def layout : Layout := ⟨16, 5, true⟩

/-- The hexadecimal digit of a number below sixteen, in lower case. -/
def hexDigit (n : Nat) : Char :=
  Nat.digitChar (n % 16)

/-- One character inside a JSON string. -/
def escapeChar (c : Char) : List Char :=
  if c = '"' then ['\\', '"']
  else if c = '\\' then ['\\', '\\']
  else if c = '\n' then ['\\', 'n']
  else if c = '\r' then ['\\', 'r']
  else if c = '\t' then ['\\', 't']
  else if c.toNat = 8 then ['\\', 'b']
  else if c.toNat = 12 then ['\\', 'f']
  else if c.toNat < 32 then ['\\', 'u', '0', '0', hexDigit (c.toNat / 16), hexDigit c.toNat]
  else [c]

def quoteChars (s : String) : List Char :=
  '"' :: (s.toList.flatMap escapeChar ++ ['"'])

mutual

/-- The compact text of a value. -/
def chars : Json → List Char
  | .null => "null".toList
  | .bool b => (if b then "true" else "false").toList
  | .number n => n.chars layout
  | .string s => quoteChars s
  | .array items => '[' :: (itemsChars items ++ [']'])
  | .object members => '\x7b' :: (membersChars members ++ ['\x7d'])

/-- The items of an array with commas between them. -/
def itemsChars : List Json → List Char
  | [] => []
  | [v] => chars v
  | v :: w :: rest => chars v ++ ',' :: itemsChars (w :: rest)

/-- The members of an object with commas between them. -/
def membersChars : List (String × Json) → List Char
  | [] => []
  | [(k, v)] => quoteChars k ++ ':' :: chars v
  | (k, v) :: m :: rest => quoteChars k ++ ':' :: (chars v ++ ',' :: membersChars (m :: rest))

end

/-- The compact text of a value, on one line and without blanks. -/
def render (value : Json) : String :=
  String.ofList value.chars

/-- A new line with two spaces for each level. -/
def newLine (depth : Nat) : List Char :=
  '\n' :: List.replicate (2 * depth) ' '

mutual

/-- The indented text of a value at a depth. -/
def indentedChars (depth : Nat) : Json → List Char
  | .array (v :: rest) =>
    '[' :: (newLine (depth + 1) ++ indentedChars (depth + 1) v ++ indentedItems depth rest)
  | .object ((k, v) :: rest) =>
    '\x7b' :: (newLine (depth + 1) ++ quoteChars k ++ ':' :: ' ' ::
      (indentedChars (depth + 1) v ++ indentedMembers depth rest))
  | .null => chars .null
  | .bool b => chars (.bool b)
  | .number n => chars (.number n)
  | .string s => chars (.string s)
  | .array [] => chars (.array [])
  | .object [] => chars (.object [])

/-- The items after the first, each on a line of its own, and the end of the array. -/
def indentedItems (depth : Nat) : List Json → List Char
  | [] => newLine depth ++ [']']
  | v :: rest => ',' :: (newLine (depth + 1) ++ indentedChars (depth + 1) v ++ indentedItems depth rest)

/-- The members after the first, each on a line of its own, and the end of the object. -/
def indentedMembers (depth : Nat) : List (String × Json) → List Char
  | [] => newLine depth ++ ['\x7d']
  | (k, v) :: rest =>
    ',' :: (newLine (depth + 1) ++ quoteChars k ++ ':' :: ' ' ::
      (indentedChars (depth + 1) v ++ indentedMembers depth rest))

end

/-- The text of a value over several lines, with two spaces for each level. -/
def renderIndented (value : Json) : String :=
  String.ofList (value.indentedChars 0)

end Scaffolding.Json
