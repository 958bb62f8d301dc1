import Scaffolding.Json.Printer

/-!
# Values as Nix literals

A JSON object as a Nix attribute set: one attribute a line in the order of the members, nested sets
indented by two more spaces, lists on one line. A list separates its items by blanks alone, so a
negative number in it stands in parentheses.
-/

set_option autoImplicit false

namespace Scaffolding.Nix

/-!
## Nix strings

A text as a double-quoted Nix string. The quote, the backslash, the three control characters with a
short form, and a dollar sign before an opening brace are escaped; every other character stands for
itself. Escaping the dollar sign keeps a text from being read as an interpolation.
-/

/-- One character of a string; `beforeBrace` says that an opening brace follows it. -/
def escapeChar (c : Char) (beforeBrace : Bool) : List Char :=
  if c = '"' then ['\\', '"']
  else if c = '\\' then ['\\', '\\']
  else if c = '\n' then ['\\', 'n']
  else if c = '\r' then ['\\', 'r']
  else if c = '\t' then ['\\', 't']
  else if c = '$' ∧ beforeBrace = true then ['\\', '$']
  else [c]

/-- The inside of a string. -/
def escapeChars : List Char → List Char
  | [] => []
  | c :: rest => escapeChar c (rest.head? == some '\x7b') ++ escapeChars rest

def quoteChars (cs : List Char) : List Char :=
  '"' :: (escapeChars cs ++ ['"'])

def quote (s : String) : String :=
  String.ofList (quoteChars s.toList)

/-!
## Nix attribute names

An attribute name is written bare when it is an identifier and quoted otherwise. A keyword has the
shape of an identifier and is quoted all the same.
-/

def keywords : List String :=
  ["if", "then", "else", "assert", "with", "let", "in", "rec", "inherit", "or"]

/-- A character that may start an identifier. -/
def isNameStart (c : Char) : Bool :=
  c.isAlpha || c == '_'

/-- A character that may follow in an identifier. -/
def isNameChar (c : Char) : Bool :=
  c.isAlphanum || c == '_' || c == '-' || c == '\''

/-- A list of characters with the shape of an identifier, keywords among them. -/
def isWord : List Char → Bool
  | [] => false
  | c :: rest => isNameStart c && rest.all isNameChar

/-- A name that can be written bare. -/
def isIdentifier (name : String) : Bool :=
  isWord name.toList && !keywords.contains name

/-- An attribute name as it is written. -/
def nameChars (name : String) : List Char :=
  if isIdentifier name then name.toList else quoteChars name.toList

/-! ## Values and sets -/

/-- The indentation of a depth: two spaces for each level. -/
def indent (depth : Nat) : List Char :=
  List.replicate (2 * depth) ' '

/-- The text of a number, laid out as JSON lays it out. -/
def numberChars (n : Number) : List Char :=
  n.chars Json.layout

mutual

/-- A value whose nested sets are at a depth. -/
def valueChars (depth : Nat) : Json → List Char
  | .null => "null".toList
  | .bool b => (if b then "true" else "false").toList
  | .number n => numberChars n
  | .string s => quoteChars s.toList
  | .array [] => ['[', ' ', ']']
  | .array (v :: rest) => '[' :: (itemsChars depth (v :: rest) ++ [' ', ']'])
  | .object [] => ['\x7b', ' ', '\x7d']
  | .object (m :: rest) =>
    '\x7b' :: '\n' :: (membersChars (depth + 1) (m :: rest) ++ (indent depth ++ ['\x7d']))

/-- The items of a list, each after a space; a negative number stands in parentheses. -/
def itemsChars (depth : Nat) : List Json → List Char
  | [] => []
  | .number n :: rest =>
    (if n.isNegative then ' ' :: '(' :: (numberChars n ++ [')']) else ' ' :: numberChars n) ++
      itemsChars depth rest
  | v :: rest => ' ' :: (valueChars depth v ++ itemsChars depth rest)

/-- The attributes of a set, one a line at a depth. -/
def membersChars (depth : Nat) : List (String × Json) → List Char
  | [] => []
  | (k, v) :: rest =>
    indent depth ++ nameChars k ++ ' ' :: '=' :: ' ' ::
      (valueChars depth v ++ ';' :: '\n' :: membersChars depth rest)

end

/-- The members of an object as an attribute set. -/
def attrSetChars (members : Members) : List Char :=
  valueChars 0 (.object members)

/-- The members of an object as the text of an attribute set. -/
def attrSet (members : Members) : String :=
  String.ofList (attrSetChars members)

end Scaffolding.Nix
