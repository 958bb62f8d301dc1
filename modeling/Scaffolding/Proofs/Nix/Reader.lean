import Scaffolding.Json.Printer

/-!
# Reading Nix literals

A reader for the part of Nix that literals use: attribute sets, lists, strings, numbers and the three
words `true`, `false` and `null`. It is the other side of `Nix.valueChars` and shares none of its
parts, so that the two can be compared.

A number is kept as the text that stands for it. The items of a list are set apart by blanks, and an
item cannot start with a minus sign: a negative number stands in parentheses there. An unescaped
dollar sign before an opening brace starts an interpolation, which is no literal and not read.
Each step gives what it read together with the characters it left.
-/

set_option autoImplicit false

namespace Scaffolding.Nix

/-- What a literal stands for, with the attributes of a set in order. -/
inductive Value
  | null
  | bool (value : Bool)
  | number (text : String)
  | string (value : String)
  | list (items : List Value)
  | set (attributes : List (String × Value))

mutual

/-- A JSON value as a literal stands for it: a number by its JSON text, all else unchanged. -/
def Value.ofJson : Json → Value
  | .null => .null
  | .bool b => .bool b
  | .number n => .number (Json.number n).render
  | .string s => .string s
  | .array items => .list (Value.ofItems items)
  | .object members => .set (Value.ofMembers members)

/-- The items of an array, one by one. -/
def Value.ofItems : List Json → List Value
  | [] => []
  | v :: rest => Value.ofJson v :: Value.ofItems rest

/-- The members of an object, one by one and under the same keys. -/
def Value.ofMembers : List (String × Json) → List (String × Value)
  | [] => []
  | (k, v) :: rest => (k, Value.ofJson v) :: Value.ofMembers rest

end

namespace Reader

/-- A character that may stand between tokens. -/
def isSpace (c : Char) : Bool :=
  c == ' ' || c == '\n' || c == '\r' || c == '\t'

/-- Drops the blanks in front of a token. -/
def skipSpace (cs : List Char) : List Char :=
  cs.dropWhile isSpace

/-- Reads one given character. -/
def expect (mark : Char) : List Char → Option (List Char)
  | [] => none
  | c :: rest => if c = mark then some rest else none

def isLetter (c : Char) : Bool :=
  ('a' ≤ c && c ≤ 'z') || ('A' ≤ c && c ≤ 'Z')

def isDigit (c : Char) : Bool :=
  '0' ≤ c && c ≤ '9'

def isWordChar (c : Char) : Bool :=
  isLetter c || isDigit c || ['_', '-', '\''].contains c

/-- The words that cannot be identifiers. -/
def reserved : List String :=
  ["assert", "else", "if", "in", "inherit", "let", "or", "rec", "then", "with"]

/-- A word that is an identifier: it starts with a letter or an underscore and is not reserved. -/
def isIdentifier (word : List Char) : Bool :=
  word.head?.any (fun c => isLetter c || c == '_') && !reserved.contains (String.ofList word)

/-- The character that stands for a character after a backslash. -/
def unescape (c : Char) : Char :=
  if c = 'n' then '\n' else if c = 'r' then '\r' else if c = 't' then '\t' else c

/-- Reads the inside of a string up to its closing quote. -/
def readText : List Char → Option (List Char × List Char)
  | [] => none
  | c :: rest =>
    if c = '"' then some ([], rest)
    else if c = '\\' then
      match rest with
      | [] => none
      | d :: rest => (readText rest).map fun (text, left) => (unescape d :: text, left)
    else if c = '$' ∧ rest.head? = some '\x7b' then none
    else (readText rest).map fun (text, left) => (c :: text, left)

/-- Reads the name of an attribute: a string, or an identifier. -/
def readName : List Char → Option (String × List Char)
  | '"' :: rest => (readText rest).map fun (text, left) => (String.ofList text, left)
  | cs =>
    let word := cs.takeWhile isWordChar
    if isIdentifier word then some (String.ofList word, cs.dropWhile isWordChar) else none

/-- Reads digits; there must be one. -/
def readDigits (cs : List Char) : Option (List Char × List Char) :=
  match cs.takeWhile isDigit with
  | [] => none
  | digits => some (digits, cs.dropWhile isDigit)

/-- Reads a sign, if one of the given ones is there. -/
def readSign (signs : List Char) : List Char → List Char × List Char
  | [] => ([], [])
  | c :: rest => if signs.contains c then ([c], rest) else ([], c :: rest)

/-- Reads a point and the digits after it, if a point is there. -/
def readFraction : List Char → Option (List Char × List Char)
  | '.' :: rest => (readDigits rest).map fun (digits, left) => ('.' :: digits, left)
  | cs => some ([], cs)

/-- Reads an exponent with its mark, if the mark is there. -/
def readExponent : List Char → Option (List Char × List Char)
  | 'e' :: rest =>
    let (sign, rest) := readSign ['+', '-'] rest
    (readDigits rest).map fun (digits, left) => ('e' :: (sign ++ digits), left)
  | cs => some ([], cs)

def readNumber (cs : List Char) : Option (List Char × List Char) := do
  let (sign, cs) := readSign ['-'] cs
  let (whole, cs) ← readDigits cs
  let (fraction, cs) ← readFraction cs
  let (exponent, cs) ← readExponent cs
  return (sign ++ whole ++ fraction ++ exponent, cs)

def wordValue? : String → Option Value
  | "true" => some (.bool true)
  | "false" => some (.bool false)
  | "null" => some .null
  | _ => none

def readWord (cs : List Char) : Option (Value × List Char) :=
  (wordValue? (String.ofList (cs.takeWhile isWordChar))).map fun v => (v, cs.dropWhile isWordChar)

mutual

/-- Reads the value at the very start of the characters, `fuel` bounding the number of steps. -/
def readValue (fuel : Nat) (cs : List Char) : Option (Value × List Char) :=
  match fuel, cs with
  | 0, _ => none
  | _, [] => none
  | fuel + 1, c :: rest =>
    if c = '\x7b' then
      (readAttributes fuel rest).map fun (attributes, left) => (.set attributes, left)
    else if c = '[' then (readItems fuel rest).map fun (items, left) => (.list items, left)
    else if c = '"' then
      (readText rest).map fun (text, left) => (.string (String.ofList text), left)
    else if c = '(' then do
      let (value, left) ← readValue fuel (skipSpace rest)
      let left ← expect ')' (skipSpace left)
      return (value, left)
    else if c = '-' || isDigit c then
      (readNumber (c :: rest)).map fun (text, left) => (.number (String.ofList text), left)
    else readWord (c :: rest)

/-- Reads the items of a list up to its closing bracket. -/
def readItems (fuel : Nat) (cs : List Char) : Option (List Value × List Char) :=
  match fuel with
  | 0 => none
  | fuel + 1 =>
    match skipSpace cs with
    | [] => none
    | c :: rest =>
      if c = ']' then some ([], rest)
      else if !cs.head?.any isSpace || c = '-' then none
      else do
        let (value, left) ← readValue fuel (c :: rest)
        let (values, left) ← readItems fuel left
        return (value :: values, left)

/-- Reads the attributes of a set up to its closing brace. -/
def readAttributes (fuel : Nat) (cs : List Char) : Option (List (String × Value) × List Char) :=
  match fuel with
  | 0 => none
  | fuel + 1 =>
    match skipSpace cs with
    | [] => none
    | c :: rest =>
      if c = '\x7d' then some ([], rest)
      else do
        let (name, left) ← readName (c :: rest)
        let left ← expect '=' (skipSpace left)
        let (value, left) ← readValue fuel (skipSpace left)
        let left ← expect ';' (skipSpace left)
        let (attributes, left) ← readAttributes fuel left
        return ((name, value) :: attributes, left)

end

/-- Reads the value at the start of the characters. A value takes no more steps than it has
characters. -/
def read? (cs : List Char) : Option (Value × List Char) :=
  readValue cs.length cs

end Reader

end Scaffolding.Nix
