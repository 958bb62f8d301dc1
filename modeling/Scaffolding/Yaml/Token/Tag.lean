import Scaffolding.Json.Reader
import Scaffolding.Yaml.Cursor
import Scaffolding.Yaml.Node

/-!
# Tags, anchors and directives

The tokens that start with `!`, `&`, `*` and `%`. A tag is read as a handle and a suffix; percent
escapes in a suffix stand for the bytes of one character at a time.
-/

set_option autoImplicit false

namespace Scaffolding.Yaml

/-- The characters of a tag or of the prefix of a handle. Flow indicators may stand between angle
brackets and in directives only. -/
def isTagChar (verbatim : Bool) (c : Char) : Bool :=
  isWordChar c || c == ';' || c == '/' || c == '?' || c == ':' || c == '@' || c == '&' ||
    c == '=' || c == '+' || c == '$' || c == '.' || c == '%' || c == '!' || c == '~' || c == '*' ||
    c == '\'' || c == '(' || c == ')' || (verbatim && (c == ',' || c == '[' || c == ']'))

def bytesOf (cs : List Char) : List UInt8 :=
  (String.ofList cs).toUTF8.toList

/-- One byte written by a percent sign and two hexadecimal digits. -/
def escapedByte? : List Char → Option (UInt8 × List Char)
  | '%' :: a :: b :: rest => do
    let a ← Json.hexValue? a
    let b ← Json.hexValue? b
    return (UInt8.ofNat (a * 16 + b), rest)
  | _ => none

/-- How many bytes a character has that starts with this byte. -/
def encodedLength? (first : UInt8) : Option Nat :=
  if first < 0x80 then some 1
  else if 0xC0 ≤ first ∧ first < 0xE0 then some 2
  else if 0xE0 ≤ first ∧ first < 0xF0 then some 3
  else if 0xF0 ≤ first ∧ first < 0xF8 then some 4
  else none

/-- A number of escaped bytes that continue a character. -/
def continuationBytes? : Nat → List Char → Option (List UInt8 × List Char)
  | 0, cs => some ([], cs)
  | count + 1, cs => do
    let (b, rest) ← escapedByte? cs
    if b &&& 0xC0 != 0x80 then none
    let (more, rest) ← continuationBytes? count rest
    return (b :: more, rest)

def escapedCharacter? (cs : List Char) : Option (List UInt8 × List Char) := do
  let (first, rest) ← escapedByte? cs
  let length ← encodedLength? first
  let (more, rest) ← continuationBytes? (length - 1) rest
  return (first :: more, rest)

/-- Reads the characters of a tag, `fuel` bounding their number. -/
def readTagBytes (verbatim : Bool) : Nat → List UInt8 → Cursor →
    Except Error (List UInt8 × Cursor)
  | 0, bytes, c => .ok (bytes, c)
  | fuel + 1, bytes, c =>
    match c.peek? with
    | some x =>
      if !isTagChar verbatim x then .ok (bytes, c)
      else if x = '%' then
        match escapedCharacter? c.rest with
        | some (more, rest) =>
          readTagBytes verbatim fuel (bytes ++ more) (c.advance (c.rest.length - rest.length))
        | none => .error .malformedTag
      else readTagBytes verbatim fuel (bytes ++ bytesOf [x]) (c.advance 1)
    | none => .ok (bytes, c)

/-- Reads a tag text after the characters in `head`, of which the first is left out. There must be
something to read, or a head. A zero byte ends the text. -/
def readTagText (verbatim : Bool) (head : List Char) (c : Cursor) :
    Except Error (List UInt8 × Cursor) := do
  let (bytes, next) ← readTagBytes verbatim (c.rest.length + 1) (bytesOf (head.drop 1)) c
  if head.isEmpty ∧ next.index = c.index then .error .malformedTag
  return (bytes.takeWhile (· != 0), next)

/-- Reads a handle: an exclamation mark, word characters and perhaps another exclamation mark. -/
def readHandle (c : Cursor) : Except Error (List Char × Cursor) :=
  if !c.sees '!' then .error .malformedTag
  else
    let (word, c) := (c.advance 1).takeWhile isWordChar
    if c.sees '!' then .ok ('!' :: (word ++ ['!']), c.advance 1) else .ok ('!' :: word, c)

/-- A handle that ends with a second exclamation mark. -/
def isFullHandle (handle : List Char) : Bool :=
  decide (1 < handle.length) && handle.getLast? == some '!'

/-- Reads the parts of a tag: a text between angle brackets, a handle with its suffix, or a suffix
alone, which has the handle `!`. An exclamation mark alone is a tag without a handle. -/
def readTagParts (c : Cursor) : Except Error (Token × Cursor) := do
  if c.rest.take 2 == ['!', '<'] then
    let (suffix, c) ← readTagText true [] (c.advance 2)
    if !c.sees '>' then .error .malformedTag
    return (.tag "" suffix, c.advance 1)
  let (handle, c) ← readHandle c
  if isFullHandle handle then
    let (suffix, c) ← readTagText false [] c
    return (.tag (String.ofList handle) suffix, c)
  let (suffix, c) ← readTagText false handle c
  if suffix.isEmpty then return (.tag "" (bytesOf ['!']), c)
  return (.tag "!" suffix, c)

/-- Reads a tag. A gap has to follow it, or a comma inside brackets. -/
def readTag (inFlow : Bool) (c : Cursor) : Except Error (Token × Cursor) := do
  let (token, c) ← readTagParts c
  if c.gapAt 0 || (inFlow && c.sees ',') then return (token, c)
  .error .malformedTag

def readAnchorName (c : Cursor) : Except Error (String × Cursor) :=
  let (name, c) := (c.advance 1).takeWhile isWordChar
  let ends := c.gapAt 0 || c.seesWhere fun x =>
    x == '?' || x == ':' || x == ',' || x == ']' || x == '\x7d' || x == '%' || x == '@' ||
      x.toNat == 0x60
  if name.isEmpty || !ends then .error .malformedAnchor else .ok (String.ofList name, c)

/-- Reads one of the numbers of a version directive, of at most nine digits. -/
def readVersionNumber (c : Cursor) : Except Error (Nat × Cursor) :=
  let (digits, c) := c.takeWhile Char.isDigit
  if digits.isEmpty || decide (9 < digits.length) then .error .malformedDirective
  else .ok (digitsValue digits, c)

def readVersion (c : Cursor) : Except Error (Token × Cursor) := do
  let (major, c) ← readVersionNumber (c.skipWhile isSpace)
  if !c.sees '.' then .error .malformedDirective
  let (minor, c) ← readVersionNumber (c.advance 1)
  return (.version major minor, c)

/-- Reads the value of a tag directive: a handle and its prefix. -/
def readTagPrefix (c : Cursor) : Except Error (Token × Cursor) := do
  let (handle, c) ← readHandle (c.skipWhile isSpace)
  if !isFullHandle handle && handle != ['!'] then .error .malformedDirective
  if !c.seesWhere isSpace then .error .malformedDirective
  let (bytes, c) ← readTagText true [] (c.skipWhile isSpace)
  if !c.gapAt 0 then .error .malformedDirective
  return (.tagPrefix (String.ofList handle) bytes, c)

/-- Reads a directive and the rest of its line. -/
def readDirective (c : Cursor) : Except Error (Token × Cursor) := do
  let (name, c) := (c.advance 1).takeWhile isWordChar
  if !c.gapAt 0 then .error .malformedDirective
  let (token, c) ←
    if name == "YAML".toList then readVersion c
    else if name == "TAG".toList then readTagPrefix c
    else .error .malformedDirective
  let c := (c.skipWhile isSpace).skipComment
  if !c.atLineEnd then .error .malformedDirective
  return (token, c.takeBreak.2)

end Scaffolding.Yaml
