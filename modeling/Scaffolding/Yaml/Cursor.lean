/-!
# Places in a YAML text

A cursor is what is left of a text together with the place where it starts: the number of characters
before it, the line and the column. A carriage return and a line feed together are one line break.
-/

set_option autoImplicit false

namespace Scaffolding.Yaml

/-!
## YAML errors

The reasons for which a text is no YAML document, or a document does not have the shape that is
asked of it. They are told apart by cause; a reader of settings only needs to know that there is one.
-/

/-- Why a YAML document is refused. -/
inductive Error
  /-- A control character stands in the text. -/
  | controlCharacter
  /-- A tag, an anchor or an alias is not well formed. -/
  | malformedTag
  | malformedAnchor
  /-- A directive is not well formed, unknown, given twice or of another major version. -/
  | malformedDirective
  /-- A quoted text does not end, or holds an unknown escape. -/
  | unterminatedQuote
  | unknownEscape
  /-- The head of a block text is not well formed. -/
  | malformedBlockHeader
  /-- A tab stands where an indentation is expected. -/
  | tabInIndentation
  /-- A colon stands before a flow indicator. -/
  | misplacedColon
  /-- A key that has to be there is not followed by a colon. -/
  | missingColon
  /-- An entry, a key or a value may not start here. -/
  | misplacedIndicator
  /-- No token starts with this character. -/
  | strayCharacter
  /-- The tokens do not form a document. -/
  | unexpectedToken
  /-- An alias names no anchor before it. -/
  | unknownAnchor
  /-- A tag uses a handle that no directive defines. -/
  | unknownHandle
  /-- There is more than one document. -/
  | secondDocument
  /-- A key comes twice in one mapping. -/
  | duplicateKey
  /-- Collections are nested too deeply, or aliases unfold into too many nodes. -/
  | tooDeep
  | tooManyAliases
  /-- A value is not what its tag or its place asks for. -/
  | wrongShape
  /-- An integer is outside 64 bits. -/
  | integerRange
  deriving DecidableEq, Repr, Inhabited

/-- What stands in a message for the account of any of these errors. -/
def Error.message (_ : Error) : String :=
  "<yaml error>"

/-! ## Cursors -/

/-- The characters that end a line. -/
def isBreak (c : Char) : Bool :=
  c == '\n' || c == '\r' || c.toNat == 0x85 || c.toNat == 0x2028 || c.toNat == 0x2029

/-- The characters that separate within a line. -/
def isSpace (c : Char) : Bool :=
  c == ' ' || c == '\t'

/-- The characters of which anchors, handles and directive names consist. -/
def isWordChar (c : Char) : Bool :=
  c.isAlphanum || c == '_' || c == '-'

/-- The characters that a YAML text may hold. -/
def isAllowed (c : Char) : Bool :=
  let n := c.toNat
  n == 0x9 || n == 0xA || n == 0xD || (0x20 ≤ n && n ≤ 0x7E) || n == 0x85 ||
    (0xA0 ≤ n && n ≤ 0xD7FF) || (0xE000 ≤ n && n ≤ 0xFFFD) || 0x10000 ≤ n

/-- The rest of a text and where it starts. -/
structure Cursor where
  rest : List Char
  index : Nat
  line : Nat
  column : Nat
  deriving Repr

namespace Cursor

def start (text : List Char) : Cursor :=
  ⟨text, 0, 0, 0⟩

/-- The next character. -/
def peek? (c : Cursor) : Option Char :=
  c.rest.head?

/-- The next character is the given one. -/
def sees (c : Cursor) (x : Char) : Bool :=
  c.peek? == some x

/-- The character at a distance is a space, a break or missing. -/
def gapAt (c : Cursor) (distance : Nat) : Bool :=
  match c.rest[distance]? with
  | none => true
  | some x => isSpace x || isBreak x

/-- The next character satisfies a test. -/
def seesWhere (c : Cursor) (p : Char → Bool) : Bool :=
  match c.peek? with
  | some x => p x
  | none => false

/-- The next character is a break or missing. -/
def atLineEnd (c : Cursor) : Bool :=
  match c.peek? with
  | none => true
  | some x => isBreak x

/-- Passes a number of characters on the same line. -/
def advance (c : Cursor) (count : Nat) : Cursor :=
  ⟨c.rest.drop count, c.index + count, c.line, c.column + count⟩

/-- The characters of this line that satisfy a test, and the cursor after them. -/
def takeWhile (c : Cursor) (p : Char → Bool) : List Char × Cursor :=
  let taken := c.rest.takeWhile p
  (taken, c.advance taken.length)

/-- The cursor after the characters of this line that satisfy a test. -/
def skipWhile (c : Cursor) (p : Char → Bool) : Cursor :=
  (c.takeWhile p).2

/-- Takes a line break, if there is one. Every break is read as a line feed, but the separators of
lines and paragraphs stand for themselves. -/
def takeBreak (c : Cursor) : List Char × Cursor :=
  match c.rest with
  | '\r' :: '\n' :: rest => (['\n'], ⟨rest, c.index + 2, c.line + 1, 0⟩)
  | x :: rest =>
    if isBreak x then
      (if x.toNat == 0x2028 || x.toNat == 0x2029 then [x] else ['\n'],
        ⟨rest, c.index + 1, c.line + 1, 0⟩)
    else ([], c)
  | [] => ([], c)

/-- Passes a comment up to the end of its line. -/
def skipComment (c : Cursor) : Cursor :=
  if c.sees '#' then c.skipWhile (fun x => !isBreak x) else c

/-- A marker of the start or the end of a document stands here, at the beginning of a line. -/
def atMarker (c : Cursor) (mark : Char) : Bool :=
  c.column == 0 && c.rest.take 3 == [mark, mark, mark] && c.gapAt 3

/-- A marker of either kind stands here. -/
def atDocumentMarker (c : Cursor) : Bool :=
  c.atMarker '-' || c.atMarker '.'

end Cursor

end Scaffolding.Yaml
