import Scaffolding.Yaml.Token.Block
import Scaffolding.Yaml.Token.Flow
import Scaffolding.Yaml.Token.Tag

/-!
# Cutting a YAML text into tokens

A text is read token by token. Two things make the tokens of YAML depend on what comes later and
what came before. A token may turn out to be a key only when a colon follows it, so places where a
key may have started are remembered, one for each level of brackets, and the key token is put in
afterwards. And block collections start and end by indentation, so the columns of the open ones are
kept.

A key of this kind must be on one line and, with the colon, within 1024 characters. A place that
must hold a key, because nothing else may stand in that column, is an error when it turns out not to.
-/

set_option autoImplicit false

namespace Scaffolding.Yaml

/-- A place where a key may have started. -/
structure KeyPlace where
  /-- How many tokens come before it. -/
  tokens : Nat
  index : Nat
  line : Nat
  column : Nat
  /-- Nothing but a key may stand here. -/
  required : Bool

/-- What is known while a text is cut into tokens. -/
structure Lexer where
  cursor : Cursor
  /-- The tokens so far, the last one first. -/
  tokens : List Token
  /-- The column of the innermost open block collection, or `-1`. -/
  indent : Int
  /-- The columns of the open block collections around it. -/
  outer : List Int
  /-- The place of a possible key, for this level of brackets and for those around it. -/
  keys : List (Option KeyPlace)
  /-- How many brackets are open. -/
  depth : Nat
  /-- A key may start at the next token. -/
  keyAllowed : Bool

namespace Lexer

/-- Before the first token. -/
def start (text : List Char) : Lexer :=
  ⟨Cursor.start text, [], -1, [], [none], 0, true⟩

/-- Brackets are open, so indentation does not count. -/
def inFlow (l : Lexer) : Bool :=
  l.depth != 0

def push (t : Token) (l : Lexer) : Lexer :=
  { l with tokens := t :: l.tokens }

/-- Puts a token in after the first `count` tokens. -/
def insert (count : Nat) (t : Token) (l : Lexer) : Lexer :=
  { l with tokens := l.tokens.insertIdx (l.tokens.length - count) t }

/-- Passes characters of the current line. -/
def advance (count : Nat) (l : Lexer) : Lexer :=
  { l with cursor := l.cursor.advance count }

def allowKey (allowed : Bool) (l : Lexer) : Lexer :=
  { l with keyAllowed := allowed }

/-- The cursor after spaces, comments and line breaks, and whether a key may start there. Tabs do
not count as spaces where a key may start. -/
def skipGaps (inFlow : Bool) : Nat → Bool → Cursor → Bool × Cursor
  | 0, allowed, c => (allowed, c)
  | fuel + 1, allowed, c =>
    let c := if c.index == 0 && c.sees (Char.ofNat 0xFEFF) then c.advance 1 else c
    let c := c.skipWhile fun x => x == ' ' || ((inFlow || !allowed) && x == '\t')
    let c := c.skipComment
    if c.seesWhere isBreak then skipGaps inFlow fuel (allowed || !inFlow) c.takeBreak.2
    else (allowed, c)

def toNextToken (l : Lexer) : Lexer :=
  let (allowed, c) := skipGaps l.inFlow (l.cursor.rest.length + 1) l.keyAllowed l.cursor
  { l with cursor := c, keyAllowed := allowed }

/-- A place is out of reach when the line has ended or the key has become too long. -/
def outOfReach (c : Cursor) (k : KeyPlace) : Bool :=
  decide (k.line < c.line) || decide (k.index + 1024 < c.index)

/-- Forgets one place if it is out of reach; it must not be a required one. -/
def dropStaleKey (c : Cursor) : Option KeyPlace → Except Error (Option KeyPlace)
  | none => .ok none
  | some k =>
    if outOfReach c k then (if k.required then .error .missingColon else .ok none) else .ok (some k)

/-- Forgets the places that are out of reach. -/
def dropStaleKeys (l : Lexer) : Except Error Lexer := do
  let keys ← l.keys.mapM (dropStaleKey l.cursor)
  return { l with keys }

/-- Forgets the place of this level; it must not be a required one. -/
def dropKey (l : Lexer) : Except Error Lexer :=
  match l.keys with
  | some k :: rest =>
    if k.required then .error .missingColon else .ok { l with keys := none :: rest }
  | _ => .ok l

/-- Remembers that a key may start here. -/
def saveKey (l : Lexer) : Except Error Lexer :=
  if l.keyAllowed then do
    let l ← l.dropKey
    let c := l.cursor
    let place : KeyPlace :=
      ⟨l.tokens.length, c.index, c.line, c.column, !l.inFlow && l.indent == (c.column : Int)⟩
    return { l with keys := some place :: l.keys.drop 1 }
  else .ok l

/-- Opens a block collection at a column that is deeper than the open ones. Its token comes last, or
after the first `place` tokens. -/
def openBlock (column : Nat) (place : Option Nat) (t : Token) (l : Lexer) : Lexer :=
  if !l.inFlow && decide (l.indent < (column : Int)) then
    let l := { l with outer := l.indent :: l.outer, indent := column }
    match place with
    | none => l.push t
    | some count => l.insert count t
  else l

/-- Closes the block collections that are deeper than a column. -/
def closeBlocks (column : Int) (l : Lexer) : Lexer :=
  if l.inFlow then l
  else
    let rec close : Int → List Int → List Token → Int × List Int × List Token
      | indent, [], tokens => (indent, [], tokens)
      | indent, next :: rest, tokens =>
        if column < indent then close next rest (.blockEnd :: tokens)
        else (indent, next :: rest, tokens)
    let (indent, outer, tokens) := close l.indent l.outer l.tokens
    { l with indent, outer, tokens }

/-- The end of the text: everything open by indentation is closed. -/
def finish (l : Lexer) : Except Error Lexer :=
  (l.closeBlocks (-1)).dropKey

/-- A token that no indentation and no key reaches across, given with what is left after it. -/
def atMargin (l : Lexer) : Except Error Lexer := do
  let l ← (l.closeBlocks (-1)).dropKey
  return l.allowKey false

def openFlow (t : Token) (l : Lexer) : Except Error Lexer := do
  let l ← l.saveKey
  return ({ l with keys := none :: l.keys, depth := l.depth + 1 }.allowKey true).advance 1 |>.push t

/-- A bracket closes. -/
def closeFlow (t : Token) (l : Lexer) : Except Error Lexer := do
  let l ← l.dropKey
  let l := if l.inFlow then { l with keys := l.keys.drop 1, depth := l.depth - 1 } else l
  return ((l.allowKey false).advance 1).push t

/-- A comma. -/
def flowEntry (l : Lexer) : Except Error Lexer := do
  let l ← l.dropKey
  return ((l.allowKey true).advance 1).push .flowEntry

/-- A dash before an entry. -/
def blockEntry (l : Lexer) : Except Error Lexer := do
  if !l.inFlow && !l.keyAllowed then .error .misplacedIndicator
  let l ← (l.openBlock l.cursor.column none .blockSequenceStart).dropKey
  return ((l.allowKey true).advance 1).push .blockEntry

/-- A question mark before a key. -/
def explicitKey (l : Lexer) : Except Error Lexer := do
  if !l.inFlow && !l.keyAllowed then .error .misplacedIndicator
  let l ← (l.openBlock l.cursor.column none .blockMappingStart).dropKey
  return ((l.allowKey (!l.inFlow)).advance 1).push .key

/-- A colon: what started at the remembered place was a key, or the key was given explicitly. -/
def valueMark (l : Lexer) : Except Error Lexer := do
  match l.keys with
  | some k :: rest =>
    let l := l.insert k.tokens .key
    let l := l.openBlock k.column (some k.tokens) .blockMappingStart
    return (({ l with keys := none :: rest }.allowKey false).advance 1).push .value
  | _ =>
    if !l.inFlow && !l.keyAllowed then .error .misplacedIndicator
    let l := l.openBlock l.cursor.column none .blockMappingStart
    return ((l.allowKey (!l.inFlow)).advance 1).push .value

/-- A token that may start a key and is read by `read`. -/
def keyToken (read : Cursor → Except Error (Token × Cursor)) (l : Lexer) : Except Error Lexer := do
  let l ← l.saveKey
  let (t, c) ← read l.cursor
  return ({ l with cursor := c }.allowKey false).push t

/-- A plain scalar. A key may follow it when its line has ended. -/
def plainToken (l : Lexer) : Except Error Lexer := do
  let l ← l.saveKey
  let s ← readPlain l.inFlow (l.indent + 1).toNat l.cursor
  return ({ l with cursor := s.next }.allowKey s.brokeLine).push
    (.scalar .plain (String.ofList s.text))

def blockToken (folded : Bool) (l : Lexer) : Except Error Lexer := do
  let l ← l.dropKey
  let (text, c) ← readBlock folded l.indent l.cursor
  return ({ l with cursor := c }.allowKey true).push (.scalar .block (String.ofList text))

/-- The characters that cannot start a plain scalar. -/
def isIndicator (c : Char) : Bool :=
  c == '-' || c == '?' || c == ':' || c == ',' || c == '[' || c == ']' || c == '\x7b' ||
    c == '\x7d' || c == '#' || c == '&' || c == '*' || c == '!' || c == '|' || c == '>' ||
    c == '\'' || c == '"' || c == '%' || c == '@' || c.toNat == 0x60

/-- A plain scalar starts here: at no indicator, or at a dash, a question mark or a colon that is
followed by something. -/
def startsPlain (l : Lexer) (x : Char) : Bool :=
  let c := l.cursor
  let spaceNext := match c.rest[1]? with
    | some y => isSpace y
    | none => false
  !(isIndicator x || isSpace x || isBreak x) || (x == '-' && !spaceNext) ||
    (!l.inFlow && (x == '?' || x == ':') && !c.gapAt 1)

/-- Reads the token that starts with the character `x` at the cursor. -/
def token (l : Lexer) (x : Char) : Except Error Lexer :=
  let c := l.cursor
  if c.column == 0 && x == '%' then do
    let l ← l.atMargin
    let (t, c) ← readDirective l.cursor
    return { l with cursor := c }.push t
  else if c.atMarker '-' then do
    let l ← l.atMargin
    return (l.advance 3).push .documentStart
  else if c.atMarker '.' then do
    let l ← l.atMargin
    return (l.advance 3).push .documentEnd
  else if x == '[' then l.openFlow .flowSequenceStart
  else if x == '\x7b' then l.openFlow .flowMappingStart
  else if x == ']' then l.closeFlow .flowSequenceEnd
  else if x == '\x7d' then l.closeFlow .flowMappingEnd
  else if x == ',' then l.flowEntry
  else if x == '-' && c.gapAt 1 then l.blockEntry
  else if x == '?' && (l.inFlow || c.gapAt 1) then l.explicitKey
  else if x == ':' && (l.inFlow || c.gapAt 1) then l.valueMark
  else if x == '*' then
    l.keyToken fun c => (readAnchorName c).map fun (name, c) => (.alias name, c)
  else if x == '&' then
    l.keyToken fun c => (readAnchorName c).map fun (name, c) => (.anchor name, c)
  else if x == '!' then l.keyToken (readTag l.inFlow)
  else if x == '|' && !l.inFlow then l.blockToken false
  else if x == '>' && !l.inFlow then l.blockToken true
  else if x == '\'' || x == '"' then
    l.keyToken fun c =>
      (readQuoted (x == '\'') c).map fun (text, c) => (.scalar .quoted (String.ofList text), c)
  else if l.startsPlain x then l.plainToken
  else .error .strayCharacter

/-- Reads all tokens that are left, `fuel` bounding their number. -/
def run : Nat → Lexer → Except Error Lexer
  | 0, _ => .error .strayCharacter
  | fuel + 1, l => do
    let l ← l.toNextToken.dropStaleKeys
    let l := l.closeBlocks l.cursor.column
    match l.cursor.peek? with
    | none => l.finish
    | some x =>
      let l ← l.token x
      run fuel l

end Lexer

def tokens (text : String) : Except Error (List Token) := do
  let cs := text.toList
  if !cs.all isAllowed then .error .controlCharacter
  let l ← Lexer.run (cs.length + 1) (Lexer.start cs)
  return l.tokens.reverse

end Scaffolding.Yaml
