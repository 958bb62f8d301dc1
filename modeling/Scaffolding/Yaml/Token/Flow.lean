import Scaffolding.Json.Reader
import Scaffolding.Yaml.Cursor

/-!
# Flow scalars

The scalars that may stand inside brackets: plain ones and quoted ones. Both may go over several lines.
-/

set_option autoImplicit false

namespace Scaffolding.Yaml

/-!
## Gaps in scalars

Between two words of a plain or quoted scalar there is a gap: spaces within a line, or line breaks
with spaces around them. A gap of spaces is kept. Of a gap of breaks one line feed becomes a space,
and where there are more, the first is dropped and the others are kept.
-/

/-- The gap before the next word of a scalar. -/
inductive Gap
  | spaces (text : List Char)
  | breaks (first others : List Char)
  deriving Repr

namespace Gap

def none : Gap :=
  .spaces []

/-- A line ended within the gap. -/
def hasBreak : Gap → Bool
  | spaces _ => false
  | breaks .. => true

/-- What a gap contributes to the text of a scalar. -/
def text : Gap → List Char
  | spaces s => s
  | breaks first others =>
    if first.head? == some '\n' then (if others.isEmpty then [' '] else others)
    else first ++ others

/-- Reads a gap, `fuel` bounding its length. After a break, a tab before the column `indent` is
refused; spaces after a break are dropped. -/
def readLoop (indent : Nat) : Nat → Gap → Cursor → Except Error (Gap × Cursor)
  | 0, gap, c => .ok (gap, c)
  | fuel + 1, gap, c =>
    match c.peek? with
    | some x =>
      if isSpace x then
        match gap with
        | spaces s => readLoop indent fuel (spaces (s ++ [x])) (c.advance 1)
        | breaks first others =>
          if x = '\t' ∧ c.column < indent then .error .tabInIndentation
          else readLoop indent fuel (breaks first others) (c.advance 1)
      else if isBreak x then
        let (b, c) := c.takeBreak
        match gap with
        | spaces _ => readLoop indent fuel (breaks b []) c
        | breaks first others => readLoop indent fuel (breaks first (others ++ b)) c
      else .ok (gap, c)
    | Option.none => .ok (gap, c)

/-- Reads a gap that continues the one already begun. -/
def read (indent : Nat) (gap : Gap) (c : Cursor) : Except Error (Gap × Cursor) :=
  readLoop indent c.rest.length gap c

end Gap

/-!
## Plain scalars

A plain scalar has no quotes. It ends before a colon with a gap after it, before a comment, where
the indentation ends and, inside brackets, before a flow indicator.
-/

/-- The characters that end a plain scalar inside brackets. -/
def isFlowIndicator (c : Char) : Bool :=
  c == ',' || c == '[' || c == ']' || c == '\x7b' || c == '\x7d'

/-- The next word of a plain scalar: its characters up to a space, a break or an end. -/
def plainWord (inFlow : Bool) : List Char → Except Error (List Char)
  | [] => .ok []
  | c :: rest =>
    let gapNext := match rest with
      | [] => true
      | d :: _ => isSpace d || isBreak d
    let flowNext := match rest with
      | [] => false
      | d :: _ => isFlowIndicator d || d == '?'
    if isSpace c || isBreak c then .ok []
    else if inFlow && c == ':' && flowNext then .error .misplacedColon
    else if c == ':' && gapNext then .ok []
    else if inFlow && isFlowIndicator c then .ok []
    else (plainWord inFlow rest).map (c :: ·)

/-- A plain scalar that was read: its text, whether a line ended after it, and what is left. -/
structure PlainScalar where
  text : List Char
  brokeLine : Bool
  next : Cursor

/-- Reads words and gaps, `text` and `gap` being those already read. -/
def readPlainLoop (inFlow : Bool) (indent : Nat) :
    Nat → List Char → Gap → Cursor → Except Error PlainScalar
  | 0, text, gap, c => .ok ⟨text, gap.hasBreak, c⟩
  | fuel + 1, text, gap, c =>
    if c.atDocumentMarker || c.sees '#' then .ok ⟨text, gap.hasBreak, c⟩
    else do
      let word ← plainWord inFlow c.rest
      let c := c.advance word.length
      let text' := if word.isEmpty then text else text ++ gap.text ++ word
      let gap' := if word.isEmpty then gap else Gap.none
      if !(c.seesWhere fun x => isSpace x || isBreak x) then
        return ⟨text', gap'.hasBreak, c⟩
      let (gap', c) ← gap'.read indent c
      if !inFlow && decide (c.column < indent) then
        return ⟨text', gap'.hasBreak, c⟩
      readPlainLoop inFlow indent fuel text' gap' c

/-- Reads a plain scalar whose lines after the first are indented to the column `indent`. -/
def readPlain (inFlow : Bool) (indent : Nat) (c : Cursor) : Except Error PlainScalar :=
  readPlainLoop inFlow indent (c.rest.length + 1) [] Gap.none c

/-!
## Quoted scalars

A scalar in single quotes, where a quote is written twice, or in double quotes, where a backslash
starts an escape. Lines are joined as in plain scalars; an escaped line break joins without a space.
-/

/-- The characters written by the short escapes of a double-quoted scalar. -/
def escapedChar? (c : Char) : Option Nat :=
  match c with
  | '0' => some 0x0
  | 'a' => some 0x7
  | 'b' => some 0x8
  | 't' => some 0x9
  | '\t' => some 0x9
  | 'n' => some 0xA
  | 'v' => some 0xB
  | 'f' => some 0xC
  | 'r' => some 0xD
  | 'e' => some 0x1B
  | ' ' => some 0x20
  | '"' => some 0x22
  | '/' => some 0x2F
  | '\\' => some 0x5C
  | 'N' => some 0x85
  | '_' => some 0xA0
  | 'L' => some 0x2028
  | 'P' => some 0x2029
  | _ => none

/-- How many hexadecimal digits follow the letter of a numeric escape. -/
def escapeWidth? (c : Char) : Option Nat :=
  match c with
  | 'x' => some 2
  | 'u' => some 4
  | 'U' => some 8
  | _ => none

/-- The character with the number that hexadecimal digits write, if it is one. -/
def hexChar? (digits : List Char) : Option Char := do
  let value ← digits.foldlM (fun n c => (Json.hexValue? c).map (n * 16 + ·)) 0
  if (0xD800 ≤ value ∧ value ≤ 0xDFFF) ∨ 0x10FFFF < value then none
  else some (Char.ofNat value)

/-- A run of a quoted scalar: its text, how many characters it takes in the source, and whether it
ended at an escaped line break, which is not part of it. -/
structure QuotedRun where
  text : List Char
  length : Nat
  escapedBreak : Bool

/-- Puts a character before a run. -/
def QuotedRun.cons (c : Char) (width : Nat) (run : QuotedRun) : QuotedRun :=
  ⟨c :: run.text, run.length + width, run.escapedBreak⟩

/-- A run in single quotes, up to a space, a break or a quote that is not doubled. -/
def singleQuotedRun : List Char → QuotedRun
  | '\'' :: '\'' :: rest => (singleQuotedRun rest).cons '\'' 2
  | c :: rest =>
    if isSpace c || isBreak c || c == '\'' then ⟨[], 0, false⟩ else (singleQuotedRun rest).cons c 1
  | [] => ⟨[], 0, false⟩

/-- A run in double quotes, up to a space, a break, a quote or an escaped line break; `fuel` bounds
its length. -/
def doubleQuotedRun : Nat → List Char → Except Error QuotedRun
  | 0, _ => .ok ⟨[], 0, false⟩
  | fuel + 1, source =>
    match source with
    | [] => .ok ⟨[], 0, false⟩
    | '\\' :: [] => .error .unknownEscape
    | '\\' :: e :: rest =>
      if isBreak e then .ok ⟨[], 0, true⟩
      else
        match escapedChar? e, escapeWidth? e with
        | some n, _ => (doubleQuotedRun fuel rest).map (QuotedRun.cons (Char.ofNat n) 2)
        | none, some width =>
          match hexChar? (rest.take width) with
          | some x =>
            if (rest.take width).length < width then .error .unknownEscape
            else (doubleQuotedRun fuel (rest.drop width)).map (QuotedRun.cons x (2 + width))
          | none => .error .unknownEscape
        | none, none => .error .unknownEscape
    | c :: rest =>
      if isSpace c || isBreak c || c == '"' then .ok ⟨[], 0, false⟩
      else (doubleQuotedRun fuel rest).map (QuotedRun.cons c 1)

/-- Reads runs and gaps up to the closing quote. -/
def readQuotedLoop (single : Bool) : Nat → List Char → Cursor → Except Error (List Char × Cursor)
  | 0, _, _ => .error .unterminatedQuote
  | fuel + 1, text, c =>
    if c.atDocumentMarker || c.rest.isEmpty then .error .unterminatedQuote
    else do
      let run ← if single then .ok (singleQuotedRun c.rest) else doubleQuotedRun c.rest.length c.rest
      let text := text ++ run.text
      let c := c.advance run.length
      let c := if run.escapedBreak then (c.advance 1).takeBreak.2 else c
      if c.sees (if single then '\'' else '"') then
        return (text, c.advance 1)
      let (gap, c) ← Gap.read 0 (if run.escapedBreak then .breaks [] [] else .none) c
      readQuotedLoop single fuel (text ++ gap.text) c

/-- Reads a quoted scalar, the cursor standing at its opening quote. -/
def readQuoted (single : Bool) (c : Cursor) : Except Error (List Char × Cursor) :=
  readQuotedLoop single (c.rest.length + 1) [] (c.advance 1)

end Scaffolding.Yaml
