import Scaffolding.Yaml.Cursor

/-!
# Block scalars

A literal or folded scalar. Its head may give the indentation and say whether the line breaks at the
end are dropped, reduced to one or kept. Its lines are those indented to the same column; a folded
scalar joins two lines that do not start with a space.
-/

set_option autoImplicit false

namespace Scaffolding.Yaml

/-- What happens to the line breaks at the end of a block scalar. -/
inductive Chomping
  | strip
  | clip
  | keep
  deriving DecidableEq, Repr

/-- The chomping that an indicator asks for. -/
def chompingOf? : Option Char → Option Chomping
  | some '+' => some .keep
  | some '-' => some .strip
  | _ => none

/-- Reads an indentation indicator, a digit other than zero. -/
def readIncrement (c : Cursor) : Except Error (Nat × Cursor) :=
  match c.peek? with
  | some d =>
    if d.isDigit then
      if d = '0' then .error .malformedBlockHeader
      else .ok (d.toNat - '0'.toNat, c.advance 1)
    else .ok (0, c)
  | none => .ok (0, c)

/-- Reads the two indicators of a head, in either order; an increment of zero stands for none. -/
def readBlockHead (c : Cursor) : Except Error (Chomping × Nat × Cursor) :=
  match chompingOf? c.peek? with
  | some chomping => do
    let (increment, c) ← readIncrement (c.advance 1)
    return (chomping, increment, c)
  | none => do
    let (increment, c) ← readIncrement c
    if increment = 0 then return (.clip, 0, c)
    match chompingOf? c.peek? with
    | some chomping => return (chomping, increment, c.advance 1)
    | none => return (.clip, increment, c)

/-- Passes empty lines and the indentation of the line after them. Gives the breaks, the deepest
column reached and the cursor. An indentation of zero is one that is not known yet. -/
def readBlankLines (indent : Nat) :
    Nat → List Char → Nat → Cursor → Except Error (List Char × Nat × Cursor)
  | 0, breaks, deepest, c => .ok (breaks, deepest, c)
  | fuel + 1, breaks, deepest, c =>
    let spaces := (c.rest.takeWhile (· == ' ')).length
    let c := c.advance (if indent = 0 then spaces else min spaces (indent - c.column))
    let deepest := max deepest c.column
    if (indent = 0 ∨ c.column < indent) ∧ c.sees '\t' = true then .error .tabInIndentation
    else if c.seesWhere isBreak then
      let (b, c) := c.takeBreak
      readBlankLines indent fuel (breaks ++ b) deepest c
    else .ok (breaks, deepest, c)

/-- Passes empty lines, and settles the indentation if it is not known: the deepest column that was
reached, but more than that of the collection around the scalar. -/
def readBlankPart (outer : Int) (indent : Nat) (c : Cursor) :
    Except Error (List Char × Nat × Cursor) := do
  let (breaks, deepest, c) ← readBlankLines indent (c.rest.length + 1) [] 0 c
  let settled := if indent = 0 then max deepest (max (outer + 1).toNat 1) else indent
  return (breaks, settled, c)

/-- Reads the lines of a block scalar. `ending` is the break of the line before, `breaks` the empty
lines after it, and `indented` says whether that line started with a space. -/
def readBlockLines (folded : Bool) (outer : Int) (chomping : Chomping) :
    Nat → Nat → List Char → List Char → List Char → Bool → Cursor →
      Except Error (List Char × Cursor)
  | 0, _, text, _, _, _, c => .ok (text, c)
  | fuel + 1, indent, text, ending, breaks, indented, c =>
    if c.column == indent && !c.rest.isEmpty then do
      let spaced := c.seesWhere isSpace
      let joint :=
        if folded && ending.head? == some '\n' && !indented && !spaced then
          (if breaks.isEmpty then [' '] else [])
        else ending
      let (line, c) := c.takeWhile (fun x => !isBreak x)
      let (ending', c) := c.takeBreak
      let (breaks', indent, c) ← readBlankPart outer indent c
      readBlockLines folded outer chomping fuel indent (text ++ joint ++ breaks ++ line) ending'
        breaks' spaced c
    else
      match chomping with
      | .strip => .ok (text, c)
      | .clip => .ok (text ++ ending, c)
      | .keep => .ok (text ++ ending ++ breaks, c)

/-- Reads a block scalar in a collection of the indentation `outer`, the cursor standing at its
indicator. -/
def readBlock (folded : Bool) (outer : Int) (c : Cursor) : Except Error (List Char × Cursor) := do
  let (chomping, increment, c) ← readBlockHead (c.advance 1)
  let c := (c.skipWhile isSpace).skipComment
  if !c.atLineEnd then .error .malformedBlockHeader
  let c := c.takeBreak.2
  let indent := if increment = 0 then 0 else (max outer 0).toNat + increment
  let (breaks, indent, c) ← readBlankPart outer indent c
  readBlockLines folded outer chomping (c.rest.length + 1) indent [] [] breaks false c

end Scaffolding.Yaml
