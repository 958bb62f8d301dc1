import Scaffolding.Yaml.Node.Reader
import Scaffolding.Yaml.Scalar

/-!
# Reading values

The value that a node of a document means. Aliases are unfolded, which is bounded in two ways:
collections may be nested 128 deep, and aliases may be followed a hundred times for each part of the
document. Two entries of a mapping with the same key are an error.
-/

set_option autoImplicit false

namespace Scaffolding.Yaml

/-- How deep collections may be nested. -/
def depthLimit : Nat := 128

/-- How often aliases may be followed in a document. -/
def Document.aliasLimit (d : Document) : Nat :=
  100 * d.size

/-- A step of reading that counts the aliases followed so far. -/
abbrev Unfolding := StateT Nat (Except Error)

/-- The node that a node stands for: itself, or the target of an alias, which is then followed. -/
def Document.follow (d : Document) : Node → Unfolding Node
  | .alias anchor => fun followed =>
    if d.aliasLimit < followed + 1 then .error .tooManyAliases
    else
      match d.target? anchor with
      | some target => .ok (target, followed + 1)
      | none => .error .unknownAnchor
  | node => fun followed => .ok (node, followed)

/-- Puts the name of a local tag on a value. -/
def withTag (tag : Option Tag) (value : Value) : Value :=
  match tag.bind Tag.localName? with
  | some name => .tagged name value
  | none => value

/-- The tag that counts for the meaning of a scalar: a local tag that can be named is kept as a tag
and does not count. -/
def countingTag (tag : Option Tag) : Option Tag :=
  match tag.bind Tag.localName? with
  | some _ => none
  | none => tag

/-- The value of a node, with collections nested at most `depth` deep. -/
def Document.value (d : Document) (depth : Nat) (node : Node) : Unfolding Value := do
  match ← d.follow node with
  | .alias _ => throw .unknownAnchor
  | .scalar p style text =>
    let v ← liftM (scalarValue (countingTag p.tag) style text)
    return withTag p.tag v
  | .sequence p items =>
    match depth with
    | 0 => throw .tooDeep
    | depth + 1 =>
      let vs ← items.mapM (d.value depth)
      return withTag p.tag (.sequence vs)
  | .mapping p entries =>
    match depth with
    | 0 => throw .tooDeep
    | depth + 1 =>
      let done ← entries.foldlM (fun done entry => do
        let k ← d.value depth entry.1
        if done.any fun (known, _) => known.same k then throw .duplicateKey
        let v ← d.value depth entry.2
        return (k, v) :: done) []
      return withTag p.tag (.mapping done.reverse)

/-- The value that a text writes; a text without a document writes null. -/
def parse (text : String) : Except Error Value := do
  let d ← Document.parse text
  match d.root with
  | none => return .null
  | some root => (d.value depthLimit root).run' 0

end Scaffolding.Yaml

namespace Scaffolding.Yaml.Document

/-!
## Nodes of a known shape

Where the shape of a document is known, its nodes are read for that shape, which differs from
reading the values they mean: a text is whatever a scalar says, be it `true` or `12`; an empty scalar
is an empty list and an empty mapping; and what is not asked for is not looked at.
-/

def text (d : Document) (node : Node) : Unfolding String := do
  match ← d.follow node with
  | .scalar _ _ text => return text
  | _ => throw .wrongShape

def items (d : Document) (node : Node) : Unfolding (List Node) := do
  match ← d.follow node with
  | .sequence _ items => return items
  | .scalar _ _ "" => return []
  | _ => throw .wrongShape

def entries (d : Document) (node : Node) : Unfolding (List (Node × Node)) := do
  match ← d.follow node with
  | .mapping _ entries => return entries
  | .scalar _ _ "" => return []
  | _ => throw .wrongShape

/-- A scalar that stands for nothing: an empty plain scalar or a word for null. With the tag of null
it has to be such a word; with any other tag it stands for something. -/
def isAbsent (d : Document) (node : Node) : Unfolding Bool := do
  match ← d.follow node with
  | .scalar p .plain text =>
    match p.tag with
    | none => return text.isEmpty || isNullWord text
    | some tag =>
      if tag.isStandard "null" then
        if isNullWord text then return true else throw .wrongShape
      else return false
  | _ => return false

/-- The text of a scalar that may stand for nothing. -/
def optionalText (d : Document) (node : Node) : Unfolding (Option String) := do
  let node ← d.follow node
  if ← d.isAbsent node then return none
  return some (← d.text node)

end Scaffolding.Yaml.Document
