/-!
# YAML nodes

The nodes of a document, as they are written: scalars with their texts, sequences, mappings, and
aliases that stand for a node before them. An anchor is a number given in the order of the text. When
a name is used for a second anchor the numbers can meet, and then the later node counts.
-/

set_option autoImplicit false

namespace Scaffolding.Yaml

/-!
## YAML tokens

The tokens of a YAML text. The start and the end of block collections, which the text shows by
indentation alone, are tokens like any other; the end of the text is the end of the list of tokens.
-/

/-- How a scalar is written, as far as it decides what the scalar means. -/
inductive Style
  | plain
  | quoted
  | block
  deriving DecidableEq, Repr, Inhabited

/-- A token. The texts of tags are bytes, since an escape may write any byte. -/
inductive Token
  | version (major minor : Nat)
  | tagPrefix (handle : String) (bytes : List UInt8)
  | documentStart
  | documentEnd
  | blockSequenceStart
  | blockMappingStart
  | blockEnd
  | flowSequenceStart
  | flowSequenceEnd
  | flowMappingStart
  | flowMappingEnd
  | blockEntry
  | flowEntry
  | key
  | value
  | alias (name : String)
  | anchor (name : String)
  | tag (handle : String) (suffix : List UInt8)
  | scalar (style : Style) (text : String)
  deriving DecidableEq, Repr, Inhabited

/-! ## Nodes -/

/-- The tag of a node, as bytes. -/
structure Tag where
  bytes : List UInt8
  deriving DecidableEq, Repr

/-- What may stand before a node. -/
structure Properties where
  anchor : Option Nat
  tag : Option Tag
  deriving DecidableEq, Repr

/-- Nothing stands before the node. -/
def Properties.none : Properties :=
  ⟨Option.none, Option.none⟩

inductive Node
  | alias (anchor : Nat)
  | scalar (properties : Properties) (style : Style) (text : String)
  | sequence (properties : Properties) (items : List Node)
  | mapping (properties : Properties) (entries : List (Node × Node))
  deriving Repr, Inhabited

namespace Node

/-- The node that stands where the text has none. -/
def empty : Node :=
  .scalar .none .plain ""

mutual

/-- How many parts a node has: one for a scalar or an alias, and for a collection its start, its end
and the parts of its members. -/
def size : Node → Nat
  | .alias _ => 1
  | .scalar .. => 1
  | .sequence _ items => 2 + sizeItems items
  | .mapping _ entries => 2 + sizeEntries entries

def sizeItems : List Node → Nat
  | [] => 0
  | n :: rest => size n + sizeItems rest

def sizeEntries : List (Node × Node) → Nat
  | [] => 0
  | (k, v) :: rest => size k + size v + sizeEntries rest

end

/-- The node itself, if it has this anchor. -/
def self? (anchor : Nat) (properties : Properties) (node : Node) : Option Node :=
  if properties.anchor = some anchor then some node else none

mutual

/-- The last node with an anchor, in the order of the text. -/
def find? (anchor : Nat) : Node → Option Node
  | .alias _ => none
  | .scalar p style text => self? anchor p (.scalar p style text)
  | .sequence p items => (findItems anchor items).or (self? anchor p (.sequence p items))
  | .mapping p entries => (findEntries anchor entries).or (self? anchor p (.mapping p entries))

def findItems (anchor : Nat) : List Node → Option Node
  | [] => none
  | n :: rest => (findItems anchor rest).or (find? anchor n)

def findEntries (anchor : Nat) : List (Node × Node) → Option Node
  | [] => none
  | (k, v) :: rest => (findEntries anchor rest).or ((find? anchor v).or (find? anchor k))

end

end Node

/-- A document: its root, or nothing for a text without any. -/
structure Document where
  root : Option Node
  deriving Repr

namespace Document

/-- The number of parts of a document. -/
def size (d : Document) : Nat :=
  d.root.elim 1 Node.size

/-- The node that an alias stands for. -/
def target? (d : Document) (anchor : Nat) : Option Node :=
  d.root.bind (Node.find? anchor)

end Document

end Scaffolding.Yaml
