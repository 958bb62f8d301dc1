import Scaffolding.Yaml.Node
import Scaffolding.Yaml.Token.Reader

/-!
# Reading nodes

The document that a list of tokens forms. What is left out in the text, such as the value of a key
without one, is an empty plain scalar. A text has at most one document.

Every function takes the tokens that are left and returns those it did not use; `fuel` bounds the
number of steps and is more than enough when it is three times the number of tokens.
-/

set_option autoImplicit false

namespace Scaffolding.Yaml

/-- What is known while nodes are read. -/
structure Reading where
  /-- The tokens that are left. -/
  tokens : List Token
  /-- The names of anchors with the number of their latest use. -/
  anchors : List (String × Nat)
  /-- The handles of tags with their prefixes. -/
  handles : List (String × List UInt8)

namespace Reading

def peek? (r : Reading) : Option Token :=
  r.tokens.head?

/-- The next token is the given one. -/
def sees (r : Reading) (t : Token) : Bool :=
  r.peek? == some t

/-- The next token is one of the given ones. -/
def seesAny (r : Reading) (ts : List Token) : Bool :=
  match r.peek? with
  | some t => ts.contains t
  | none => false

/-- Passes the next token. -/
def drop (r : Reading) : Reading :=
  { r with tokens := r.tokens.drop 1 }

/-- Gives an anchor its number, which is the number of names in use. -/
def anchor (name : String) (r : Reading) : Nat × Reading :=
  let number := r.anchors.length
  let known := r.anchors.any fun (n, _) => n == name
  let anchors :=
    if known then r.anchors.map fun (n, i) => if n = name then (n, number) else (n, i)
    else (name, number) :: r.anchors
  (number, { r with anchors })

def tagOf (r : Reading) (handle : String) (suffix : List UInt8) : Except Error Tag :=
  if handle.isEmpty then .ok ⟨suffix⟩
  else
    match r.handles.lookup handle with
    | some bytes => .ok ⟨bytes ++ suffix⟩
    | none => .error .unknownHandle

end Reading

/-- The anchor name and the tag before a node, in either order, each at most once. -/
def readProperties (r : Reading) : Except Error (Option String × Option Tag × Reading) :=
  match r.tokens with
  | .anchor name :: .tag handle suffix :: rest
  | .tag handle suffix :: .anchor name :: rest =>
    (r.tagOf handle suffix).map fun tag => (some name, some tag, { r with tokens := rest })
  | .anchor name :: rest => .ok (some name, none, { r with tokens := rest })
  | .tag handle suffix :: rest =>
    (r.tagOf handle suffix).map fun tag => (none, some tag, { r with tokens := rest })
  | _ => .ok (none, none, r)

/-- A tag that counts as none: one without text, and before a scalar an exclamation mark alone. -/
def scalarTag : Option Tag → Option Tag
  | some tag => if tag.bytes == ['!'.toNat.toUInt8] then none else some tag
  | none => none

mutual

/-- Reads a node. Only a node of a block collection may be a block collection itself, and only one
in a mapping may be a sequence whose dashes are not indented. -/
def readNode (fuel : Nat) (block dashes : Bool) (r : Reading) : Except Error (Node × Reading) :=
  match fuel with
  | 0 => .error .unexpectedToken
  | fuel + 1 =>
    match r.peek? with
    | some (.alias name) =>
      match r.anchors.lookup name with
      | some anchor => .ok (.alias anchor, r.drop)
      | none => .error .unknownAnchor
    | _ => do
      let (name, tag, r) ← readProperties r
      let (anchor, r) := match name with
        | some name => (some (r.anchor name).1, (r.anchor name).2)
        | none => (none, r)
      let p : Properties := ⟨anchor, tag⟩
      match r.peek? with
      | some .blockEntry =>
        if dashes then readDashes fuel p [] r else bare p r
      | some (.scalar style text) => .ok (.scalar ⟨anchor, scalarTag tag⟩ style text, r.drop)
      | some .flowSequenceStart => readFlowSequence fuel p [] true r.drop
      | some .flowMappingStart => readFlowMapping fuel p [] true r.drop
      | some .blockSequenceStart =>
        if block then readBlockSequence fuel p [] r.drop else bare p r
      | some .blockMappingStart =>
        if block then readBlockMapping fuel p [] r.drop else bare p r
      | _ => bare p r
where
  /-- Properties without a node stand before an empty one. -/
  bare (p : Properties) (r : Reading) : Except Error (Node × Reading) :=
    if p = .none then .error .unexpectedToken else .ok (.scalar p .plain "", r)

def readBlockSequence (fuel : Nat) (p : Properties) (done : List Node) (r : Reading) :
    Except Error (Node × Reading) :=
  match fuel with
  | 0 => .error .unexpectedToken
  | fuel + 1 =>
    if r.sees .blockEntry then
      let r := r.drop
      if r.seesAny [.blockEntry, .blockEnd] then readBlockSequence fuel p (.empty :: done) r
      else do
        let (n, r) ← readNode fuel true false r
        readBlockSequence fuel p (n :: done) r
    else if r.sees .blockEnd then .ok (.sequence p done.reverse, r.drop)
    else .error .unexpectedToken

/-- Reads the entries of a sequence whose dashes are not indented; it ends where no dash follows. -/
def readDashes (fuel : Nat) (p : Properties) (done : List Node) (r : Reading) :
    Except Error (Node × Reading) :=
  match fuel with
  | 0 => .error .unexpectedToken
  | fuel + 1 =>
    if r.sees .blockEntry then
      let r := r.drop
      if r.seesAny [.blockEntry, .key, .value, .blockEnd] then readDashes fuel p (.empty :: done) r
      else do
        let (n, r) ← readNode fuel true false r
        readDashes fuel p (n :: done) r
    else .ok (.sequence p done.reverse, r)

def readBlockMapping (fuel : Nat) (p : Properties) (done : List (Node × Node)) (r : Reading) :
    Except Error (Node × Reading) :=
  match fuel with
  | 0 => .error .unexpectedToken
  | fuel + 1 =>
    if r.sees .key then do
      let (k, r) ← readBlockPart fuel r.drop
      let (v, r) ← if r.sees .value then readBlockPart fuel r.drop else .ok (.empty, r)
      readBlockMapping fuel p ((k, v) :: done) r
    else if r.sees .blockEnd then .ok (.mapping p done.reverse, r.drop)
    else .error .unexpectedToken

/-- Reads a key or a value of a block mapping, which may be left out. -/
def readBlockPart (fuel : Nat) (r : Reading) : Except Error (Node × Reading) :=
  match fuel with
  | 0 => .error .unexpectedToken
  | fuel + 1 =>
    if r.seesAny [.key, .value, .blockEnd] then .ok (.empty, r) else readNode fuel true true r

/-- Reads the entries of a sequence in brackets. -/
def readFlowSequence (fuel : Nat) (p : Properties) (done : List Node) (first : Bool) (r : Reading) :
    Except Error (Node × Reading) :=
  match fuel with
  | 0 => .error .unexpectedToken
  | fuel + 1 =>
    if r.sees .flowSequenceEnd then .ok (.sequence p done.reverse, r.drop)
    else if !first && !r.sees .flowEntry then .error .unexpectedToken
    else
      let r := if first then r else r.drop
      if r.sees .key then do
        let (n, r) ← readPair fuel r.drop
        readFlowSequence fuel p (n :: done) false r
      else if r.sees .flowSequenceEnd then .ok (.sequence p done.reverse, r.drop)
      else do
        let (n, r) ← readNode fuel false false r
        readFlowSequence fuel p (n :: done) false r

/-- Reads a single pair of a key and a value within brackets of a sequence; it is a mapping of one
entry. Where the key is left out, the token in its place is passed. -/
def readPair (fuel : Nat) (r : Reading) : Except Error (Node × Reading) :=
  match fuel with
  | 0 => .error .unexpectedToken
  | fuel + 1 => do
    let (k, r) ←
      if r.seesAny [.value, .flowEntry, .flowSequenceEnd] then .ok (.empty, r.drop)
      else readNode fuel false false r
    let (v, r) ←
      if r.sees .value then
        if r.drop.seesAny [.flowEntry, .flowSequenceEnd] then .ok (.empty, r.drop)
        else readNode fuel false false r.drop
      else .ok (.empty, r)
    return (.mapping .none [(k, v)], r)

/-- Reads the entries of a mapping in braces. -/
def readFlowMapping (fuel : Nat) (p : Properties) (done : List (Node × Node)) (first : Bool)
    (r : Reading) : Except Error (Node × Reading) :=
  match fuel with
  | 0 => .error .unexpectedToken
  | fuel + 1 =>
    if r.sees .flowMappingEnd then .ok (.mapping p done.reverse, r.drop)
    else if !first && !r.sees .flowEntry then .error .unexpectedToken
    else
      let r := if first then r else r.drop
      if r.sees .key then do
        let r := r.drop
        let (k, r) ←
          if r.seesAny [.value, .flowEntry, .flowMappingEnd] then .ok (.empty, r)
          else readNode fuel false false r
        let (v, r) ←
          if r.sees .value then
            if r.drop.seesAny [.flowEntry, .flowMappingEnd] then .ok (.empty, r.drop)
            else readNode fuel false false r.drop
          else .ok (.empty, r)
        readFlowMapping fuel p ((k, v) :: done) false r
      else if r.sees .flowMappingEnd then .ok (.mapping p done.reverse, r.drop)
      else do
        let (k, r) ← readNode fuel false false r
        readFlowMapping fuel p ((k, .empty) :: done) false r

end

/-- The handles that need no directive. -/
def standardHandles : List (String × List UInt8) :=
  [("!", bytesOf ['!']), ("!!", bytesOf "tag:yaml.org,2002:".toList)]

/-- Reads the directives before a document: one version at most, which must be 1.1 or 1.2, and no
handle twice. -/
def readDirectives (hasVersion : Bool) (handles : List (String × List UInt8)) :
    List Token → Except Error (List (String × List UInt8) × List Token)
  | .version major minor :: rest =>
    if hasVersion then .error .malformedDirective
    else if major = 1 ∧ (minor = 1 ∨ minor = 2) then readDirectives true handles rest
    else .error .malformedDirective
  | .tagPrefix handle bytes :: rest =>
    if (handles.lookup handle).isSome then .error .malformedDirective
    else readDirectives hasVersion ((handle, bytes) :: handles) rest
  | tokens => .ok (handles, tokens)

def readContent (handles : List (String × List UInt8)) (tokens : List Token) :
    Except Error (Node × List Token) :=
  (readNode (3 * tokens.length + 3) true false ⟨tokens, [], handles ++ standardHandles⟩).map
    fun (n, r) => (n, r.tokens)

/-- Reads the first document: the one after directives and a marker, or one without a marker. -/
def readFirst (tokens : List Token) : Except Error (Node × List Token) := do
  match tokens with
  | .version .. :: _ | .tagPrefix .. :: _ | .documentStart :: _ =>
    let (handles, rest) ← readDirectives false [] tokens
    match rest with
    | .documentStart :: rest =>
      match rest with
      | [] | .version .. :: _ | .tagPrefix .. :: _ | .documentStart :: _ | .documentEnd :: _ =>
        return (.empty, rest)
      | _ => readContent handles rest
    | _ => .error .unexpectedToken
  | _ => readContent [] tokens

/-- The document formed by a list of tokens. After it only markers of its end may follow. -/
def readDocument (tokens : List Token) : Except Error Document :=
  match tokens with
  | [] => .ok ⟨none⟩
  | _ => do
    let (root, rest) ← readFirst tokens
    if rest.all (· == .documentEnd) then return ⟨some root⟩
    .error .secondDocument

def Document.parse (text : String) : Except Error Document := do
  readDocument (← tokens text)

end Scaffolding.Yaml
