import Scaffolding.Json.Printer
import Scaffolding.Text.Split

/-!
# Settings

The settings collected for one build: a tree of values in which a dotted path names a place. Putting
`db.host` and then `db.port` gives one object `db` with two members. The order of members is the
order in which they came.

A path with an empty part, such as `a..b` or the empty path, is not taken apart: it is one key.
-/

set_option autoImplicit false

namespace Scaffolding

/-- The settings for one build. -/
structure Settings where
  members : Members
  deriving BEq, Inhabited

namespace Settings

def empty : Settings :=
  ⟨[]⟩

def isEmpty (s : Settings) : Bool :=
  s.members.isEmpty

def pathKeys (path : String) : List String :=
  let pieces := Text.split '.' path
  if pieces.any (·.isEmpty) then [path] else pieces

/-- The members of a value in the place of an object; a value that is no object has none. -/
def membersAt (members : Members) (key : String) : Members :=
  match members.find? key with
  | some (.object inner) => inner
  | _ => []

/-- Puts a value under a list of keys, keeping what else the objects on the way hold. A value on the
way that is no object is replaced by one. -/
def putKeys (value : Json) : List String → Members → Members
  | [], members => members
  | [key], members => members.put key value
  | key :: next :: rest, members =>
    members.put key (.object (putKeys value (next :: rest) (membersAt members key)))

/-- The value under a list of keys, if objects lead to it. -/
def getKeys : List String → Members → Option Json
  | [], _ => none
  | [key], members => members.find? key
  | key :: next :: rest, members =>
    match members.find? key with
    | some (.object inner) => getKeys (next :: rest) inner
    | _ => none

def put (path : String) (value : Json) (s : Settings) : Settings :=
  ⟨putKeys value (pathKeys path) s.members⟩

/-- The value at a dotted path. -/
def get? (path : String) (s : Settings) : Option Json :=
  getKeys (pathKeys path) s.members

def toJson (s : Settings) : Json :=
  .object s.members

def jsonText (s : Settings) : String :=
  s.toJson.render

end Settings

end Scaffolding

namespace Scaffolding.Settings

/-!
## Summaries

Settings as rows for a table: every value that is no object, with the dotted path that leads to it
and a text for it. Texts are shown without quotes, lists with commas, null as nothing.
-/

mutual

/-- The text shown for a value. -/
def displayChars : Json → List Char
  | .string s => s.toList
  | .array items => displayItems items
  | .null => []
  | .bool b => Json.chars (.bool b)
  | .number n => Json.chars (.number n)
  | .object members => Json.chars (.object members)

/-- The texts of the items of a list, with commas. -/
def displayItems : List Json → List Char
  | [] => []
  | [v] => displayChars v
  | v :: w :: rest => displayChars v ++ ',' :: ' ' :: displayItems (w :: rest)

end

/-- The text shown for a value. -/
def display (value : Json) : String :=
  String.ofList (displayChars value)

/-- A key under a path; under the empty path it stands alone. -/
def joinKey (path key : String) : String :=
  if path.isEmpty then key else path ++ "." ++ key

mutual

def rowsOf (path : String) : Json → List (String × String)
  | .object members => rowsUnder path members
  | .null => [(path, display .null)]
  | .bool b => [(path, display (.bool b))]
  | .number n => [(path, display (.number n))]
  | .string s => [(path, display (.string s))]
  | .array items => [(path, display (.array items))]

/-- The rows of the members of an object at a path. -/
def rowsUnder (path : String) : List (String × Json) → List (String × String)
  | [] => []
  | (k, v) :: rest => rowsOf (joinKey path k) v ++ rowsUnder path rest

end

def rows (s : Settings) : List (String × String) :=
  rowsUnder "" s.members

end Scaffolding.Settings
