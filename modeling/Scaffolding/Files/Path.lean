import Scaffolding.Text.Split

/-!
# Paths

A path is a text. What the system makes of it are the names between its slashes, where it starts, and
whether it ends in a slash. Slashes and dots at the end of a path do not count as a name when its
parent is asked for; what is in front of the last name is kept as it is written.
-/

set_option autoImplicit false

namespace Scaffolding.Files

/-- The names between the slashes of a path. -/
def names (path : String) : List String :=
  (Text.split '/' path).filter fun n => !n.isEmpty

/-- A path that starts from the root. -/
def isAbsolute (path : String) : Bool :=
  path.toList.head? == some '/'

/-- A path that ends in a slash has to lead to a directory. -/
def endsInSlash (path : String) : Bool :=
  path.toList.getLast? == some '/'

/-- What there is to walk on a path: its names, and an empty one for a slash at its end. -/
def steps (path : String) : List String :=
  names path ++ bif endsInSlash path then [""] else []

/-- A path that leads further from a path. -/
def join (path rest : String) : String :=
  match isAbsolute rest, path.isEmpty || endsInSlash path with
  | true, _ => rest
  | false, true => path ++ rest
  | false, false => path ++ "/" ++ rest

/-- The last name of a path. -/
def fileName (path : String) : String :=
  (names path).getLast?.getD ""

/-- A path, in reverse, without the slashes and single dots at its end. -/
def trimEnd : List Char → List Char
  | '/' :: rest => trimEnd rest
  | '.' :: '/' :: rest => trimEnd rest
  | cs => cs

/-- The parent of a path that starts from the root; the root has none. -/
def parent? (path : String) : Option String :=
  match trimEnd path.toList.reverse with
  | [] => none
  | cs =>
    match trimEnd (cs.dropWhile (· != '/')) with
    | [] => some "/"
    | above => some (String.ofList above.reverse)

end Scaffolding.Files
