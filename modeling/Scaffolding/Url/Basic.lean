import Scaffolding.Url.Host

/-!
# URLs

A URL in its parts, each as it is written. The path is a list of segments, or a text of its own for
a scheme that has no segments, as in `mailto:x`. The text of a URL puts the parts together.
-/

set_option autoImplicit false

namespace Scaffolding

inductive Url.Path
  /-- A slash before every segment. -/
  | segments (segments : List (List Char))
  /-- A text that is no list of segments. -/
  | other (text : List Char)
  deriving DecidableEq, Repr

/-- A URL in its parts. -/
structure Url where
  scheme : List Char
  username : List Char
  password : Option (List Char)
  host : Option Url.Host
  port : Option Nat
  path : Url.Path
  query : Option (List Char)
  fragment : Option (List Char)
  deriving DecidableEq, Repr

namespace Url

/-- The schemes with a host and a path of segments. -/
def isSpecialScheme (scheme : List Char) : Bool :=
  ["http", "https", "ws", "wss", "ftp", "file"].contains (String.ofList scheme)

/-- The URL has one of these schemes. -/
def isSpecial (u : Url) : Bool :=
  isSpecialScheme u.scheme

/-- The port that a scheme uses when none is given. -/
def defaultPort? (scheme : List Char) : Option Nat :=
  match String.ofList scheme with
  | "http" | "ws" => some 80
  | "https" | "wss" => some 443
  | "ftp" => some 21
  | _ => none

def Path.chars : Path → List Char
  | segments list => list.flatMap ('/' :: ·)
  | other text => text

/-- The user name and the password, as far as there are any. -/
def userChars (u : Url) : List Char :=
  match u.username, u.password with
  | [], none => []
  | name, none => name ++ ['@']
  | name, some password => name ++ ':' :: (password ++ ['@'])

/-- The part of a URL from the two slashes to the path. Without a host there is none; a path that
starts with two slashes is then set off by a dot. -/
def authorityChars (u : Url) : List Char :=
  match u.host with
  | some host =>
    '/' :: '/' :: (u.userChars ++ host.chars ++ u.port.elim [] fun p => ':' :: natChars p)
  | none =>
    match u.path with
    | .segments ([] :: _ :: _) => ['/', '.']
    | _ => []

def chars (u : Url) : List Char :=
  u.scheme ++ ':' :: (u.authorityChars ++ u.path.chars ++ u.query.elim [] ('?' :: ·) ++
    u.fragment.elim [] ('#' :: ·))

def text (u : Url) : String :=
  String.ofList u.chars

end Url

end Scaffolding

namespace Scaffolding.Url

/-!
## Paths of URLs

A path is read segment by segment, and segments can be added to it. A segment that is one dot, or
two, is never kept: two dots take the segment before it away.
-/

/-- A dot, plain or escaped, at the start of a segment, and what follows it. -/
def dropDot? : List Char → Option (List Char)
  | '.' :: rest => some rest
  | '%' :: '2' :: 'e' :: rest => some rest
  | '%' :: '2' :: 'E' :: rest => some rest
  | _ => none

def isSingleDot (segment : List Char) : Bool :=
  dropDot? segment == some []

def isDoubleDot (segment : List Char) : Bool :=
  (dropDot? segment).bind dropDot? == some []

/-- Adds a segment that was read. After a dot segment at the end of a path there is an empty one. -/
def addRead (last : Bool) (path : List (List Char)) (segment : List Char) : List (List Char) :=
  if isDoubleDot segment then (if last then path.dropLast ++ [[]] else path.dropLast)
  else if isSingleDot segment then (if last then path ++ [[]] else path)
  else path ++ [segment]

def endsSegment (special : Bool) (c : Char) : Bool :=
  c == '/' || (special && c == '\\')

/-- Reads the segments of a path; what is given has neither a query nor a fragment. `segment` is the
start of the first one, in reverse. -/
def readSegments (special : Bool) (path : List (List Char)) (segment : List Char) :
    List Char → List (List Char)
  | [] => addRead true path (encode plainInPath segment.reverse)
  | c :: rest =>
    if endsSegment special c then
      readSegments special (addRead false path (encode plainInPath segment.reverse)) [] rest
    else readSegments special path (c :: segment) rest

/-- A path that is a slash alone has one empty segment, in whose place the first added one comes. -/
def isRoot (path : List (List Char)) : Bool :=
  path == [[]]

/-- Takes an empty segment at the end away, but not the slash at the start. -/
def popEmpty (path : List (List Char)) : List (List Char) :=
  if decide (1 < path.length) && path.getLast? == some [] then path.dropLast else path

/-- The characters that are dropped from a segment. -/
def isDropped (c : Char) : Bool :=
  c == '\t' || c == '\n' || c == '\r'

/-- Adds a segment to a path. One or two dots are not added. Tabs and line ends are dropped from a
segment, and when only dots are left then, they count as dots in a path do. -/
def addSegment (special : Bool) (path : List (List Char)) (segment : List Char) :
    List (List Char) :=
  if segment = ['.'] ∨ segment = ['.', '.'] then path
  else
    let kept := encode (plainInSegment special) (segment.filter fun c => !isDropped c)
    let front := if isRoot path then [] else path
    if kept = ['.', '.'] then path.dropLast ++ [[]]
    else if kept = ['.'] then front ++ [[]]
    else front ++ [kept]

/-- The URL with segments added to its path, after an empty one at its end is taken away. A path
without segments cannot be extended. -/
def extend? (u : Url) (segments : List (List Char)) : Option Url :=
  match u.path with
  | .segments path =>
    some { u with path := .segments (segments.foldl (addSegment u.isSpecial) (popEmpty path)) }
  | .other _ => none

def addQuery (u : Url) (key value : List Char) : Url :=
  let pair := encodeForm key ++ '=' :: encodeForm value
  match u.query with
  | some (c :: rest) => { u with query := some (c :: rest ++ '&' :: pair) }
  | _ => { u with query := some pair }

end Scaffolding.Url
