import Scaffolding.Url.Basic
import Scaffolding.Url.Domain

/-!
# Reading URLs

A text is read as a URL as browsers do it: blanks around it and line breaks in it do not count, the
scheme and the domain become small, a backslash counts as a slash in the known schemes, and dots in a
path are resolved. A text without a scheme is no URL, since there is nothing it could be relative to.
-/

set_option autoImplicit false

namespace Scaffolding.Url

/-- The text without controls and spaces around it and without tabs and line ends in it. -/
def clean (cs : List Char) : List Char :=
  let isOuter (c : Char) : Bool := decide (c.toNat ≤ 0x20)
  (((cs.dropWhile isOuter).reverse.dropWhile isOuter).reverse).filter fun c => !isDropped c

def readScheme? (cs : List Char) : Option (List Char × List Char) :=
  let isSchemeChar (c : Char) : Bool := c.isAlphanum || c == '+' || c == '-' || c == '.'
  match cs with
  | [] => none
  | c :: _ =>
    if !c.isAlpha then none
    else
      match cs.dropWhile isSchemeChar with
      | ':' :: rest => some ((cs.takeWhile isSchemeChar).map Char.toLower, rest)
      | _ => none

/-- A text up to its query and fragment, and these. -/
def cutTail (special : Bool) (cs : List Char) :
    List Char × Option (List Char) × Option (List Char) :=
  let (front, fragment) := Text.cutFirst '#' cs
  let (path, query) := Text.cutFirst '?' front
  (path, query.map (encode (plainInQuery special)), fragment.map (encode plainInFragment))

/-- The characters that end the part of a URL with the host. -/
def endsAuthority (special : Bool) (c : Char) : Bool :=
  c == '/' || c == '?' || c == '#' || (special && c == '\\')

/-- The text before and after the last `@`. -/
def cutLastAt (cs : List Char) : Option (List Char × List Char) :=
  match Text.cutFirst '@' cs.reverse with
  | (_, none) => none
  | (back, some front) => some (front.reverse, back.reverse)

/-- A user name and a password; a password that is empty does not count. -/
def readUser (cs : List Char) : List Char × Option (List Char) :=
  match Text.cutFirst ':' cs with
  | (name, some (c :: rest)) => (encode plainInUser name, some (encode plainInUser (c :: rest)))
  | (name, _) => (encode plainInUser name, none)

/-- A host and what follows it; a colon inside brackets is part of the host. -/
def cutHost (inside : Bool) : List Char → List Char × List Char
  | [] => ([], [])
  | c :: rest =>
    if c = ':' ∧ inside = false then ([], c :: rest)
    else
      let (host, back) := cutHost (if c = '[' then true else if c = ']' then false else inside) rest
      (c :: host, back)

/-- Reads a port after its colon; the port that the scheme uses anyway is left out. -/
def readPort (scheme : List Char) (cs : List Char) : Except Error (Option Nat) :=
  if !cs.all Char.isDigit then .error .invalidPort
  else if 65535 < digitsValue cs then .error .invalidPort
  else if cs.isEmpty || defaultPort? scheme == some (digitsValue cs) then .ok none
  else .ok (some (digitsValue cs))

/-- Reads a host and a port. A known scheme needs a host, and so does a port. -/
def readHostAndPort (scheme : List Char) (cs : List Char) :
    Except Error (Host × Option Nat) := do
  let special := isSpecialScheme scheme
  let (name, back) := cutHost false cs
  if name.isEmpty && (special || !back.isEmpty) then .error .emptyHost
  let host ← if special then readHost name else readOtherHost name
  match back with
  | ':' :: digits => return (host, ← readPort scheme digits)
  | _ => return (host, none)

def readPath (special : Bool) (cs : List Char) : Path :=
  match cs with
  | [] => .segments (if special then [[]] else [])
  | c :: rest =>
    .segments (readSegments special [] [] (if endsSegment special c then rest else c :: rest))

/-- Reads what follows the two slashes of a URL. A user needs a host. -/
def readAuthority (scheme : List Char) (cs : List Char) : Except Error Url := do
  let special := isSpecialScheme scheme
  let authority := cs.takeWhile fun c => !endsAuthority special c
  let rest := cs.drop authority.length
  let (path, query, fragment) := cutTail special rest
  let (user, place) := match cutLastAt authority with
    | some (front, back) => (some front, back)
    | none => (none, authority)
  if user == some [] && place.isEmpty && !rest.isEmpty then .error .emptyHost
  let (username, password) := readUser (user.getD [])
  let (host, port) ← readHostAndPort scheme place
  if host == .domain [] && !(username.isEmpty && password.isNone) then .error .emptyHost
  return ⟨scheme, username, password, some host, port, readPath special path, query, fragment⟩

/-- Drops empty segments at the start of a path; at least one segment stays. -/
def dropEmpty (segments : List (List Char)) : List (List Char) :=
  match segments.dropWhile List.isEmpty with
  | [] => [[]]
  | kept => kept

/-- Reads a URL of the scheme `file`, whose host may be empty and has no port. -/
def readFile (cs : List Char) : Except Error Url := do
  let (body, query, fragment) := cutTail true cs
  let isSlash (c : Char) : Bool := c == '/' || c == '\\'
  match body with
  | a :: b :: rest =>
    if isSlash a && isSlash b then
      let name := rest.takeWhile fun c => !isSlash c
      let host ← if name.isEmpty then .ok (.domain []) else readHost name
      let host : Host := if host = .domain "localhost".toList then .domain [] else host
      let path := readSegments true [] [] ((rest.drop name.length).drop 1)
      return ⟨"file".toList, [], none, some host, none, .segments (dropEmpty path), query, fragment⟩
    else
      let path := readSegments true [] [] (if isSlash a then b :: rest else body)
      return ⟨"file".toList, [], none, some (.domain []), none, .segments (dropEmpty path), query,
        fragment⟩
  | _ =>
    let path := readSegments true [] [] (body.filter fun c => !isSlash c)
    return ⟨"file".toList, [], none, some (.domain []), none, .segments (dropEmpty path), query,
      fragment⟩

/-- Reads a text as a URL. -/
def parse (s : String) : Except Error Url :=
  match readScheme? (clean s.toList) with
  | none => .error .relative
  | some (scheme, rest) =>
    if scheme = "file".toList then readFile rest
    else if isSpecialScheme scheme then
      readAuthority scheme (rest.dropWhile fun c => c == '/' || c == '\\')
    else
      match rest with
      | '/' :: '/' :: rest => readAuthority scheme rest
      | _ =>
        let (body, query, fragment) := cutTail false rest
        let path := match body with
          | '/' :: more => Path.segments (readSegments false [] [] more)
          | _ => Path.other (encode plainInOther body)
        .ok ⟨scheme, [], none, none, none, path, query, fragment⟩

end Scaffolding.Url
