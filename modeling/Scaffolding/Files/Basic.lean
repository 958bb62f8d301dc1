import Scaffolding.Failure
import Scaffolding.Files.Path

/-!
# Files

A file system as a value: what stands at each place, the directory that relative paths start from,
which places are names of one file, and what the system does not let be done. A place is the list of
names that leads to it from the root, without links and without dots.

What may be done is not worked out from modes and owners. It is given, as the error with which each
access is refused, so that a mount that is read-only and a disk that is full are told in the same way as
missing permissions. Names that differ in any way are different, and no directory stands at two places.
Names and what files hold are texts.

Entries have no order that anything depends on, except that a directory is listed in the order in
which its entries are held.
-/

set_option autoImplicit false

namespace Scaffolding

namespace SystemError

/-- The errors of the system for paths, with its wording. -/
def noEntry : SystemError := ⟨.notFound, "No such file or directory (os error 2)"⟩
def permissionDenied : SystemError := ⟨.permissionDenied, "Permission denied (os error 13)"⟩
def entryExists : SystemError := ⟨.other, "File exists (os error 17)"⟩
def notDirectory : SystemError := ⟨.other, "Not a directory (os error 20)"⟩
def isDirectory : SystemError := ⟨.other, "Is a directory (os error 21)"⟩
def nameTooLong : SystemError := ⟨.other, "File name too long (os error 36)"⟩
def tooManyLinks : SystemError := ⟨.other, "Too many levels of symbolic links (os error 40)"⟩
def nulInPath : SystemError := ⟨.invalidInput, "file name contained an unexpected NUL byte"⟩
def notFile : SystemError :=
  ⟨.invalidInput, "the source path is neither a regular file nor a symlink to a regular file"⟩

end SystemError

/-- A place in the file system. -/
abbrev Place := List String

/-- What stands at a place. -/
inductive Files.Entry
  | file (text : String) (mode : Nat)
  | directory
  | link (target : String)
  deriving DecidableEq, Repr, Inhabited

/-- What can be done at a place, if the system lets it be done: names are looked up in a directory, a
link is followed, a directory or a file is read, an entry is made, a file is opened to be written over, a
text is written, the mode of a file is set, and the bits by which a file is run as its owner or group
stay when it is written. -/
inductive Files.Access
  | search
  | follow
  | read
  | make
  | overwrite
  | write
  | setMode
  | keepId
  deriving DecidableEq, Repr

/-- A file system. -/
structure Files where
  entries : List (Place × Files.Entry)
  /-- The directory from which relative paths start. -/
  here : Place
  /-- The files that have several names: places with one number are names of one file. -/
  numbers : List (Place × Nat) := []
  /-- The error with which the system refuses what it does not let be done. -/
  refusal? : Files.Access → Place → Option SystemError := fun _ _ => none
  deriving Inhabited

namespace Files

/-- What stands at a place; the root is a directory. -/
def at? (files : Files) : Place → Option Entry
  | [] => some .directory
  | place => files.entries.lookup place

def hasDirectory (files : Files) (place : Place) : Bool :=
  files.at? place == some .directory

/-- Two places are names of one file. -/
def sameFile (files : Files) (p q : Place) : Bool :=
  p == q || (files.numbers.lookup p).isSome && files.numbers.lookup p == files.numbers.lookup q

/-- An access is let through or refused. -/
def allow (files : Files) (access : Access) (place : Place) : Except SystemError Unit :=
  match files.refusal? access place with
  | some e => .error e
  | none => .ok ()

/-- How many bytes a name may have. -/
def nameLimit : Nat := 255

/-- How many bytes a path may have. -/
def pathLimit : Nat := 4095

/-- How many links are followed on the way to one place. -/
def linkLimit : Nat := 40

/-- Follows names from a directory. The place that is reached need not have an entry, but every
directory on the way must be there and be searched. The last name is followed through links if `follow`
says so, and an empty name asks for a directory. -/
def walk (files : Files) (follow : Bool) (links : Nat) (place : Place) (steps : List String) :
    Except SystemError Place :=
  match steps with
  | [] => .ok place
  | "" :: rest =>
    if files.hasDirectory place then walk files follow links place rest else .error .notDirectory
  | name :: rest =>
    match files.refusal? .search place with
    | some e => .error e
    | none =>
      if name = "." then
        if files.hasDirectory place then walk files follow links place rest
        else .error .notDirectory
      else if name = ".." then walk files follow links place.dropLast rest
      else if name.utf8ByteSize > nameLimit then .error .nameTooLong
      else
        let next := place ++ [name]
        match files.at? next with
        | none => if rest.isEmpty then .ok next else .error .noEntry
        | some .directory => walk files follow links next rest
        | some (.file ..) => if rest.isEmpty then .ok next else .error .notDirectory
        | some (.link target) =>
          if rest.isEmpty && !follow then .ok next
          else
            match links with
            | 0 => .error .tooManyLinks
            | links + 1 =>
              match files.refusal? .follow next with
              | some e => .error e
              | none =>
                if target.isEmpty then .error .noEntry
                else
                  walk files follow links (if isAbsolute target then [] else place)
                    (names target ++ (if endsInSlash target && rest.isEmpty then [""] else rest))
termination_by (links, steps.length)

/-- The directory from which a path starts. -/
def origin (files : Files) (path : String) : Place :=
  if isAbsolute path then [] else files.here

/-- The place to which a path leads, through links. -/
def resolve (files : Files) (path : String) : Except SystemError Place :=
  if path.isEmpty then .error .noEntry
  else if path.contains '\x00' then .error .nulInPath
  else if path.utf8ByteSize > pathLimit then .error .nameTooLong
  else files.walk true linkLimit (files.origin path) (steps path)

/-- The place to which a path leads and what stands there; there must be something. -/
def find (files : Files) (path : String) : Except SystemError (Place × Entry) := do
  let place ← files.resolve path
  match files.at? place with
  | some e => return (place, e)
  | none => .error .noEntry

/-- A path leads to something. -/
def exists? (files : Files) (path : String) : Bool :=
  match files.find path with
  | .ok _ => true
  | .error _ => false

/-- The last name of a path is that of a link. -/
def isLink (files : Files) (path : String) : Bool :=
  match files.walk false linkLimit (files.origin path) (steps path) with
  | .ok place =>
    match files.at? place with
    | some (.link _) => true
    | _ => false
  | .error _ => false

/-- The text of the file to which a path leads. -/
def readText? (files : Files) (path : String) : Option String :=
  match files.find path with
  | .ok (place, .file text _) => if (files.refusal? .read place).isSome then none else some text
  | _ => none

/-- The names in a directory. -/
def list (files : Files) (place : Place) : List String :=
  files.entries.filterMap fun (p, _) =>
    match p.getLast? with
    | some name => if p.dropLast == place then some name else none
    | none => none

/-- The place of the directory to which a path leads, and the names in it. -/
def listing (files : Files) (path : String) : Except SystemError (Place × List String) := do
  let (place, entry) ← files.find path
  if entry ≠ .directory then throw .notDirectory
  files.allow .read place
  return (place, files.list place)

/-- Puts an entry at a place: over the one that is there, under all the names that it has, or as the
last of all. -/
def set (files : Files) (place : Place) (entry : Entry) : Files :=
  { files with
    entries :=
      if (files.entries.lookup place).isSome then
        files.entries.map fun (p, e) => if files.sameFile place p then (p, entry) else (p, e)
      else files.entries ++ [(place, entry)] }

/-- The path of the directory that relative paths start from. -/
def herePath (files : Files) : String :=
  "/" ++ "/".intercalate files.here

/-! ## Whole trees -/

def below? (directory place : Place) : Option (List String) :=
  if directory.isPrefixOf place && decide (directory.length < place.length) then
    some (place.drop directory.length)
  else none

/-- What is below a directory with its path from there, sorted by path. Links are shown and not
followed. -/
def tree (files : Files) (directory : Place) : List (String × Entry) :=
  let found := files.entries.filterMap fun (p, e) =>
    (below? directory p).map fun steps => ("/".intercalate steps, e)
  found.mergeSort fun a b => decide (a.1 ≤ b.1)

/-- Adds the directories that lead to a place. -/
def addParents (files : Files) (place : Place) : Files :=
  (List.range place.length).foldl (fun files n =>
    let parent := place.take n
    if n = 0 ∨ (files.at? parent).isSome then files else files.set parent .directory) files

/-- Adds an entry and the directories that lead to it; a directory that is there stays. -/
def add (files : Files) (place : Place) (entry : Entry) : Files :=
  let files := files.addParents place
  if entry = .directory ∧ (files.at? place).isSome then files else files.set place entry

end Files

end Scaffolding
