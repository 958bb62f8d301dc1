import Scaffolding.Files.Change

/-!
# Copying a tree

The contents of a directory copied into another one. Links are followed, so that the copy holds real
files, and the owner may write every file of the copy. What the target holds besides is kept. The
copy stops at the first error, and a link that leads back to a directory on the way to it is one.
-/

set_option autoImplicit false

namespace Scaffolding.Files

/-- A directory on the way to an entry: the path by which it was reached and its place. -/
structure Ancestor where
  path : String
  place : Place

def atPath (path : String) (e : SystemError) : SystemError :=
  ⟨e.kind, "IO error for operation on " ++ path ++ ": " ++ e.text⟩

/-- The error for a link at a path that leads back to an ancestor. -/
def loopError (path : String) (ancestor : Ancestor) : SystemError :=
  ⟨.other, "File system loop found: " ++ path ++ " points to an ancestor " ++ ancestor.path⟩

/-- A directory at a path to which a link leads is opened, to see that it is none of the ancestors. -/
def openLinked (files : Files) (ancestors : List Ancestor) (path : String) (place : Place) :
    Except SystemError Unit := do
  files.allow .read place
  match ancestors.find? fun a => a.place == place with
  | some a => throw (loopError path a)
  | none => return

/-- The entry at a name in a directory, which is looked up by its path if it is a link. -/
def follow (files : Files) (ancestors : List Ancestor) (path : String) (directory : Place)
    (name : String) : Except SystemError Entry :=
  match files.at? (directory ++ [name]) with
  | some (.link _) => do
    let (place, entry) ← (files.find path).mapError (atPath path)
    if entry = .directory then files.openLinked ancestors path place
    return entry
  | some entry => .ok entry
  | none => .error (atPath path .noEntry)

/-- Copies the file at a path to another path, where the owner may write it. -/
def writeCopy (source target : String) : Step Unit := do
  copyFile source target
  makeWritable target

mutual

/-- Copies the entry at a name of a directory and what is under it: from the path of the directory to
the path of its copy. Gives the number of files. Nesting beyond `depth` makes a path that is too
long. -/
def copyEntry (depth : Nat) (ancestors : List Ancestor) (path : String) (directory : Place)
    (target : String) (name : String) : Step Nat :=
  match depth with
  | 0 => throw .nameTooLong
  | depth + 1 => do
    let entryPath := join path name
    let copyPath := join target name
    match ← ask fun files => files.follow ancestors entryPath directory name with
    | .file .. => do
      makeDirectories target
      writeCopy entryPath copyPath
      return 1
    | _ => do
      makeDirectories copyPath
      let (place, names) ← ask fun files => (files.listing entryPath).mapError (atPath entryPath)
      copyEntries depth (⟨entryPath, place⟩ :: ancestors) entryPath place copyPath names

/-- Copies the entries at some names of a directory. -/
def copyEntries (depth : Nat) (ancestors : List Ancestor) (path : String) (directory : Place)
    (target : String) : List String → Step Nat
  | [] => return 0
  | name :: rest => do
    let first ← copyEntry depth ancestors path directory target name
    let more ← copyEntries depth ancestors path directory target rest
    return first + more

end

/-- Copies what a directory holds into the target directory, or a file into it under its own name.
Gives the number of files that were copied. No nesting is deeper than a path is long. -/
def copyInto (source target : String) : Step Nat := do
  let (place, entry) ← ask fun files => files.find source
  match entry with
  | .file .. => do
    writeCopy source (join target (fileName source))
    return 1
  | _ => do
    if (← get).isLink source then permit .read place
    let (place, names) ← ask fun files => (files.listing source).mapError (atPath source)
    copyEntries pathLimit [⟨source, place⟩] source place target names

/-- Copies what a directory holds into the target directory, which is made if it is missing. -/
def copyContents (source target : String) : Step Nat := do
  makeDirectories target
  copyInto source target

end Scaffolding.Files
