import Scaffolding.Files.Basic

/-!
# Changing files

Making directories and writing files. A change either happens or is refused with the error of the
system; what was done before an error stays done.
-/

set_option autoImplicit false

namespace Scaffolding.Files

/-- A step that may change files and may be refused. -/
abbrev Step := ExceptT SystemError (StateM Files)

/-- A question about the files as they are. -/
def ask {α : Type} (question : Files → Except SystemError α) : Step α := do
  liftExcept (question (← get))
where
  /-- The answer to the question. -/
  liftExcept {α : Type} : Except SystemError α → Step α
    | .ok a => pure a
    | .error e => throw e

/-- Goes on if an access is let through. -/
def permit (access : Access) (place : Place) : Step Unit :=
  ask fun files => files.allow access place

/-- Makes one directory at the end of a list of names. -/
def makeDirectory (origin : Place) (steps : List String) : Step Unit := do
  let place ← ask fun files => files.walk false linkLimit origin steps
  if ((← get).at? place).isSome then throw .entryExists
  permit .make place
  modify fun files => files.set place .directory

def leadsToDirectory (files : Files) (origin : Place) (steps : List String) : Bool :=
  match files.walk true linkLimit origin steps with
  | .ok place => files.hasDirectory place
  | .error _ => false

/-- Makes a directory unless there is one. -/
def ensureDirectory (origin : Place) (steps : List String) : Step Unit :=
  tryCatch (makeDirectory origin steps) fun e => do
    if (← get).leadsToDirectory origin steps then return else throw e

/-- Makes the directories that lead to a place, `parents` being the names of its parent in reverse
and without dots. A directory is made only when the parent is missing. -/
def makeParents (origin : Place) : List String → List String → Step Unit
  | [], steps => ensureDirectory origin steps
  | name :: above, steps =>
    tryCatch (ensureDirectory origin steps) fun e => do
      if e.kind != .notFound then throw e
      makeParents origin above (name :: above).reverse
      ensureDirectory origin steps

/-- Makes the directory at a path and those that lead to it. -/
def makeDirectories (path : String) : Step Unit := do
  if path.contains '\x00' then throw .nulInPath
  if path.utf8ByteSize > pathLimit then throw .nameTooLong
  let steps := names path
  if steps.isEmpty then return
  let origin := (← get).origin path
  let parents := (steps.filter (· != ".")).reverse.drop 1
  makeParents origin parents steps

/-- Opens the file at a place to be written from its start: one that is there is emptied, else one is
made. -/
def openEmpty (place : Place) (mode : Nat) : Step Unit := do
  match (← get).at? place with
  | some (.file _ old) =>
    permit .overwrite place
    modify fun files => files.set place (.file "" old)
  | some _ => throw .isDirectory
  | none =>
    permit .make place
    modify fun files => files.set place (.file "" mode)

/-- The mode of a file that was written. The system may take away the bits by which the file is run as
its owner or group. -/
def writtenMode (files : Files) (place : Place) (mode : Nat) : Nat :=
  if (files.refusal? .keepId place).isSome then mode ^^^ (mode &&& 0o6000) else mode

/-- Writes a text, if there is any, into the empty file at a place. -/
def writeText (place : Place) (text : String) (mode : Nat) : Step Unit := do
  if text.isEmpty then return
  permit .write place
  modify fun files => files.set place (.file text (files.writtenMode place mode))

/-- Writes the text of the file at one path into the file at another path, with the same mode. A file
that is written over with itself is left empty. -/
def copyFile (source target : String) : Step Unit := do
  let (original, entry) ← ask fun files => files.find source
  permit .read original
  match entry with
  | .file text mode =>
    let place ← ask fun files => files.resolve target
    openEmpty place mode
    permit .setMode place
    modify fun files => files.set place (.file "" mode)
    writeText place (if (← get).sameFile place original then "" else text) mode
  | _ => throw .notFile

/-- Lets the owner write the file at a path. -/
def makeWritable (path : String) : Step Unit := do
  let (place, entry) ← ask fun files => files.find path
  permit .setMode place
  match entry with
  | .file text mode => modify fun files => files.set place (.file text (mode ||| 0o200))
  | _ => return

end Scaffolding.Files
