import Scaffolding.Failure
import Scaffolding.Text.Blank

/-!
# Commands

A command is a program and its arguments. Its display is for people: an argument with a blank in it
is shown between single quotes, any other as it is.
-/

set_option autoImplicit false

namespace Scaffolding.Tool

/-- A command to run. -/
structure Command where
  program : String
  args : List String
  deriving DecidableEq, Repr, Inhabited

namespace Command

/-- One argument as it is displayed, after a space. -/
def displayArg (arg : String) : String :=
  if arg.toList.any Text.isBlank then " '" ++ arg ++ "'" else " " ++ arg

def display (call : Command) : String :=
  call.program ++ String.join (call.args.map displayArg)

end Command

/-!
## Outcomes of commands

What a command that ran left behind: whether it succeeded, its exit code, or none if a signal ended it,
and its two outputs. The diagnostic of an outcome is the first of these that says something: what it
wrote about errors, what it wrote, how it ended.

Whoever runs a command says whether it succeeded. The system goes by the exit code.
-/

/-- How a command ended. -/
structure Exit where
  success : Bool
  code : Option Int
  deriving DecidableEq, Repr, Inhabited

/-- For the system a command succeeds when it ends with exit code zero. -/
def Exit.ofCode (code : Option Int) : Exit :=
  ⟨code == some 0, code⟩

instance : Coe (Option Int) Exit := ⟨Exit.ofCode⟩

instance : Coe (Option Nat) Exit := ⟨fun code => Exit.ofCode (code.map Int.ofNat)⟩

/-- The captured result of a command that ran. -/
structure Outcome extends Exit where
  stdout : String
  stderr : String
  deriving DecidableEq, Repr, Inhabited

/-- What comes of starting a command: an error of the system if it could not be started. -/
abbrev Reply := Except SystemError Outcome

namespace Outcome

/-- How a command ended, in words. -/
def ending (o : Outcome) : String :=
  match o.code with
  | some code => "exited with status " ++ toString code
  | none => "terminated by signal"

/-- The best account of what a command reported. -/
def diagnostic (o : Outcome) : String :=
  if !Text.isBlankText o.stderr then Text.trim o.stderr
  else if !Text.isBlankText o.stdout then Text.trim o.stdout
  else o.ending

end Outcome

/-!
## Probing for a tool

A tool is looked for by asking for its version. A tool that cannot be started because it is missing
or may not be run, and one that reports failure, is not available. Any other error in starting it is
an error of the probe.
-/

/-- What a probe found. -/
structure Presence where
  name : String
  version : Option String
  available : Bool
  deriving DecidableEq, Repr

def versionQuery (name : String) : Command :=
  ⟨name, ["--version"]⟩

/-- What the reply to the version query says about a tool. -/
def Presence.ofReply (name : String) : Reply → Except SystemError Presence
  | .ok o =>
    if o.success then
      .ok ⟨name, if Text.isBlankText o.stdout then none else some (Text.trim o.stdout), true⟩
    else .ok ⟨name, none, false⟩
  | .error e =>
    match e.kind with
    | .notFound | .permissionDenied => .ok ⟨name, none, false⟩
    | _ => .error e

end Scaffolding.Tool
