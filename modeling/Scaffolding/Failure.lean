/-!
# Failures

What can go wrong while a project is scaffolded, one constructor for each cause that a caller tells
apart, with the message shown for it and the hint shown next to the message.
-/

set_option autoImplicit false

namespace Scaffolding

/-- The classes of errors that the system reports for files, commands and prompts. -/
inductive SystemError.Kind
  | notFound
  | permissionDenied
  | interrupted
  | invalidInput
  | timedOut
  | other
  deriving DecidableEq, Repr, Inhabited

/-- An error reported by the system, with its own text. -/
structure SystemError where
  kind : SystemError.Kind
  text : String
  deriving DecidableEq, Repr, Inhabited

/-- A failure of the scaffolding itself. -/
inductive Failure
  /-- A credential was rejected, or is missing where the remote hides what it has. -/
  | authentication (url message : String)
  /-- Fetching or reading the registry or a schema failed in any other way. -/
  | retrieval (subject reason : String)
  /-- The tool that builds the template is not there. -/
  | missingTool (template tool : String)
  /-- Building the project failed; the diagnostic is the tool's own output where there is any. -/
  | build (template diagnostic : String)
  /-- The registry names a kind of template that nothing builds. -/
  | unknownKind (template kind : String)
  /-- Asking for the settings failed or was cancelled. -/
  | collection (text : String)
  /-- There is no template at this place of the list. -/
  | invalidSelection (index available : Nat)
  /-- Any other error of the system: what was being done, and what the system says. -/
  | system (context cause : String)
  deriving DecidableEq, Repr, Inhabited

namespace Failure

/-- The classes of failures that callers tell apart. -/
inductive Kind
  | authentication
  | retrieval
  | missingTool
  | build
  | unknownKind
  | collection
  | invalidSelection
  | system
  deriving DecidableEq, Repr

def kind : Failure → Kind
  | authentication .. => .authentication
  | retrieval .. => .retrieval
  | missingTool .. => .missingTool
  | build .. => .build
  | unknownKind .. => .unknownKind
  | collection .. => .collection
  | invalidSelection .. => .invalidSelection
  | system .. => .system

def message : Failure → String
  | authentication url text => "authentication failed for " ++ url ++ ": " ++ text
  | retrieval subject reason => "failed to retrieve " ++ subject ++ ": " ++ reason
  | missingTool template tool =>
    "template '" ++ template ++ "' needs \x60" ++ tool ++
      "\x60, which is not installed or not on PATH"
  | build template diagnostic =>
    "failed to build template '" ++ template ++ "':\n" ++ diagnostic
  | unknownKind template kind =>
    "template '" ++ template ++ "' has unrecognized type '" ++ kind ++ "'"
  | collection text => "input collection failed: " ++ text
  | invalidSelection index available =>
    "template index " ++ toString index ++ " out of range (" ++ toString available ++ " available)"
  | system context _ => context

/-- The message of a failure with its cause, where that is not part of the message. -/
def fullMessage : Failure → String
  | system context cause => context ++ ": " ++ cause
  | failure => failure.message

/-- What the user is told to do about a class of failures. -/
def Kind.hint? : Kind → Option String
  | .authentication => some "Run \x60gh auth login\x60 or set GITHUB_TOKEN, then try again."
  | .missingTool => some "Install the missing tool (https://nixos.org/download) and try again."
  | .build =>
    some "To report a bug, open an issue at https://github.com/A3Data/templates-cli/issues"
  | _ => none

/-- What the user is told to do about a failure. -/
def hint? (failure : Failure) : Option String :=
  failure.kind.hint?

/-- The failure of a user who cancels. -/
def cancelled : Failure :=
  .collection "cancelled by user"

end Failure

end Scaffolding
