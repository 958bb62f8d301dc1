import Scaffolding.Failure
import Scaffolding.Json.Printer
import Scaffolding.Number.Basic
import Scaffolding.Registry.Listing

/-!
# Reports

What the command line prints of a listing, and what it says when a command did not succeed.
-/

set_option autoImplicit false

namespace Scaffolding.CommandLine

/-!
## Listing templates

A listing as it is printed: a line for each template with its index, or the descriptors as a JSON
array. What was left out, and what there is to say about the version, is told apart from it.
-/

def templateLine (index : Nat) (t : Template) : String :=
  "[" ++ String.ofList (natChars index) ++ "] " ++ t.name ++ " - " ++ t.descriptor.description ++
    " (" ++ t.builder.word ++ ")\n"

/-- The templates of a listing, a line for each. -/
def listText (l : Listing) : String :=
  if l.templates.isEmpty then "No templates found.\n"
  else String.join (l.templates.mapIdx templateLine)

/-- The descriptors of a listing as a JSON array. -/
def listJson (l : Listing) : String :=
  (Json.array (l.templates.map fun t => t.descriptor.toJson)).renderIndented ++ "\n"

def warnings (l : Listing) : String :=
  String.join (l.skipped.map fun s =>
    "warning: skipped " ++ s.name ++ ": " ++ s.failure.message ++ "\n") ++
    (l.notice.map fun notice => "warning: " ++ notice ++ "\n").getD ""

/-!
## Problems

What can keep a command from succeeding: a failure of the scaffolding itself, or one of the reasons
that only the command line has.
-/

/-- Why a command did not succeed. -/
inductive Problem
  | failure (f : Failure)
  /-- The environment does not describe a source. -/
  | configuration (f : Failure)
  /-- The registry offers nothing. -/
  | noTemplates
  /-- There is no template with this index. -/
  | noSuchTemplate (index available : Nat)
  /-- The directory in which the project is to be made is not there. -/
  | missingParent (path : String)
  /-- A question could not be asked. -/
  | unanswered (e : SystemError)
  /-- The user does not want to go on. -/
  | stopped
  deriving DecidableEq, Repr

namespace Problem

/-- What is said about a problem. -/
def message : Problem → String
  | failure f => f.fullMessage
  | configuration f => "invalid registry configuration: " ++ f.fullMessage
  | noTemplates => "No templates found."
  | noSuchTemplate index available =>
    "Template " ++ String.ofList (natChars index) ++
      " not found. Run \x60blueprint list\x60 to see the " ++
      String.ofList (natChars available) ++ " available templates."
  | missingParent path => "Parent directory does not exist: " ++ path
  | unanswered e => e.text
  | stopped => "Setup cancelled."

/-- What the user is told to do about a problem. -/
def hint? : Problem → Option String
  | failure f => f.hint?
  | configuration f => f.hint?
  | _ => none

/-- The lines about a problem. -/
def report (p : Problem) : String :=
  "error: " ++ p.message ++ "\n" ++ (p.hint?.map fun hint => "hint: " ++ hint ++ "\n").getD ""

end Problem

end Scaffolding.CommandLine
