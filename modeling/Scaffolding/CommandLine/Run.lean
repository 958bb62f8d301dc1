import Scaffolding.CommandLine.Arguments
import Scaffolding.CommandLine.Report
import Scaffolding.Files.Basic
import Scaffolding.Registry.Listing
import Scaffolding.Scaffold.Run
import Scaffolding.Source.Environment

/-!
# Running the program

What the program prints for its arguments in an environment, and the code with which it ends: zero
if all went well, one for a problem, two for arguments that are not understood.
-/

set_option autoImplicit false

namespace Scaffolding.CommandLine

/-!
## Creating a project

The registry is loaded, a template and a directory are chosen, and the template is built there. What
the switches do not say is asked for. The directory must lie in one that is there, and the user
agrees before a directory that is not empty is used.
-/

/-- A part of a command that may end in a problem. -/
abbrev Task := ExceptT Problem Action

/-- Does something whose failure is a problem. -/
def attempt {α : Type} (action : Attempt α) : Task α :=
  ExceptT.adapt Problem.failure action

/-- Asks a question, which has to be possible. -/
def ask (question : Question) : Task (Option question.Answer) := do
  match ← (Session.ask question : Action _) with
  | .ok answer => return answer
  | .error e => throw (.unanswered e)

/-- The templates of a registry, of which there must be some. -/
def loadTemplates (source : Source) : Task (List Template) := do
  let listing ← attempt (Registry.load source)
  if listing.templates.isEmpty then throw .noTemplates
  return listing.templates

/-- The question which template to use, each called by its line in the list. -/
def templateQuestion (templates : List Template) : Question :=
  .select "Select a template" (templates.mapIdx templateLine) none

/-- The index of the template to use: the one that is given, the only one, or the one that the user
chooses. -/
def chooseIndex (templates : List Template) (given : Option Nat) : Task Nat := do
  match given with
  | some index =>
    if index < templates.length then return index
    throw (.noSuchTemplate index templates.length)
  | none =>
    if templates.length = 1 then return 0
    let line : Option String ← ask (templateQuestion templates)
    return line.elim 0 (templates.mapIdx templateLine).idxOf

def standardDirectory (t : Template) : String :=
  if t.builder.createsProjectDirectory then "." else "./" ++ t.name

/-- The path of the directory to use: the one that is given, or the one that the user names. -/
def chooseDirectory (t : Template) (given : Option String) : Task String := do
  let here := (← (Session.look : Action Files)).herePath
  match given with
  | some path => return Files.join here path
  | none =>
    let named ← ask (.input "Project directory" (some (standardDirectory t)))
    let path := named.getD (standardDirectory t)
    if path = "" ∨ path = "." then return here
    return Files.join here path

/-- The directory in which a path lies has to be there. -/
def requireParent (path : String) : Task Unit := do
  let files ← (Session.look : Action Files)
  match Files.parent? path with
  | none => return
  | some parent => if files.exists? parent then return else throw (.missingParent parent)

/-- A path leads to a directory with something in it. -/
def isFilled (files : Files) (path : String) : Bool :=
  match files.listing path with
  | .ok (_, names) => !names.isEmpty
  | .error _ => false

/-- The user agrees to use a directory that is not empty. -/
def requireEmpty (path : String) (yes : Bool) : Task Unit := do
  let files ← (Session.look : Action Files)
  if isFilled files path && !yes then
    match ← ask (.confirm "Continue anyway?" false) with
    | some true => return
    | _ => throw .stopped

/-- The directory to use, which can be used. -/
def prepareDirectory (t : Template) (options : CreateOptions) : Task String := do
  let path ← chooseDirectory t options.directory
  requireParent path
  requireEmpty path options.yes
  return path

def scaffold (source : Source) (templates : List Template) (choice : Scaffold.Choice) :
    Attempt Scaffold.Project :=
  ExceptT.mk ((Scaffold.run source templates choice).run.run' .start)

def create (source : Source) (options : CreateOptions) : Task Scaffold.Project := do
  attempt (ExceptT.mk (pure (Remote.checkAgent source)))
  let templates ← loadTemplates source
  let index ← chooseIndex templates options.template
  match templates[index]? with
  | none => throw (.noSuchTemplate index templates.length)
  | some t =>
    let path ← prepareDirectory t options
    attempt (scaffold source templates ⟨index, path, options.yes⟩)

/-! ## The program -/

/-- What is left of a run of the program. -/
structure Printed where
  exitCode : Nat
  stdout : String
  stderr : String
  deriving DecidableEq, Repr

/-- The source that the environment and the switches describe. -/
def sourceOf (env : Environment) (globals : GlobalOptions) : Task Source := do
  match Source.ofEnvironment env (← (Session.look : Action Files)) with
  | .ok source => return source.withRegistry globals.owner globals.repository globals.branch
  | .error f => throw (.configuration f)

def list (source : Source) (json : Bool) : Task Printed := do
  attempt (ExceptT.mk (pure (Remote.checkAgent source)))
  let listing ← attempt (Registry.load source)
  return ⟨0, if json then listJson listing else listText listing, warnings listing⟩

/-- Does what the arguments ask for. -/
def perform (env : Environment) (arguments : Arguments) : Task Printed := do
  let source ← sourceOf env arguments.globals
  match arguments.command with
  | .list json => list source json
  | .create options => do
    let _ ← create source options
    return ⟨0, "", ""⟩

/-- What is printed when the arguments do not lead to a command. -/
def Stop.printed : Stop → Printed
  | help topic => ⟨0, topic.text, ""⟩
  | version => ⟨0, versionText, ""⟩
  | usage => ⟨2, "", ""⟩

def run (env : Environment) (args : List String) : Action Printed :=
  match read args with
  | .error stop => pure stop.printed
  | .ok arguments => do
    match ← (perform env arguments).run with
    | .ok printed => return printed
    | .error problem => return ⟨1, "", problem.report⟩

end Scaffolding.CommandLine
