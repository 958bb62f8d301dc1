import Scaffolding.Builder.Build
import Scaffolding.Remote.Fetch
import Scaffolding.Schema.Basic
import Scaffolding.Schema.Reader
import Scaffolding.Settings.Basic
import Scaffolding.Template.Basic

/-!
# Scaffolding a template

A template of a listing is chosen and built: its tool is looked for, its schema is fetched, the
settings are collected and encoded, the user agrees, and the project is built. A schema that cannot
be had is gone without, unless the reason is the credential. Every failure after the choice ends in
the stage of failure.
-/

set_option autoImplicit false

namespace Scaffolding

/-!
## Stages

The stages that a template goes through, from the listing it is chosen from to the finished project,
and the trail of stages that were reached.
-/

inductive Stage
  | listing
  | selected
  | schemaLoaded
  | noSchema
  | collecting
  | encoded
  | building
  | done
  | failed
  deriving DecidableEq, Repr, Inhabited

def Stage.word : Stage → String
  | listing => "listing"
  | selected => "selected"
  | schemaLoaded => "schema-loaded"
  | noSchema => "no-schema"
  | collecting => "collecting"
  | encoded => "encoded"
  | building => "building"
  | done => "done"
  | failed => "failed"

/-- How far the scaffolding is: the stage, and all stages so far. -/
structure Progress where
  stage : Stage
  trail : List Stage
  deriving DecidableEq, Repr

namespace Progress

/-- Nothing is chosen yet. -/
def start : Progress :=
  ⟨.listing, [.listing]⟩

/-- The next stage is reached. -/
def advance (stage : Stage) (p : Progress) : Progress :=
  ⟨stage, p.trail ++ [stage]⟩

end Progress

end Scaffolding

namespace Scaffolding.Scaffold

/-! ## A run -/

/-- What to build. -/
structure Choice where
  /-- The place in the listing. -/
  index : Nat
  /-- The path of the directory for the project. -/
  output : String
  /-- The user is not asked to agree. -/
  agreed : Bool
  deriving DecidableEq, Repr

/-- What was built. -/
structure Project where
  template : String
  output : String
  trail : List Stage
  /-- The settings were asked for by a schema of the template. -/
  hasSchema : Bool
  deriving DecidableEq, Repr

/-- A step of scaffolding, which keeps track of the stages. -/
abbrev Step := ExceptT Failure (StateT Progress Action)

/-- Does something that leaves the stage as it is. -/
def attempt {α : Type} (action : Attempt α) : Step α :=
  ExceptT.mk (StateT.lift action.run)

def reach (stage : Stage) : Step Unit :=
  modify fun p => p.advance stage

def select (templates : List Template) (index : Nat) : Except Failure Template :=
  match templates[index]? with
  | some t => .ok t
  | none => .error (.invalidSelection index templates.length)

def remoteSchema (source : Source) (t : Template) : Attempt Schema := do
  let d := t.descriptor
  let text ← Remote.fetch source d.organization d.repository d.schemaPath d.branch
  match Schema.read text with
  | .ok s => return s
  | .error f => throw f

/-- The schema of a template, or none for a template that takes no settings. -/
def schemaOf (source : Source) (t : Template) : Attempt (Option Schema) := do
  if t.builder.takesSettings then return some (← remoteSchema source t) else return none

/-- The schema of a template as far as it can be had; only a failure about the credential stops. -/
def schemaOrNone (source : Source) (t : Template) : Attempt (Option Schema) :=
  tryCatch (schemaOf source t) fun f =>
    match f with
    | .authentication .. => throw f
    | _ => return none

def requireTool (t : Template) : Attempt Unit := do
  if ← t.builder.isAvailable then return
  throw (.missingTool t.name t.builder.tool)

/-- The user agrees to build a template with these settings. -/
def agree (t : Template) (settings : Settings) : Attempt Unit := do
  match ← Session.confirm t.name settings.rows with
  | .ok true => return
  | .ok false => throw .cancelled
  | .error e => throw (.collection e.text)

/-- Goes through the stages after the choice of a template. -/
def scaffold (source : Source) (t : Template) (choice : Choice) : Step Project := do
  attempt (requireTool t)
  let schema ← attempt (schemaOrNone source t)
  reach (if schema.isSome then .schemaLoaded else .noSchema)
  reach .collecting
  let settings ← attempt (schema.getD .empty).collect
  let config := t.builder.encode settings
  reach .encoded
  if !choice.agreed then attempt (agree t settings)
  reach .building
  attempt (t.builder.build t.descriptor config choice.output)
  reach .done
  return ⟨t.name, choice.output, (← get).trail, schema.isSome⟩

/-- Scaffolds a template of a listing. Nothing happens if there is none at the place. -/
def run (source : Source) (templates : List Template) (choice : Choice) : Step Project :=
  match select templates choice.index with
  | .error f => throw f
  | .ok t => do
    reach .selected
    tryCatch (scaffold source t choice) fun f => do
      reach .failed
      throw f

end Scaffolding.Scaffold
