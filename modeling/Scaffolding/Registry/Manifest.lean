import Scaffolding.Template.Descriptor
import Scaffolding.Text.Blank
import Scaffolding.Yaml.Record
import Scaffolding.Yaml.Value.Reader

/-!
# Registry documents

The document of a registry is a YAML mapping with its version and the list of its templates. The
templates are kept as values, each to be read for itself, so that one that cannot be read does not
take the others with it. A blank document, or one that writes null, is a registry without templates.
-/

set_option autoImplicit false

namespace Scaffolding.Registry

/-!
## Registry entries

An entry of a registry names a template, its kind and its repository. The branch and the path of the
schema may be left out or empty, and are then filled in.
-/

/-- An entry, as it is written. -/
structure Entry where
  name : String
  description : String
  kind : Template.Kind
  organization : String
  repository : String
  branch : Option String
  schemaPath : Option String
  deriving DecidableEq, Repr

namespace Entry

def recordType : Yaml.RecordType where
  expected := "struct RegistryEntry"
  fields :=
    [⟨"name", [], .text, true⟩,
      ⟨"description", [], .text, false⟩,
      ⟨"type", [], .text, true⟩,
      ⟨"organization", [], .text, true⟩,
      ⟨"repository", [], .text, true⟩,
      ⟨"branch", [], .optionalText, false⟩,
      ⟨"configPath", ["config_path"], .optionalText, false⟩]

def ofRecord (r : Yaml.Record) : Entry where
  name := (r.text? "name").getD ""
  description := (r.text? "description").getD ""
  kind := .ofWord ((r.text? "type").getD "")
  organization := (r.text? "organization").getD ""
  repository := (r.text? "repository").getD ""
  branch := r.text? "branch"
  schemaPath := r.text? "configPath"

def read (v : Yaml.Value) : Except Yaml.Mismatch Entry :=
  (recordType.read v).map ofRecord

/-- The path of a schema when none is given. -/
def standardSchemaPath : String := "config.yaml"

/-- The text, unless it is empty or missing. -/
def orElse (text : Option String) (standard : String) : String :=
  (text.filter fun s => !s.isEmpty).getD standard

/-- The descriptor of a template, with what is left out filled in. -/
def descriptor (standardBranch : String) (e : Entry) : Template.Descriptor where
  name := e.name
  description := e.description
  kind := e.kind
  organization := e.organization
  repository := e.repository
  branch := orElse e.branch standardBranch
  schemaPath := orElse e.schemaPath standardSchemaPath

end Entry

/-! ## Manifests -/

/-- A registry document. -/
structure Manifest where
  version : Option Yaml.Value
  templates : List Yaml.Value
  deriving Inhabited

namespace Manifest

/-- A document that says nothing. -/
def empty : Manifest :=
  ⟨none, []⟩

/-- The parts of a document that were read so far. -/
structure Parts where
  version : Option (Option Yaml.Value)
  templates : Option (List Yaml.Value)

def readOptional (d : Yaml.Document) (depth : Nat) (node : Yaml.Node) :
    Yaml.Unfolding (Option Yaml.Value) := do
  let node ← d.follow node
  if ← d.isAbsent node then return none
  return some (← d.value depth node)

/-- Reads one entry of the document. Each part may come once, and other entries are passed over. -/
def readPart (d : Yaml.Document) (parts : Parts) (entry : Yaml.Node × Yaml.Node) :
    Yaml.Unfolding Parts := do
  let key ← d.text entry.1
  if key = "version" then
    if parts.version.isSome then throw .duplicateKey
    return { parts with version := some (← readOptional d (Yaml.depthLimit - 1) entry.2) }
  else if key = "templates" then
    if parts.templates.isSome then throw .duplicateKey
    let items ← d.items entry.2
    return { parts with templates := some (← items.mapM (d.value (Yaml.depthLimit - 2))) }
  else return parts

def readRoot (d : Yaml.Document) (root : Yaml.Node) : Yaml.Unfolding Manifest := do
  let root ← d.follow root
  if ← d.isAbsent root then return empty
  let parts ← (← d.entries root).foldlM (readPart d) ⟨none, none⟩
  return ⟨parts.version.join, parts.templates.getD []⟩

def read (text : String) : Except Yaml.Error Manifest :=
  if Text.isBlankText text then .ok empty
  else do
    let d ← Yaml.Document.parse text
    match d.root with
    | none => return empty
    | some root => (readRoot d root).run' 0

/-- The version of the registry, written as a text or as a number. -/
def versionText? (m : Manifest) : Option String :=
  match m.version with
  | some (.string s) => some s
  | some (.number n) => some n.text
  | _ => none

/-- What an entry that cannot be read is called: by its name, or by its position. -/
def label (position : Nat) (v : Yaml.Value) : String :=
  match (v.get? "name").bind fun name => name.untag.text? with
  | some name => name
  | none => "entry #" ++ String.ofList (natChars position)

/-- Reads an entry, or tells what it is called and why it cannot be read. -/
def readEntry (position : Nat) (v : Yaml.Value) : Except (String × Yaml.Mismatch) Entry :=
  match Entry.read v with
  | .ok e => .ok e
  | .error e => .error (label position v, e)

/-- Reads all entries; the first one has position one. -/
def entries (m : Manifest) : List (Except (String × Yaml.Mismatch) Entry) :=
  m.templates.mapIdx fun i v => readEntry (i + 1) v

end Manifest

end Scaffolding.Registry
