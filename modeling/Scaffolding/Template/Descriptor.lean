import Scaffolding.Json.Basic
import Scaffolding.Text.Blank

/-!
# Template descriptors

A descriptor says what a template is called, how it is built and where it lives: the organization,
the repository and the branch, and the path of its schema in the repository.
-/

set_option autoImplicit false

namespace Scaffolding.Template

/-!
## Kinds of templates

A registry names the way a template is built by a word. A word that names no known way is kept as it
is written, so that the template can still be listed and the reason reported.
-/

/-- The way a template is built. -/
inductive Kind
  | nix
  | cookiecutter
  | gitRepo
  | unknown (word : String)
  deriving DecidableEq, Repr, Inhabited

namespace Kind

/-- The kind that a word names; blanks around a known word do not count. -/
def ofWord (word : String) : Kind :=
  match Text.trim word with
  | "nix" => .nix
  | "cookiecutter" => .cookiecutter
  | "gitRepo" => .gitRepo
  | "git_repo" => .gitRepo
  | "git" => .gitRepo
  | _ => .unknown word

/-- The word for a kind, as it is written in a registry. -/
def word : Kind → String
  | nix => "nix"
  | cookiecutter => "cookiecutter"
  | gitRepo => "gitRepo"
  | unknown word => word

/-- A kind that nothing builds. -/
def isUnknown : Kind → Bool
  | unknown _ => true
  | _ => false

end Kind

/-! ## Descriptors -/

/-- One template of a registry, with nothing left to a default. -/
structure Descriptor where
  name : String
  description : String
  kind : Kind
  organization : String
  repository : String
  branch : String
  schemaPath : String
  deriving DecidableEq, Repr, Inhabited

namespace Descriptor

/-- The address from which the repository is cloned. -/
def repositoryUrl (d : Descriptor) : String :=
  "https://github.com/" ++ d.organization ++ "/" ++ d.repository ++ ".git"

/-- The address at which the branch can be read. -/
def browseUrl (d : Descriptor) : String :=
  "https://github.com/" ++ d.organization ++ "/" ++ d.repository ++ "/tree/" ++ d.branch

/-- The line that introduces a template: name, description and address. -/
def display (d : Descriptor) : String :=
  d.name ++ " - " ++ d.description ++ " <" ++ d.browseUrl ++ ">"

/-- A descriptor as an object with the field names of a registry. -/
def toJson (d : Descriptor) : Json :=
  .object
    [("name", .string d.name),
      ("description", .string d.description),
      ("type", .string d.kind.word),
      ("organization", .string d.organization),
      ("repository", .string d.repository),
      ("branch", .string d.branch),
      ("configPath", .string d.schemaPath)]

end Descriptor

end Scaffolding.Template
