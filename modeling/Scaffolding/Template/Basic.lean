import Scaffolding.Failure
import Scaffolding.Template.Descriptor

/-!
# Templates

A template that can be used is a descriptor with the builder for its kind.
-/

set_option autoImplicit false

namespace Scaffolding

/-!
## Builders

A builder makes a project out of a template with a tool of its own. Nix evaluates a template as a
package, Cookiecutter renders it, and a plain repository is cloned.
-/

/-- A way to build a project. -/
inductive Builder
  | nix
  | cookiecutter
  | gitRepo
  deriving DecidableEq, Repr, Inhabited

namespace Builder

/-- The builder for a kind of template; an unknown kind has none. -/
def ofKind? : Template.Kind → Option Builder
  | .nix => some nix
  | .cookiecutter => some cookiecutter
  | .gitRepo => some gitRepo
  | .unknown _ => none

/-- The word for a builder, as it is written in a registry. -/
def word : Builder → String
  | nix => "nix"
  | cookiecutter => "cookiecutter"
  | gitRepo => "gitRepo"

/-- The program that a builder runs. -/
def tool : Builder → String
  | nix => "nix"
  | cookiecutter => "python3"
  | gitRepo => "git"

/-- A builder that makes a directory of its own for the project. -/
def createsProjectDirectory : Builder → Bool
  | cookiecutter => true
  | _ => false

/-- A builder that takes settings, and has a schema that says which. -/
def takesSettings : Builder → Bool
  | gitRepo => false
  | _ => true

end Builder

/-! ## Templates that can be built -/

/-- A template that can be built. -/
structure Template where
  descriptor : Template.Descriptor
  builder : Builder
  deriving DecidableEq, Repr, Inhabited

namespace Template

def name (t : Template) : String :=
  t.descriptor.name

/-- The template that a descriptor describes, unless its kind is unknown. -/
def ofDescriptor (d : Descriptor) : Except Failure Template :=
  match Builder.ofKind? d.kind with
  | some b => .ok ⟨d, b⟩
  | none => .error (.unknownKind d.name d.kind.word)

end Template

end Scaffolding
