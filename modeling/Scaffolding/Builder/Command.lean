import Scaffolding.Nix.Literal
import Scaffolding.Template.Descriptor
import Scaffolding.Tool.Command

/-!
# Commands of the builders

Each builder runs one command to build a project: a plain repository is cloned, a template is rendered
by a script, or it is built as a package.
-/

set_option autoImplicit false

namespace Scaffolding.GitRepo

/-!
## Cloning repositories

A plain repository is cloned at its branch, without its history.
-/

/-- The command that clones the repository of a template into a directory. -/
def buildCommand (d : Template.Descriptor) (output : String) : Tool.Command :=
  ⟨"git", ["clone", "--depth", "1", "--branch", d.branch, d.repositoryUrl, output]⟩

end Scaffolding.GitRepo

namespace Scaffolding.Cookiecutter

/-!
## Building with Cookiecutter

A template is rendered by a short script that calls the engine. The script takes the template, the
branch, the directory and the settings as its arguments, and asks nothing.
-/

/-- The script that renders a template. -/
def script : String :=
  "import json, sys\n" ++
    "from cookiecutter.main import cookiecutter\n" ++
    "cookiecutter(\n" ++
    "    sys.argv[1],\n" ++
    "    checkout=sys.argv[2],\n" ++
    "    no_input=True,\n" ++
    "    output_dir=sys.argv[3],\n" ++
    "    extra_context=json.loads(sys.argv[4]),\n" ++
    ")\n"

/-- What the engine calls a template. -/
def reference (d : Template.Descriptor) : String :=
  "gh:" ++ d.organization ++ "/" ++ d.repository

/-- The command that renders a template into a directory. -/
def buildCommand (d : Template.Descriptor) (context output : String) : Tool.Command :=
  ⟨"python3", ["-c", script, reference d, d.branch, output, context]⟩

end Scaffolding.Cookiecutter

namespace Scaffolding.Nix

/-!
## Building with Nix

A template is a package of a flake, applied to an attribute set. The build prints the path at which
its output is; the output is then copied to where the project is wanted.
-/

/-- Lines of which all but the first one are indented by two spaces. -/
def indentRest : List String → List Char
  | [] => []
  | first :: rest => first.toList ++ rest.flatMap fun line => '\n' :: ' ' :: ' ' :: line.toList

/-- A text with all its lines but the first one indented. -/
def indented (text : String) : List Char :=
  indentRest (Text.lines text)

/-- The part of the build expression in front of the arguments. -/
def expressionHead (d : Template.Descriptor) : List Char :=
  ("with import <nixpkgs> \x7b\x7d;\n" ++
    "let\n" ++
    "  template = builtins.getFlake \"github:").toList ++
    d.organization.toList ++ '/' :: d.repository.toList ++ "?ref=".toList ++ d.branch.toList ++
    "\";\n".toList ++ "  args = ".toList

/-- The part of the build expression between the arguments and the name of the package. -/
def expressionMiddle : List Char :=
  (";\n" ++ "in\n" ++ "  template.packages.$\x7bbuiltins.currentSystem\x7d.").toList

/-- The characters of the expression that builds a template with arguments. -/
def expressionChars (d : Template.Descriptor) (attrs : String) : List Char :=
  expressionHead d ++ indented attrs ++ expressionMiddle ++ nameChars d.name ++ " args\n".toList

/-- The expression that builds a template with arguments. -/
def expression (d : Template.Descriptor) (attrs : String) : String :=
  String.ofList (expressionChars d attrs)

def buildCommand (d : Template.Descriptor) (attrs : String) : Tool.Command :=
  ⟨"nix", ["build", "--impure", "--no-link", "--print-out-paths", "--expr", expression d attrs]⟩

/-- The path of the output: the first line of what the build printed that is not blank. -/
def outputPath? (stdout : String) : Option String :=
  ((Text.lines stdout).map Text.trim).find? fun line => !line.isEmpty

/-- What a build that did not succeed says about it; a text about errors is kept as it is. -/
def buildDiagnostic (o : Tool.Outcome) : String :=
  if Text.isBlankText o.stderr then o.diagnostic else o.stderr

end Scaffolding.Nix
