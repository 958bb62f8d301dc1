import Scaffolding.Builder.Command
import Scaffolding.Nix.Literal
import Scaffolding.Session.Basic
import Scaffolding.Settings.Basic
import Scaffolding.Template.Basic
import Scaffolding.Tool.Command

/-!
# Building projects

A builder runs one command to build a project. What goes wrong is told as a failure of the build,
with what the tool itself reported where it ran. The output of Nix is copied when it was built, and
the directory for a clone is made before.
-/

set_option autoImplicit false

namespace Scaffolding

/-!
## Configurations

The settings of a project in the form in which the tool of a builder takes them: as a Nix attribute
set, as a JSON object, or not at all.
-/

/-- Settings as a tool takes them. -/
inductive Configuration
  | nix (text : String)
  | json (text : String)
  | empty
  deriving DecidableEq, Repr, Inhabited

def Configuration.text : Configuration → String
  | nix text => text
  | json text => text
  | empty => ""

def Builder.encode (settings : Settings) : Builder → Configuration
  | nix => .nix (Nix.attrSet settings.members)
  | cookiecutter => .json settings.jsonText
  | gitRepo => .empty

end Scaffolding

namespace Scaffolding.Builder

/-! ## Builds -/

/-- The tool of a builder is there. Only Nix is looked for; of the other tools it is assumed. -/
def isAvailable (b : Builder) : Attempt Bool :=
  match b with
  | nix => do
    let reply ← Session.run (Tool.versionQuery b.tool)
    match Tool.Presence.ofReply b.tool reply with
    | .ok presence => return presence.available
    | .error e => throw (.system "failed to probe \x60nix\x60" e.text)
  | _ => return true

/-- Runs the command that builds a template, `engine` being the name of the tool in messages. Gives
what the command wrote. -/
def runBuild (template engine : String) (diagnostic : Tool.Outcome → String)
    (call : Tool.Command) : Attempt String := do
  match ← Session.run call with
  | .error e => throw (.build template ("failed to run " ++ engine ++ ": " ++ e.text))
  | .ok o => if o.success then return o.stdout else throw (.build template (diagnostic o))

/-- Changes files for a template; `what` says in messages what was to be done. -/
def changeFor (template what : String) (deed : Deed) : Attempt Unit := do
  match ← Session.change deed with
  | .ok () => return
  | .error e => throw (.build template (what ++ ": " ++ e.text))

/-- Builds a template with Nix and copies the output into a directory. -/
def buildNix (d : Template.Descriptor) (attrs output : String) : Attempt Unit := do
  let stdout ← runBuild d.name "nix" Nix.buildDiagnostic (Nix.buildCommand d attrs)
  match Nix.outputPath? stdout with
  | none => throw (.build d.name "nix build printed no output path")
  | some path =>
    changeFor d.name ("failed to copy " ++ path ++ " into " ++ output) (.copyContents path output)

/-- Renders a template with Cookiecutter into a directory. -/
def buildCookiecutter (d : Template.Descriptor) (context output : String) : Attempt Unit := do
  let _ ← runBuild d.name "cookiecutter" Tool.Outcome.diagnostic
    (Cookiecutter.buildCommand d context output)

/-- Clones the repository of a template into a directory. -/
def buildGitRepo (d : Template.Descriptor) (output : String) : Attempt Unit := do
  changeFor d.name ("failed to create " ++ output) (.makeDirectories output)
  let _ ← runBuild d.name "git" Tool.Outcome.diagnostic (GitRepo.buildCommand d output)

/-- Builds a template with a configuration in a directory. A configuration made for another builder
is refused, except by the builder that takes none. -/
def build (b : Builder) (d : Template.Descriptor) (config : Configuration) (output : String) :
    Attempt Unit :=
  match b, config with
  | nix, .nix attrs => buildNix d attrs output
  | nix, .empty => buildNix d "\x7b \x7d" output
  | cookiecutter, .json context => buildCookiecutter d context output
  | cookiecutter, .empty => buildCookiecutter d "\x7b\x7d" output
  | gitRepo, _ => buildGitRepo d output
  | b, _ =>
    throw (.build d.name
      ("configuration was not encoded for the " ++ b.word ++ " backend"))

end Scaffolding.Builder
