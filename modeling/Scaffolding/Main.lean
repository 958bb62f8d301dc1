import Scaffolding.CommandLine.Run
import Scaffolding.Host.Basic

/-!
# The program

Reads the arguments, the environment and the hosts file, runs the command line on a bare host, and
prints what it leaves.
-/

set_option autoImplicit false

namespace Scaffolding.Main

/-- The variables that the program looks at. -/
def watchedVariables : List String :=
  ["BLUEPRINT_API_URL", "BLUEPRINT_REGISTRY_OWNER", "BLUEPRINT_REGISTRY_REPO",
    "BLUEPRINT_REGISTRY_BRANCH", "BLUEPRINT_REGISTRY_PATH", "GITHUB_TOKEN", "GH_TOKEN",
    "GH_CONFIG_DIR", "HOME"]

/-- The variables that are set, with their values. The home directory on record is not asked for. -/
def readEnvironment : IO Environment := do
  let assignments ← watchedVariables.filterMapM fun name => do
    return (← IO.getEnv name).map fun value => (name, value)
  return ⟨assignments, none⟩

/-- The files that the program looks at: the hosts file, if it is there. -/
def readFiles (env : Environment) : IO Files := do
  let start : Files := { entries := [], here := [] }
  match Source.hostsPath? env with
  | none => return start
  | some path =>
    try
      let text ← IO.FS.readFile path
      return start.add (Files.names path) (.file text 0o600)
    catch _ => return start

/-- Runs the program and gives its exit code. -/
def run (args : List String) : IO UInt32 := do
  let env ← readEnvironment
  let files ← readFiles env
  let (printed, _) := (CommandLine.run env args).run Host.world ⟨[], files⟩
  (← IO.getStdout).putStr printed.stdout
  (← IO.getStderr).putStr printed.stderr
  return UInt32.ofNat printed.exitCode

end Scaffolding.Main

/-- The program. -/
def main (args : List String) : IO UInt32 :=
  Scaffolding.Main.run args
