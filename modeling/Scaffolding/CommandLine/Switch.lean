import Scaffolding.Source.Basic

/-!
# Switches

The switches of the command line: how each is written, whether it takes a value, and at which levels
it is known. The first level is the program itself; behind it come its commands, which know the
switches of the first level too, but for the version.
-/

set_option autoImplicit false

namespace Scaffolding.CommandLine

inductive Switch
  | verbose
  | quiet
  | owner
  | repository
  | branch
  | template
  | directory
  | yes
  | json
  | help
  | version
  deriving DecidableEq, Repr

/-- A level of the command line: the program or one of its commands. -/
inductive Level
  | program
  | create
  | list
  deriving DecidableEq, Repr

namespace Switch

def letter? : Switch → Option Char
  | verbose => some 'v'
  | quiet => some 'q'
  | template => some 't'
  | directory => some 'd'
  | yes => some 'y'
  | help => some 'h'
  | version => some 'V'
  | _ => none

def word : Switch → String
  | verbose => "verbose"
  | quiet => "quiet"
  | owner => "owner"
  | repository => "repo"
  | branch => "branch"
  | template => "template"
  | directory => "directory"
  | yes => "yes"
  | json => "json"
  | help => "help"
  | version => "version"

/-- What stands for the value of a switch that takes one. -/
def valueName? : Switch → Option String
  | owner => some "OWNER"
  | repository => some "REPO"
  | branch => some "BRANCH"
  | template => some "TEMPLATE"
  | directory => some "DIRECTORY"
  | _ => none

def takesValue (s : Switch) : Bool :=
  s.valueName?.isSome

/-- A switch that may be given more than once. -/
def isRepeatable (s : Switch) : Bool :=
  s == verbose

/-- What a switch does, for the help. -/
def summary : Switch → String
  | verbose => "Increase log verbosity (-v info, -vv debug, -vvv trace)"
  | quiet => "Only log errors"
  | owner => "Owner of the registry repository"
  | repository => "Registry repository name"
  | branch => "Registry branch"
  | template => "Index of the template to use, as shown by \x60blueprint list\x60"
  | directory => "Project directory to create"
  | yes => "Build without asking for confirmation"
  | json => "Print the descriptors as a JSON array"
  | help => "Print help"
  | version => "Print version"

end Switch

namespace Level

/-- The switches of a level, in the order of its help. -/
def switches : Level → List Switch
  | program => [.verbose, .quiet, .owner, .repository, .branch, .help, .version]
  | create =>
    [.template, .verbose, .directory, .quiet, .owner, .yes, .repository, .branch, .help]
  | list => [.json, .verbose, .quiet, .owner, .repository, .branch, .help]

def ofLetter? (level : Level) (c : Char) : Option Switch :=
  level.switches.find? fun s => s.letter? == some c

def ofWord? (level : Level) (word : List Char) : Option Switch :=
  level.switches.find? fun s => s.word.toList == word

end Level

/-!
## Help

The help of the program and of its commands: what it is for, how it is used, and a table of its
commands and switches. The second column of a table starts two spaces after its widest entry.
-/

/-- What help is asked for. -/
inductive Topic
  | level (level : Level)
  /-- The command that gives help. -/
  | help
  deriving DecidableEq, Repr

/-- How a switch is written, with room for a letter in front. -/
def Switch.form (s : Switch) : String :=
  let front := match s.letter? with
    | some c => String.ofList ['-', c, ',', ' ']
    | none => "    "
  let value := match s.valueName? with
    | some name => " <" ++ name ++ ">"
    | none => if s.isRepeatable then "..." else ""
  front ++ "--" ++ s.word ++ value

/-- The lines of a table of two columns. -/
def table (rows : List (String × String)) : String :=
  let width := (rows.map fun row => row.1.length).foldl max 0
  String.join (rows.map fun row =>
    "  " ++ row.1 ++ String.ofList (List.replicate (width - row.1.length) ' ') ++ "  " ++ row.2 ++
      "\n")

/-- The commands, with what they do. -/
def commandRows : List (String × String) :=
  [("create", "Create a new project from a template"),
    ("list", "List the templates in the registry"),
    ("help", "Print this message or the help of the given subcommand(s)")]

def Level.about : Level → String
  | program => "CLI for scaffolding projects from Nix, Cookiecutter and Git templates"
  | create => "Create a new project from a template"
  | list => "List the templates in the registry"

/-- How a level is used. -/
def Level.usage : Level → String
  | program => "[OPTIONS] [COMMAND]"
  | create => "create [OPTIONS]"
  | list => "list [OPTIONS]"

/-- The part of a help text above its tables. -/
def helpHead (about usage : String) : String :=
  about ++ "\n\nUsage: " ++ Source.programName ++ " " ++ usage ++ "\n\n"

def Level.switchTable (level : Level) : String :=
  "Options:\n" ++ table (level.switches.map fun s => (s.form, s.summary))

def Topic.text : Topic → String
  | level .program =>
    helpHead Level.program.about Level.program.usage ++ "Commands:\n" ++ table commandRows ++ "\n" ++
      Level.program.switchTable
  | level l => helpHead l.about l.usage ++ l.switchTable
  | help =>
    helpHead "Print this message or the help of the given subcommand(s)" "help [COMMAND]..." ++
      "Arguments:\n" ++ table [("[COMMAND]...", "Print help for the subcommand(s)")]

/-- The version of the program, as it is printed. -/
def versionText : String :=
  Source.programName ++ " " ++ Source.programVersion ++ "\n"

end Scaffolding.CommandLine
