import Scaffolding.CommandLine.Switch
import Scaffolding.Json.Reader

/-!
# Arguments

What the arguments of the command line ask for. Switches are written with a letter, several of which
can share a dash, or with a word after two dashes; a value follows, after an equals sign or as the
next argument. A switch whose value is an argument of its own is settled only when the next switch
comes or the level ends, which decides between help and an error.
-/

set_option autoImplicit false

namespace Scaffolding.CommandLine

/-- The switches that every command knows. -/
structure GlobalOptions where
  verbosity : Nat
  quiet : Bool
  owner : Option String
  repository : Option String
  branch : Option String
  deriving DecidableEq, Repr

/-- How to create a project. -/
structure CreateOptions where
  template : Option Nat
  directory : Option String
  /-- No confirmation is asked for. -/
  yes : Bool
  deriving DecidableEq, Repr

/-- What is to be done. -/
inductive Command
  | create (options : CreateOptions)
  | list (json : Bool)
  deriving DecidableEq, Repr

/-- What the arguments say. -/
structure Arguments where
  globals : GlobalOptions
  command : Command
  deriving DecidableEq, Repr

/-- Why the arguments do not lead to a command. -/
inductive Stop
  | help (topic : Topic)
  | version
  /-- The arguments are not understood. -/
  | usage
  deriving DecidableEq, Repr

/-- The switches that were given at a level, with their values, the last one first. -/
abbrev Given := List (Switch × String)

/-- The number that a text writes, with a plus sign or without. -/
def index? (text : String) : Option Nat :=
  let digits := match text.toList with
    | '+' :: rest => rest
    | cs => cs
  if digits.isEmpty || !digits.all Char.isDigit then none
  else
    let n := digitsValue digits
    if n < Nat.pow 2 64 then some n else none

/-- The value is one that the switch can take. -/
def Switch.accepts : Switch → String → Bool
  | template, value => (index? value).isSome
  | directory, value => !value.isEmpty
  | _, _ => true

def give (given : Given) (s : Switch) (value : String) : Except Stop Given :=
  if (given.lookup s).isSome && !s.isRepeatable then .error .usage
  else if !s.accepts value then .error .usage
  else .ok ((s, value) :: given)

/-- How far a level is read: what was given, and the last switch if its value is to come or not yet
settled. -/
structure Reading where
  given : Given
  held : Option (Switch × Option String)

namespace Reading

/-- Nothing was read yet. -/
def start : Reading :=
  ⟨[], none⟩

/-- A value is to come. -/
def isWaiting (r : Reading) : Bool :=
  match r.held with
  | some (_, none) => true
  | _ => false

/-- Settles the last switch. -/
def settle (r : Reading) : Except Stop Given :=
  match r.held with
  | none => .ok r.given
  | some (_, none) => .error .usage
  | some (s, some value) => give r.given s value

/-- A switch without a value is given. -/
def flag (level : Level) (r : Reading) (s : Switch) : Except Stop Reading := do
  let given ← r.settle
  match s with
  | .help => .error (.help (.level level))
  | .version => .error .version
  | s => return ⟨← give given s "", none⟩

/-- A switch that takes a value is given, with the value or without. -/
def option (r : Reading) (s : Switch) (value : Option String) : Except Stop Reading := do
  let given ← r.settle
  match value with
  | some value => return ⟨← give given s value, none⟩
  | none => return ⟨given, some (s, none)⟩

/-- Reads what follows two dashes. -/
def long (level : Level) (r : Reading) (cs : List Char) : Except Stop Reading :=
  let (word, value) := Text.cutFirst '=' cs
  match level.ofWord? word with
  | none => .error .usage
  | some s =>
    if s.takesValue then r.option s (value.map String.ofList)
    else if value.isSome then .error .usage
    else r.flag level s

/-- Reads the letters that follow a dash. What follows the letter of a switch with a value is its
value, after an equals sign or without. -/
def short (level : Level) (r : Reading) : List Char → Except Stop Reading
  | [] => .ok r
  | c :: rest =>
    match level.ofLetter? c with
    | none => .error .usage
    | some s =>
      if s.takesValue then
        match rest with
        | [] => r.option s none
        | '=' :: value => r.option s (some (String.ofList value))
        | value => r.option s (some (String.ofList value))
      else
        match r.flag level s with
        | .ok r => short level r rest
        | .error stop => .error stop

end Reading

/-- One argument, by its form. -/
inductive Form
  /-- Two dashes alone, after which there are no switches. -/
  | separator
  | long (cs : List Char)
  | short (cs : List Char)
  | word
  deriving DecidableEq, Repr

def Form.of (arg : String) : Form :=
  match arg.toList with
  | ['-', '-'] => .separator
  | '-' :: '-' :: rest => .long rest
  | '-' :: c :: rest => .short (c :: rest)
  | _ => .word

/-- The command that a word names. -/
def command? : String → Option Level
  | "create" => some .create
  | "list" => some .list
  | _ => none

/-- What help the words after the word `help` ask for. -/
def topicOf : List String → Stop
  | [] => .help (.level .program)
  | [word] =>
    if word = "help" then .help .help
    else
      match command? word with
      | some level => .help (.level level)
      | none => .usage
  | _ => .usage

/-- Nothing may follow the separator. -/
def closing (r : Reading) : List String → Except Stop Reading
  | [] => .ok r
  | _ => .error .usage

/-- Reads one argument of a level that is no word of its own. -/
def readSwitch (level : Level) (r : Reading) (arg : String) : Form → Except Stop Reading
  | .long cs => r.long level cs
  | .short cs => r.short level cs
  | _ =>
    match r.held with
    | some (s, none) => .ok { r with held := some (s, some arg) }
    | _ => .error .usage

def readCommand (level : Level) (r : Reading) : List String → Except Stop Reading
  | [] => .ok r
  | arg :: rest =>
    if Form.of arg = .separator then closing r rest
    else
      match readSwitch level r arg (Form.of arg) with
      | .ok r => readCommand level r rest
      | .error stop => .error stop

/-- The end of a level: its last switch is settled, and the log cannot be both quiet and verbose. -/
def finish (r : Reading) : Except Stop Given := do
  let given ← r.settle
  if (given.lookup .quiet).isSome && (given.lookup .verbose).isSome then .error .usage
  return given

/-- The command that was given, with what was given at its level. -/
def commandOf (level : Level) (given : Given) : Command :=
  match level with
  | .list => .list (given.lookup .json).isSome
  | _ =>
    .create
      ⟨(given.lookup .template).bind index?, given.lookup .directory, (given.lookup .yes).isSome⟩

/-- The switches for every command; what is given at the command counts before the rest. -/
def globalsOf (outer inner : Given) : GlobalOptions where
  verbosity :=
    let count (given : Given) : Nat := given.countP fun entry => entry.1 == .verbose
    if count inner = 0 then count outer else count inner
  quiet := (outer.lookup .quiet).isSome || (inner.lookup .quiet).isSome
  owner := (inner.lookup .owner).or (outer.lookup .owner)
  repository := (inner.lookup .repository).or (outer.lookup .repository)
  branch := (inner.lookup .branch).or (outer.lookup .branch)

def argumentsOf (r : Reading) (level : Level) (inner : Given) : Except Stop Arguments := do
  let outer ← finish r
  return ⟨globalsOf outer inner, commandOf level inner⟩

/-- Reads the arguments of the program. Without a command a project is created. -/
def readProgram (r : Reading) : List String → Except Stop Arguments
  | [] => argumentsOf r .program []
  | arg :: rest =>
    if Form.of arg = .separator then do
      argumentsOf (← closing r rest) .program []
    else if r.isWaiting = false ∧ arg = "help" then .error (topicOf rest)
    else
      match (if r.isWaiting then none else command? arg) with
      | some level => do
        let inner ← finish (← readCommand level .start rest)
        argumentsOf r level inner
      | none =>
        match readSwitch .program r arg (Form.of arg) with
        | .ok r => readProgram r rest
        | .error stop => .error stop

/-- What the arguments of the program ask for. -/
def read (args : List String) : Except Stop Arguments :=
  readProgram .start args

end Scaffolding.CommandLine
