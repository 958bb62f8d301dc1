import Scaffolding.Host.Program
import Scaffolding.Host.Script

/-!
# The shell

Running a script, command after command. A run holds what was written so far, the status of the last
command and how the script ended, if it did: by the command `exit`, or by a signal that it sent to
itself.
-/

set_option autoImplicit false

namespace Scaffolding.Host

/-- How a script was started: the name it goes by and its arguments. -/
structure Start where
  name : String
  args : List String
  deriving DecidableEq, Repr

/-- How far a script is. -/
structure Run where
  stdout : List UInt8
  stderr : List UInt8
  status : Nat
  /-- How the script ended, if it did: with a status, or by a signal. -/
  ending : Option (Option Nat)
  deriving DecidableEq, Repr

namespace Run

/-- Nothing was run yet. -/
def start : Run :=
  ⟨[], [], 0, none⟩

/-- Writes bytes. -/
def write (stream : Stream) (bs : List UInt8) (r : Run) : Run :=
  match stream with
  | .out => { r with stdout := r.stdout ++ bs }
  | .err => { r with stderr := r.stderr ++ bs }
  | .nowhere => r

end Run

/-! ## Words -/

/-- The number of the process that runs a script. -/
def processNumber : String := "4242"

/-- The values of a parameter: one, or as many as there are arguments. -/
def Parameter.values (start : Start) (r : Run) : Parameter → List String
  | status => [toString r.status]
  | process => [processNumber]
  | count => [toString start.args.length]
  | arguments => start.args
  | argument 0 => [start.name]
  | argument (place + 1) => [start.args.getD place ""]
  | named _ => [""]

/-- Texts that words give: those that are complete, and the reversed start of one. -/
structure Texts where
  complete : List String
  started : Option (List Char)

namespace Texts

/-- Completes the text that was started. -/
def close (t : Texts) : Texts :=
  match t.started with
  | some cs => ⟨t.complete ++ [String.ofList cs.reverse], none⟩
  | none => t

/-- Adds a character to the text that was started. -/
def add (t : Texts) (c : Char) : Texts :=
  { t with started := some (c :: t.started.getD []) }

/-- Adds characters as they are. -/
def addAll (t : Texts) (cs : List Char) : Texts :=
  { t with started := some (cs.reverse ++ t.started.getD []) }

/-- Adds characters, of which blanks end a text. -/
def addSplit (t : Texts) (cs : List Char) : Texts :=
  cs.foldl (fun t c => if [' ', '\t', '\n'].contains c then t.close else t.add c) t

/-- Adds values, each but the first to a text of its own. -/
def addValues (add : Texts → List Char → Texts) (t : Texts) : List String → Texts
  | [] => t
  | [value] => add t value.toList
  | value :: rest => addValues add (add t value.toList).close rest

/-- Adds a piece of a word. -/
def addFragment (start : Start) (r : Run) (t : Texts) : Fragment → Texts
  | .char c => t.add c
  | .quotation => t.addAll []
  | .parameter p true => t.addValues addAll (p.values start r)
  | .parameter p false => t.addValues addSplit (p.values start r)

end Texts

/-- The texts that the words of a command give. -/
def expand (start : Start) (r : Run) (words : List Word) : List String :=
  words.flatMap fun w => (w.foldl (Texts.addFragment start r) ⟨[], none⟩).close.complete

/-! ## Commands -/

/-- What a shell says about a command. -/
def complaint (start : Start) (text : String) : List UInt8 :=
  Text.bytes (start.name ++ ": 1: " ++ text ++ "\n").toList

/-- The status that the argument of the command `exit` asks for. -/
def exitStatus? (last : Nat) : List String → Option Nat
  | [] => some last
  | arg :: _ =>
    let cs := arg.toList
    if !cs.isEmpty && cs.all Char.isDigit && digitsValue cs < Nat.pow 2 31 then
      some (digitsValue cs % 256)
    else none

/-- Runs a command that is given as texts, with an input. -/
def runTexts (start : Start) (c : Simple) (input : List UInt8) (texts : List String) (r : Run) :
    Run :=
  match texts with
  | [] => r
  | "exit" :: args =>
    match exitStatus? r.status args with
    | some status => { r with ending := some (some status) }
    | none =>
      let text := "exit: Illegal number: " ++ args.headD ""
      { r.write c.err (complaint start text) with ending := some (some 2) }
  | "kill" :: args =>
    if !args.contains processNumber then { r with status := 1 }
    else if args.contains "-0" then { r with status := 0 }
    else { r with ending := some none }
  | name :: args =>
    match program? .shell input name args with
    | some o => { (r.write c.out o.stdout).write c.err o.stderr with status := o.status }
    | none => { r.write c.err (complaint start (name ++ ": not found")) with status := 127 }

/-- What decides about the next command: whether it is run, its input, and whether it is the end of
a pipe. -/
structure Turn where
  active : Bool
  input : List UInt8
  piped : Bool

/-- Runs a command of a pipe. What ends such a command does not end the script, unless it is a
signal. -/
def contained (r : Run) : Run :=
  match r.ending with
  | some (some status) => { r with status := status, ending := none }
  | _ => r

def runCommands (start : Start) (turn : Turn) (r : Run) : Script → Run
  | [] => r
  | (c, joint) :: rest =>
    if r.ending.isSome then r
    else
      let done := if turn.active then runTexts start c turn.input (expand start r c.words) r else r
      match joint with
      | .pipe =>
        let r' := contained { done with stdout := r.stdout }
        runCommands start ⟨turn.active, done.stdout.drop r.stdout.length, true⟩ r' rest
      | joint =>
        let r' := if turn.piped then contained done else done
        let active := match joint with
          | .ifDone => r'.status == 0
          | .ifFailed => r'.status != 0
          | _ => true
        runCommands start ⟨active, [], false⟩ r' rest

def runScript (start : Start) (text : String) : Run :=
  match Script.read text with
  | .ok script => runCommands start ⟨true, [], false⟩ .start script
  | .error e => ⟨[], complaint start e.message, 2, none⟩

end Scaffolding.Host
