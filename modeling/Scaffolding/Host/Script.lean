import Scaffolding.Text.Blank

/-!
# Scripts

A script is a list of simple commands, each with the way it is joined to the next one. A command has
words, and says where its two outputs go. A word is made of characters and of parameters, whose
values are known only when the command is run; a parameter between quotes gives one word whatever its
value is.

Reading has two steps: the characters give marks, which are words and what stands between them, and
the marks give commands. Groups, loops and functions are not read.
-/

set_option autoImplicit false

namespace Scaffolding.Host

/-- Where something is written. -/
inductive Stream
  | out
  | err
  | nowhere
  deriving DecidableEq, Repr

/-- A parameter: what a name or a sign after a dollar sign stands for. -/
inductive Parameter
  /-- The status of the last command. -/
  | status
  /-- The number of the process that runs the script. -/
  | process
  /-- How many arguments the script has. -/
  | count
  /-- All arguments. -/
  | arguments
  /-- The name of the script, or the argument at a place. -/
  | argument (place : Nat)
  /-- A variable. Scripts set none, so that only the environment could have it. -/
  | named (name : List Char)
  deriving DecidableEq, Repr

/-- A piece of a word. -/
inductive Fragment
  | char (c : Char)
  | parameter (p : Parameter) (quoted : Bool)
  /-- The start of a quotation. It makes a word even where it encloses nothing. -/
  | quotation
  deriving DecidableEq, Repr

abbrev Word := List Fragment

/-- How a command is joined to the one after it: that one is run in any case, or only after success
or failure, or is given the output of this one. -/
inductive Joint
  | next
  | ifDone
  | ifFailed
  | pipe
  deriving DecidableEq, Repr

/-- A simple command: its words, and where its two outputs go. -/
structure Simple where
  words : List Word
  out : Stream
  err : Stream
  deriving DecidableEq, Repr

abbrev Script := List (Simple × Joint)

/-- Why a text is no script. -/
inductive ScriptError
  | openQuotation
  | unexpected (sign : String)
  deriving DecidableEq, Repr

/-- What is said about a text that is no script. -/
def ScriptError.message : ScriptError → String
  | openQuotation => "Syntax error: Unterminated quoted string"
  | unexpected sign => "Syntax error: \"" ++ sign ++ "\" unexpected"

/-! ## Marks -/

/-- A mark of a script: a word, a joint, or a redirection. -/
inductive Mark
  | word (w : Word)
  | joint (j : Joint)
  | send (source target : Stream)
  deriving DecidableEq, Repr

/-- How characters are read: plainly, between quotes, or as a comment. -/
inductive Reading
  | plain
  | single
  | double
  | comment
  deriving DecidableEq, Repr

/-- A character that may start the name of a variable. -/
def startsName (c : Char) : Bool :=
  c.isAlpha || c == '_'

/-- The parameter after a dollar sign, and how many characters it takes. -/
def parameter? : List Char → Option (Parameter × Nat)
  | '?' :: _ => some (.status, 1)
  | '$' :: _ => some (.process, 1)
  | '#' :: _ => some (.count, 1)
  | '@' :: _ | '*' :: _ => some (.arguments, 1)
  | c :: rest =>
    if c.isDigit then some (.argument (c.toNat - '0'.toNat), 1)
    else if startsName c then
      let name := c :: rest.takeWhile fun d => startsName d || d.isDigit
      some (.named name, name.length)
    else none
  | [] => none

/-- The stream that a redirection leads to, and how many characters name it. -/
def target? (cs : List Char) : Option (Stream × Nat) :=
  let blanks := (cs.takeWhile (· == ' ')).length
  let named : List (String × Stream) :=
    [("/dev/null", .nowhere), ("/dev/stderr", .err), ("/dev/stdout", .out)]
  match cs with
  | '&' :: '1' :: _ => some (.out, 2)
  | '&' :: '2' :: _ => some (.err, 2)
  | _ =>
    (named.find? fun (path, _) => path.toList.isPrefixOf (cs.drop blanks)).map
      fun (path, stream) => (stream, blanks + path.length)

/-- The marks of a script from its characters. The count says how many of them belong to what was
read before; `word` is the reversed start of a word, if one was started. -/
def readMarks : Nat → Reading → Option Word → List Char → Except ScriptError (List Mark)
  | skip + 1, how, word, _ :: rest => readMarks skip how word rest
  | _, .single, _, [] | _, .double, _, [] => .error .openQuotation
  | _, _, word, [] => .ok (closed word [])
  | 0, .comment, word, c :: rest =>
    if c = '\n' then do return .joint .next :: (← readMarks 0 .plain none rest)
    else readMarks 0 .comment word rest
  | 0, .single, word, c :: rest =>
    if c = '\'' then readMarks 0 .plain word rest
    else readMarks 0 .single (extended word (.char c)) rest
  | 0, .double, word, c :: rest =>
    match c, rest with
    | '"', _ => readMarks 0 .plain word rest
    | '\\', d :: _ =>
      if ['"', '\\', '$', '\x60'].contains d then
        readMarks 1 .double (extended word (.char d)) rest
      else readMarks 0 .double (extended word (.char c)) rest
    | '$', _ =>
      match parameter? rest with
      | some (p, length) => readMarks length .double (extended word (.parameter p true)) rest
      | none => readMarks 0 .double (extended word (.char c)) rest
    | _, _ => readMarks 0 .double (extended word (.char c)) rest
  | 0, .plain, word, c :: rest =>
    match c, rest with
    | '\'', _ => readMarks 0 .single (extended word .quotation) rest
    | '"', _ => readMarks 0 .double (extended word .quotation) rest
    | '\\', d :: _ => readMarks 1 .plain (extended word (.char d)) rest
    | '$', _ =>
      match parameter? rest with
      | some (p, length) => readMarks length .plain (extended word (.parameter p false)) rest
      | none => readMarks 0 .plain (extended word (.char c)) rest
    | '&', '&' :: _ => do return closed word (.joint .ifDone :: (← readMarks 1 .plain none rest))
    | '|', '|' :: _ => do return closed word (.joint .ifFailed :: (← readMarks 1 .plain none rest))
    | '|', _ => do return closed word (.joint .pipe :: (← readMarks 0 .plain none rest))
    | ';', _ | '\n', _ => do return closed word (.joint .next :: (← readMarks 0 .plain none rest))
    | ' ', _ | '\t', _ => do return closed word (← readMarks 0 .plain none rest)
    | '>', _ =>
      match target? rest with
      | some (target, length) => do
        let more ← readMarks length .plain none rest
        match word with
        | some [.char '1'] => return .send .out target :: more
        | some [.char '2'] => return .send .err target :: more
        | _ => return closed word (.send .out target :: more)
      | none => .error (.unexpected ">")
    | _, _ =>
      if c = '#' && word.isNone then readMarks 0 .comment none rest
      else if ['&', '<', '(', ')', '\x60'].contains c then .error (.unexpected c.toString)
      else readMarks 0 .plain (extended word (.char c)) rest
where
  /-- The marks after a word that is complete, if one was started. -/
  closed (word : Option Word) (marks : List Mark) : List Mark :=
    match word with
    | some w => .word w.reverse :: marks
    | none => marks
  /-- A word with one more piece. -/
  extended (word : Option Word) (f : Fragment) : Option Word :=
    some (f :: word.getD [])

/-! ## Commands -/

/-- The command without words. -/
def Simple.empty : Simple :=
  ⟨[], .out, .err⟩

/-- Where a stream of a command goes. -/
def Simple.target (c : Simple) : Stream → Stream
  | .out => c.out
  | .err => c.err
  | .nowhere => .nowhere

/-- The commands of a list of marks, `c` being the command that was started. -/
def Script.ofMarks (c : Simple) : List Mark → Script
  | [] => [(c, .next)]
  | .word w :: rest => ofMarks { c with words := c.words ++ [w] } rest
  | .send .out target :: rest => ofMarks { c with out := c.target target } rest
  | .send .err target :: rest => ofMarks { c with err := c.target target } rest
  | .send .nowhere _ :: rest => ofMarks c rest
  | .joint j :: rest => (c, j) :: ofMarks .empty rest

def Script.read (text : String) : Except ScriptError Script := do
  return ofMarks .empty (← readMarks 0 .plain none text.toList)

end Scaffolding.Host
