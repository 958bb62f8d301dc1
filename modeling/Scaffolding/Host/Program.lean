import Scaffolding.Json.Reader
import Scaffolding.Text.Bytes

/-!
# Programs that are always there

The small programs that any host has, as functions from their arguments and their input to what they
write: the one that prints a format, the one that prints its arguments, the one that passes its input
on, and those that only succeed or fail. A shell has its own versions of the first two, which differ
in what a backslash means.
-/

set_option autoImplicit false

namespace Scaffolding.Host

/-- What a program leaves behind. -/
structure Output where
  status : Nat
  stdout : List UInt8
  stderr : List UInt8
  deriving DecidableEq, Repr

/-- Success, with what was written. -/
def Output.success (stdout : List UInt8) : Output :=
  ⟨0, stdout, []⟩

/-- Failure, with the message about it. -/
def Output.failure (status : Nat) (message : String) : Output :=
  ⟨status, [], Text.bytes message.toList⟩

/-- Who runs a program: a shell, which has some programs built in, or the host itself. -/
inductive Runner
  | shell
  | host
  deriving DecidableEq, Repr

/-! ## Escapes -/

/-- A digit of a number in base eight. -/
def isOctal (c : Char) : Bool :=
  decide ('0' ≤ c) && decide (c ≤ '7')

/-- The number that digits in base eight write. -/
def octalValue (cs : List Char) : Nat :=
  cs.foldl (fun n c => n * 8 + (c.toNat - '0'.toNat)) 0

/-- The character that a letter after a backslash stands for. -/
def escaped? : Char → Option Char
  | 'n' => some '\n'
  | 't' => some '\t'
  | 'r' => some '\r'
  | 'a' => some '\x07'
  | 'b' => some '\x08'
  | 'f' => some '\x0c'
  | 'v' => some '\x0b'
  | '\\' => some '\\'
  | '"' => some '"'
  | _ => none

/-- What a backslash and the characters after it stand for, and how many of these belong to it. A
number in base eight stands for a byte, and in a program of the host one in base sixteen too. -/
def readEscape (runner : Runner) (rest : List Char) : List UInt8 × Nat :=
  let octal := (rest.take 3).takeWhile isOctal
  if octal.isEmpty then
    match rest with
    | 'x' :: after =>
      let digits := (after.take 2).map Json.hexValue? |>.takeWhile Option.isSome |>.filterMap id
      if runner = .shell || digits.isEmpty then ([0x5C], 0)
      else ([UInt8.ofNat (digits.foldl (fun n d => n * 16 + d) 0)], digits.length + 1)
    | c :: _ =>
      match escaped? c with
      | some e => (Text.bytes [e], 1)
      | none => ([0x5C], 0)
    | [] => ([0x5C], 0)
  else ([UInt8.ofNat (octalValue octal)], octal.length)

/-! ## Printing a format -/

/-- A piece of a format: bytes as they are, or a place for an argument. -/
inductive Piece
  | bytes (bs : List UInt8)
  | text
  | letter
  | decimal
  deriving DecidableEq, Repr

/-- Reads a format. The count says how many characters belong to what was read before. -/
def readFormat (runner : Runner) : Nat → List Char → List Piece
  | _, [] => []
  | skip + 1, _ :: rest => readFormat runner skip rest
  | 0, '%' :: rest =>
    match rest with
    | '%' :: _ => .bytes [0x25] :: readFormat runner 1 rest
    | 's' :: _ => .text :: readFormat runner 1 rest
    | 'c' :: _ => .letter :: readFormat runner 1 rest
    | 'd' :: _ | 'i' :: _ => .decimal :: readFormat runner 1 rest
    | _ => .bytes [0x25] :: readFormat runner 0 rest
  | 0, '\\' :: rest =>
    let (bs, length) := readEscape runner rest
    .bytes bs :: readFormat runner length rest
  | 0, c :: rest => .bytes (Text.bytes [c]) :: readFormat runner 0 rest

def Piece.takesArgument : Piece → Bool
  | bytes _ => false
  | _ => true

/-- A number as text; what is no number counts as zero. -/
def decimalText (arg : String) : String :=
  match arg.toList with
  | '-' :: rest =>
    if !rest.isEmpty && rest.all Char.isDigit then "-" ++ toString (digitsValue rest) else "0"
  | cs => if !cs.isEmpty && cs.all Char.isDigit then toString (digitsValue cs) else "0"

/-- What an argument is printed as in the place of a piece. -/
def Piece.print (arg : String) : Piece → List UInt8
  | bytes bs => bs
  | text => Text.bytes arg.toList
  | letter => (Text.bytes arg.toList).take 1
  | decimal => Text.bytes (decimalText arg).toList

/-- Fills the places of a format once. Gives what is written and the arguments that are left. -/
def fill : List Piece → List String → List UInt8 × List String
  | [], args => ([], args)
  | piece :: rest, args =>
    let (more, left) := fill rest (if piece.takesArgument then args.tail else args)
    (piece.print (args.headD "") ++ more, left)

/-- Fills the places of a format again and again while arguments are left, `rounds` times at most. -/
def fillAll (pieces : List Piece) : Nat → List String → List UInt8
  | 0, _ => []
  | rounds + 1, args =>
    let (written, left) := fill pieces args
    if left.isEmpty || !pieces.any Piece.takesArgument then written
    else written ++ fillAll pieces rounds left

/-- What is said when there is no format. -/
def missingFormat : Runner → Output
  | .shell => .failure 2 "printf: usage: printf format [arg ...]\n"
  | .host =>
    .failure 1 "printf: missing operand\nTry 'printf --help' for more information.\n"

def printFormat (runner : Runner) (args : List String) : Output :=
  match if args.head? = some "--" then args.tail else args with
  | [] => missingFormat runner
  | format :: args =>
    .success (fillAll (readFormat runner 0 format.toList) (args.length + 1) args)

/-! ## Printing arguments -/

/-- The bytes of a text in which backslashes are read; here a number in base eight may have three
digits after a zero. The count says how many characters belong to
what was read before. -/
def unescape (runner : Runner) : Nat → List Char → List UInt8
  | _, [] => []
  | skip + 1, _ :: rest => unescape runner skip rest
  | 0, '\\' :: '0' :: rest =>
    let digits := (rest.take 3).takeWhile isOctal
    UInt8.ofNat (octalValue digits) :: unescape runner digits.length rest
  | 0, '\\' :: rest =>
    let (bs, length) := readEscape runner rest
    bs ++ unescape runner length rest
  | 0, c :: rest => Text.bytes [c] ++ unescape runner 0 rest

/-- The options in front of the arguments to print: whether the line is ended, whether backslashes
are read, and the arguments. A shell knows the first option only, and once. -/
def printOptions (runner : Runner) : Bool → Bool → List String → Bool × Bool × List String
  | ended, escapes, arg :: rest =>
    match runner, arg with
    | .shell, "-n" => (false, escapes, rest)
    | .host, "-n" => printOptions runner false escapes rest
    | .host, "-e" => printOptions runner ended true rest
    | .host, "-E" => printOptions runner ended false rest
    | _, _ => (ended, escapes, arg :: rest)
  | ended, escapes, [] => (ended, escapes, [])

/-- Prints arguments with spaces between them. -/
def printLine (runner : Runner) (args : List String) : Output :=
  let (ended, escapes, texts) := printOptions runner true (runner == .shell) args
  let line := (" ".intercalate texts).toList
  .success ((if escapes then unescape runner 0 line else Text.bytes line) ++
    if ended then [0x0A] else [])

/-! ## All programs -/

/-- What a program leaves behind when it is run with arguments and an input, if it is there. -/
def program? (runner : Runner) (input : List UInt8) (name : String) (args : List String) :
    Option Output :=
  match name, args with
  | "printf", args => some (printFormat runner args)
  | "echo", args => some (printLine runner args)
  | "cat", [] | "cat", ["-"] => some (.success input)
  | "true", _ | ":", _ => if name = ":" && runner = .host then none else some (.success [])
  | "false", _ => some ⟨1, [], []⟩
  | _, _ => none

end Scaffolding.Host
