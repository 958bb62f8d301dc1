import Scaffolding.Json.Reader
import Scaffolding.Text.Bytes

/-!
# Percent encoding

The parts of a URL are written with percent escapes for the bytes that may not stand there. Which
bytes these are depends on the part; bytes outside ASCII and controls are always escaped. In the
pairs of a query, encoded as a form, a space is written as a plus sign and only letters, digits and
four signs stand for themselves.
-/

set_option autoImplicit false

namespace Scaffolding.Url

/-- The hexadecimal digit of a number below sixteen, in upper case. -/
def upperHex (n : Nat) : Char :=
  (Nat.digitChar (n % 16)).toUpper

def escapeByte (b : UInt8) : List Char :=
  ['%', upperHex (b.toNat / 16), upperHex b.toNat]

/-- Writes characters with escapes for those that are not plain. -/
def encode (plain : Char → Bool) (cs : List Char) : List Char :=
  cs.flatMap fun c => if plain c then [c] else (String.utf8EncodeChar c).flatMap escapeByte

/-- The characters of ASCII that are no controls. -/
def isPrintable (c : Char) : Bool :=
  0x20 ≤ c.toNat && c.toNat < 0x7F

/-- Plain in a path that is not made of segments, and in a host outside the known schemes. -/
def plainInOther (c : Char) : Bool :=
  isPrintable c

def plainInFragment (c : Char) : Bool :=
  isPrintable c && c != ' ' && c != '"' && c != '<' && c != '>' && c.toNat != 0x60

def plainInPath (c : Char) : Bool :=
  plainInFragment c && c != '#' && c != '?' && c != '\x7b' && c != '\x7d'

/-- Plain in a path segment that is added as a whole. -/
def plainInSegment (special : Bool) (c : Char) : Bool :=
  plainInPath c && c != '/' && c != '%' && (!special || c != '\\')

/-- Plain in a user name or a password. -/
def plainInUser (c : Char) : Bool :=
  plainInPath c && c != '/' && c != ':' && c != ';' && c != '=' && c != '@' && c != '[' &&
    c != '\\' && c != ']' && c != '^' && c != '|'

def plainInQuery (special : Bool) (c : Char) : Bool :=
  isPrintable c && c != ' ' && c != '"' && c != '#' && c != '<' && c != '>' &&
    (!special || c != '\'')

def plainInForm (c : Char) : Bool :=
  c.isAlphanum || c == '*' || c == '-' || c == '.' || c == '_'

/-- A text as it is written in a form. -/
def encodeForm (cs : List Char) : List Char :=
  cs.flatMap fun c => if c = ' ' then ['+'] else encode plainInForm [c]

/-- The bytes that a text with escapes stands for. A percent sign without two digits is itself. -/
def decodeBytes : List Char → List UInt8
  | '%' :: a :: b :: rest =>
    match Json.hexValue? a, Json.hexValue? b with
    | some x, some y => UInt8.ofNat (x * 16 + y) :: decodeBytes rest
    | _, _ => '%'.toNat.toUInt8 :: decodeBytes (a :: b :: rest)
  | c :: rest => String.utf8EncodeChar c ++ decodeBytes rest
  | [] => []

/-- The bytes that a text in a form stands for. -/
def decodeFormBytes (cs : List Char) : List UInt8 :=
  decodeBytes (cs.map fun c => if c = '+' then ' ' else c)

end Scaffolding.Url
