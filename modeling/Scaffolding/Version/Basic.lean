import Scaffolding.Number.Basic
import Scaffolding.Text.Blank
import Scaffolding.Text.Split

/-!
# Versions

A version is three numbers of 64 bits, a list of pre-release identifiers and a list of build
identifiers, as Semantic Versioning 2.0.0 writes them. `Version.read?` also takes the short forms
`1` and `1.2`, blanks around the version and one letter `v` before it.
-/

set_option autoImplicit false

namespace Scaffolding

/-- A version. The identifiers are kept as they are written. -/
structure Version where
  major : Nat
  minor : Nat
  patch : Nat
  preRelease : List (List Char)
  build : List (List Char)
  deriving DecidableEq, Repr, Inhabited

namespace Version

def isDigits (cs : List Char) : Bool :=
  !cs.isEmpty && cs.all Char.isDigit

/-- A zero before another digit. -/
def hasExtraZero (cs : List Char) : Bool :=
  cs.head? == some '0' && decide (1 < cs.length)

/-- Reads one of the three numbers: digits without an extra zero, below `2 ^ 64`. -/
def component? (cs : List Char) : Option Nat :=
  if isDigits cs && !hasExtraZero cs && decide (digitsValue cs < Nat.pow 2 64) then
    some (digitsValue cs)
  else none

def isIdentifierChar (c : Char) : Bool :=
  c.isAlphanum || c == '-'

def isBuildIdentifier (cs : List Char) : Bool :=
  !cs.isEmpty && cs.all isIdentifierChar

/-- An identifier of a pre-release: a number has no extra zero. -/
def isPreReleaseIdentifier (cs : List Char) : Bool :=
  isBuildIdentifier cs && !(cs.all Char.isDigit && hasExtraZero cs)

/-- Reads the identifiers after a sign, which must all be allowed; without the sign there are none. -/
def identifiers? (allowed : List Char → Bool) : Option (List Char) → Option (List (List Char))
  | none => some []
  | some cs =>
    let pieces := Text.splitChars '.' cs
    if pieces.all allowed then some pieces else none

/-- Reads a version in full: three numbers, then a pre-release after a minus sign and build metadata
after a plus sign, if there are any. -/
def parse? (cs : List Char) : Option Version := do
  let (front, build) := Text.cutFirst '+' cs
  let (core, preRelease) := Text.cutFirst '-' front
  match Text.splitChars '.' core with
  | [major, minor, patch] =>
    let major ← component? major
    let minor ← component? minor
    let patch ← component? patch
    let preRelease ← identifiers? isPreReleaseIdentifier preRelease
    let build ← identifiers? isBuildIdentifier build
    return ⟨major, minor, patch, preRelease, build⟩
  | _ => none

/-- A piece that a word of 64 bits can be read from: digits, with or without a plus sign before them
and extra zeros among them. -/
def isWord (cs : List Char) : Bool :=
  let digits := match cs with
    | '+' :: rest => rest
    | cs => cs
  isDigits digits && decide (digitsValue digits < Nat.pow 2 64)

/-- Pieces with zeros after them, up to three. -/
def padded (pieces : List (List Char)) : List (List Char) :=
  pieces ++ List.replicate (3 - pieces.length) ['0']

/-- Reads a version whose last numbers may be missing: at most three pieces that are words are padded
with zeros, and what comes of that is read in full. -/
def short? (cs : List Char) : Option Version :=
  let pieces := Text.splitChars '.' cs
  if pieces.length ≤ 3 ∧ pieces.all isWord = true then parse? (Text.joinChars '.' (padded pieces))
  else none

/-- Drops one letter `v` at the start. -/
def dropV : List Char → List Char
  | 'v' :: rest => rest
  | cs => cs

/-- Reads a version as a registry may write it: in full or short, with blanks around it and with one
letter `v` before it. -/
def read? (s : String) : Option Version :=
  let cs := dropV (Text.trimChars s.toList)
  match parse? cs with
  | some v => some v
  | none => short? cs

/-- The identifiers after a sign; nothing when there are none. -/
def signedChars (sign : Char) : List (List Char) → List Char
  | [] => []
  | pieces => sign :: Text.joinChars '.' pieces

/-- The text of a version in full. -/
def chars (v : Version) : List Char :=
  natChars v.major ++ '.' :: (natChars v.minor ++ '.' :: (natChars v.patch ++
    (signedChars '-' v.preRelease ++ signedChars '+' v.build)))

def text (v : Version) : String :=
  String.ofList v.chars

end Version

end Scaffolding
