import Scaffolding.Version.Basic

/-!
# Notices about the registry's version

A registry that declares a version newer than the expected one, or one of an older major version,
gets a notice. A version that cannot be read gets none. The notice repeats both versions as they
were written.
-/

set_option autoImplicit false

namespace Scaffolding.Version

/-!
## The order of versions

Versions are compared by their three numbers, then by pre-release, then by build metadata. A
pre-release comes before its release. Identifiers are compared one by one: numbers by size and
before words, words by their characters, and a list that ends first comes first.

Build metadata takes part in the comparison, so two versions that differ in it alone are not equal.
-/

def compareWords : List Char → List Char → Ordering
  | [], [] => .eq
  | [], _ :: _ => .lt
  | _ :: _, [] => .gt
  | a :: as, b :: bs => (compare a.toNat b.toNat).then (compareWords as bs)

/-- Numbers written in digits: by size, and of two that are equal the one with fewer zeros first. -/
def compareDigits (a b : List Char) : Ordering :=
  (compare (digitsValue a) (digitsValue b)).then (compare a.length b.length)

/-- Two identifiers: numbers before words. -/
def compareIdentifier (a b : List Char) : Ordering :=
  match a.all Char.isDigit, b.all Char.isDigit with
  | true, true => compareDigits a b
  | true, false => .lt
  | false, true => .gt
  | false, false => compareWords a b

/-- Lists of identifiers, the first difference deciding; a list that ends first comes first. -/
def compareIdentifiers : List (List Char) → List (List Char) → Ordering
  | [], [] => .eq
  | [], _ :: _ => .lt
  | _ :: _, [] => .gt
  | a :: as, b :: bs => (compareIdentifier a b).then (compareIdentifiers as bs)

/-- Pre-releases: no pre-release comes after every pre-release. -/
def comparePreRelease : List (List Char) → List (List Char) → Ordering
  | [], [] => .eq
  | [], _ :: _ => .gt
  | _ :: _, [] => .lt
  | as, bs => compareIdentifiers as bs

def compare (a b : Version) : Ordering :=
  (Ord.compare a.major b.major).then <|
    (Ord.compare a.minor b.minor).then <|
      (Ord.compare a.patch b.patch).then <|
        (comparePreRelease a.preRelease b.preRelease).then
          (compareIdentifiers a.build b.build)

/-! ## Notices -/

/-- How a registry's version stands to the expected one. -/
inductive Standing
  | newer
  | older
  | fine
  deriving DecidableEq, Repr

/-- Any later version is newer, but only an earlier major version is older. -/
def standing (expected found : Version) : Standing :=
  if compare found expected = .gt then .newer
  else if found.major < expected.major then .older
  else .fine

/-- The standing of two versions as they are written, if both can be read. -/
def standing? (expected found : String) : Option Standing := do
  let e ← read? expected
  let f ← read? found
  return standing e f

def Standing.notice? (expected found upgrade : String) : Standing → Option String
  | .newer =>
    some ("Warning: The template registry is at version " ++ found ++ ", newer than the " ++
      expected ++ " this CLI understands.\nSome templates may not build correctly.\n" ++
      "Consider updating: " ++ upgrade)
  | .older =>
    some ("Warning: The template registry is at version " ++ found ++ ", older than the " ++
      expected ++ " this CLI expects.\nSome templates may be missing fields.")
  | .fine => none

/-- The notice about a registry that declares the version `found`, where `expected` is understood
and `upgrade` is the command to suggest. -/
def notice? (expected found upgrade : String) : Option String :=
  (standing? expected found).bind (Standing.notice? expected found upgrade)

/-- The version of the registry document that is understood. -/
def understood : String := "1.0.0"

end Scaffolding.Version
