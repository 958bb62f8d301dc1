/-!
# Texts as bytes

The UTF-8 bytes of a text, and the text that bytes write. Bytes that write no character are read as
the replacement character, one for each piece that cannot be continued: a piece is as long as it is
the start of a character.
-/

set_option autoImplicit false

namespace Scaffolding.Text

def bytes (cs : List Char) : List UInt8 :=
  cs.flatMap String.utf8EncodeChar

/-- A byte that continues a character, with its lowest and highest value at this place. -/
def continues (low high : Nat) (b : UInt8) : Bool :=
  low ≤ b.toNat && b.toNat ≤ high

/-- The lowest and the highest second byte after a first byte, and the number of bytes that follow
the first. A byte that starts no longer character gives nothing. -/
def leadRange? (b : UInt8) : Option (Nat × Nat × Nat) :=
  let n := b.toNat
  if 0xC2 ≤ n ∧ n ≤ 0xDF then some (0x80, 0xBF, 1)
  else if n = 0xE0 then some (0xA0, 0xBF, 2)
  else if n = 0xED then some (0x80, 0x9F, 2)
  else if 0xE1 ≤ n ∧ n ≤ 0xEF then some (0x80, 0xBF, 2)
  else if n = 0xF0 then some (0x90, 0xBF, 3)
  else if n = 0xF4 then some (0x80, 0x8F, 3)
  else if 0xF1 ≤ n ∧ n ≤ 0xF3 then some (0x80, 0xBF, 3)
  else none

/-- The bytes at the start of a list that continue a character, `count` at most; the first of them
must be in a range of its own. -/
def continuation : Nat → Nat → Nat → List UInt8 → List UInt8
  | 0, _, _, _ => []
  | count + 1, low, high, b :: rest =>
    if continues low high b then b :: continuation count 0x80 0xBF rest else []
  | _ + 1, _, _, [] => []

/-- The lowest bits of a first byte, by the number of bytes that follow it. -/
def leadBits (b : UInt8) (count : Nat) : Nat :=
  b.toNat % Nat.pow 2 (6 - count)

/-- The first character that bytes write, and how many bytes it takes. -/
def firstChar (b : UInt8) (rest : List UInt8) : Char × Nat :=
  if b.toNat < 0x80 then (Char.ofNat b.toNat, 1)
  else
    match leadRange? b with
    | none => (Char.ofNat 0xFFFD, 1)
    | some (low, high, count) =>
      let more := continuation count low high rest
      if more.length = count then
        (Char.ofNat (more.foldl (fun n b => n * 64 + b.toNat % 64) (leadBits b count)), count + 1)
      else (Char.ofNat 0xFFFD, more.length + 1)

/-- Reads bytes as characters, `fuel` bounding their number. -/
def decodeLoop : Nat → List UInt8 → List Char
  | 0, _ => []
  | _ + 1, [] => []
  | fuel + 1, b :: rest =>
    let (c, length) := firstChar b rest
    c :: decodeLoop fuel (rest.drop (length - 1))

/-- The characters that bytes write, with replacement characters for what writes none. -/
def decode (bs : List UInt8) : List Char :=
  decodeLoop bs.length bs

/-- The characters that bytes write, if all of them do. -/
def decode? (bs : List UInt8) : Option (List Char) :=
  (String.fromUTF8? ⟨bs.toArray⟩).map String.toList

/-- Joins pairs of bytes to units of sixteen bits; a byte that is left over gives a lone half. -/
def units (bigEndian : Bool) : List UInt8 → List Nat
  | a :: b :: rest =>
    (if bigEndian then a.toNat * 256 + b.toNat else b.toNat * 256 + a.toNat) :: units bigEndian rest
  | [_] => [0xD800]
  | [] => []

/-- The characters that units of sixteen bits write; a surrogate without its partner is replaced. -/
def decodeUnits : List Nat → List Char
  | high :: low :: rest =>
    if 0xD800 ≤ high ∧ high < 0xDC00 ∧ 0xDC00 ≤ low ∧ low < 0xE000 then
      Char.ofNat (0x10000 + (high - 0xD800) * 0x400 + (low - 0xDC00)) :: decodeUnits rest
    else if 0xD800 ≤ high ∧ high < 0xE000 then Char.ofNat 0xFFFD :: decodeUnits (low :: rest)
    else Char.ofNat high :: decodeUnits (low :: rest)
  | [unit] => [if 0xD800 ≤ unit ∧ unit < 0xE000 then Char.ofNat 0xFFFD else Char.ofNat unit]
  | [] => []

/-- The text of a document given as bytes. A byte-order mark selects the encoding and is dropped;
without one the encoding is UTF-8. -/
def decodeDocument : List UInt8 → String
  | 0xEF :: 0xBB :: 0xBF :: rest => String.ofList (decode rest)
  | 0xFF :: 0xFE :: rest => String.ofList (decodeUnits (units false rest))
  | 0xFE :: 0xFF :: rest => String.ofList (decodeUnits (units true rest))
  | bs => String.ofList (decode bs)

end Scaffolding.Text
