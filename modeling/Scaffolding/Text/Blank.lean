/-!
# Blank characters

Which characters count as blank, and the three operations built on that choice: trimming a text,
deciding that a text says nothing, and cutting a text into lines.

The class is the Unicode property `White_Space`, so a no-break space is trimmed like a plain one.
Trimming is stated on lists of characters, where its laws are short, and lifted to `String`.
-/

set_option autoImplicit false

namespace Scaffolding.Text

/-- The twenty-five characters with the Unicode property `White_Space`. -/
def isBlank (c : Char) : Bool :=
  let n := c.toNat
  (0x9 ≤ n && n ≤ 0xD) || n == 0x20 || n == 0x85 || n == 0xA0 || n == 0x1680 ||
    (0x2000 ≤ n && n ≤ 0x200A) || n == 0x2028 || n == 0x2029 || n == 0x202F || n == 0x205F ||
    n == 0x3000

def dropTrailingBlanks (cs : List Char) : List Char :=
  (cs.reverse.dropWhile isBlank).reverse

/-- Drops the blanks at both ends of a list of characters. -/
def trimChars (cs : List Char) : List Char :=
  dropTrailingBlanks (cs.dropWhile isBlank)

/-- Drops the blanks at both ends of a text. -/
def trim (s : String) : String :=
  String.ofList (trimChars s.toList)

/-- A text is blank when it holds blanks only; the empty text is blank. -/
def isBlankText (s : String) : Bool :=
  s.toList.all isBlank

/-- Removes one carriage return that ends a line. -/
def dropReturn (line : List Char) : List Char :=
  match line.getLast? with
  | some '\r' => line.dropLast
  | _ => line

/-- The lines of a text given as characters, `line` being the reversed start of the first one.
A line ends at a line feed, or at a carriage return and a line feed; a text that ends with a line
feed has no empty line after it. -/
def linesFrom (line : List Char) : List Char → List (List Char)
  | [] => if line.isEmpty then [] else [line.reverse]
  | c :: rest =>
    if c = '\n' then dropReturn line.reverse :: linesFrom [] rest
    else linesFrom (c :: line) rest

/-- The lines of a text, without their ends. -/
def lines (s : String) : List String :=
  (linesFrom [] s.toList).map String.ofList

/-!
## Yes and no

The words that read as yes and as no, in English and in Portuguese. Blanks around a word and the
case of its letters do not count. Beyond ASCII, the only capital letter that one of the words can
have is `Ã`.
-/

/-- The small letter for a capital letter of one of the words. -/
def smallLetter (c : Char) : Char :=
  if c = 'Ã' then 'ã' else c.toLower

/-- What a text reads as, if it reads as yes or no. -/
def yesNo? (s : String) : Option Bool :=
  match String.ofList ((trimChars s.toList).map smallLetter) with
  | "true" | "yes" | "y" | "sim" | "s" => some true
  | "false" | "no" | "n" | "não" | "nao" => some false
  | _ => none

end Scaffolding.Text
