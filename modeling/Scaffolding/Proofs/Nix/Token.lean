import Mathlib.Tactic.SplitIfs
import Scaffolding.Nix.Literal
import Scaffolding.Proofs.Nix.Reader
import Scaffolding.Proofs.Number.Form

/-!
# The tokens of Nix literals read back

A string, an attribute name, a number and a word each read back to what was written, with any
characters after them. A string ends at its closing quote, so nothing is asked of what follows it;
the other tokens end where the characters that could go on with them end.

The escaping looks one character ahead. What carries its proof is that the first character of the
escaped rest is an opening brace only where the rest itself starts with one.
-/

set_option autoImplicit false

namespace Scaffolding.Nix

open Reader

/-! ## Two descriptions of the same characters -/

/-- The digits are those of the library. -/
theorem isDigit_eq (c : Char) : isDigit c = c.isDigit := by
  simp [isDigit, Char.isDigit, Char.le_def]

/-- The letters are those of the library. -/
theorem isLetter_eq (c : Char) : isLetter c = c.isAlpha := by
  have halpha : c.isAlpha = (c.isUpper || c.isLower) := rfl
  have hupper : c.isUpper = decide ('A' ≤ c ∧ c ≤ 'Z') := rfl
  have hlower : c.isLower = (decide ('a' ≤ c) && decide (c ≤ 'z')) := rfl
  rw [isLetter, halpha, hupper, hlower, Bool.decide_and, Bool.or_comm]

/-- A name starts with a letter or an underscore. -/
theorem isNameStart_eq (c : Char) : isNameStart c = (isLetter c || c == '_') := by
  rw [isNameStart, isLetter_eq]

/-- The characters of names are those of words. -/
theorem isNameChar_eq (c : Char) : isNameChar c = isWordChar c := by
  rw [isNameChar, isWordChar, Char.isAlphanum, ← isLetter_eq, ← isDigit_eq]
  rw [Bool.eq_iff_iff]
  simp [or_assoc]

/-- The words that are quoted as names are those that cannot be read as names. -/
theorem reserved_contains (name : String) : reserved.contains name = keywords.contains name := by
  rw [Bool.eq_iff_iff]
  simp only [reserved, keywords, List.contains_eq_mem, List.mem_cons, List.not_mem_nil, or_false,
    decide_eq_true_eq]
  grind

/-- Digits are characters of words. -/
theorem isWordChar_of_isDigit {c : Char} (h : isDigit c = true) : isWordChar c = true := by
  simp [isWordChar, h]

/-- A character that may start an identifier may also follow in one. -/
theorem isWordChar_of_isNameStart {c : Char} (h : isNameStart c = true) : isWordChar c = true := by
  rw [isNameStart_eq, Bool.or_eq_true, beq_iff_eq] at h
  rcases h with h | rfl
  · simp [isWordChar, h]
  · decide

/-- No character of a word is a space. -/
theorem isSpace_of_isWordChar {c : Char} (h : isWordChar c = true) : isSpace c = false := by
  rw [Bool.eq_false_iff]
  intro hs
  simp only [isSpace, Bool.or_eq_true, beq_iff_eq] at hs
  rcases hs with ((rfl | rfl) | rfl) | rfl <;> exact absurd h (by decide)

/-! ## Where a token ends -/

/-- The characters neither go on with a word nor with a number. -/
def Ends (rest : List Char) : Prop :=
  ∀ c ∈ rest.head?, isWordChar c = false ∧ c ≠ '.'

/-- A token ends before a character that can be part of none. -/
theorem ends_cons {c : Char} {rest : List Char} (h : isWordChar c = false) (hp : c ≠ '.') :
    Ends (c :: rest) := by
  simpa [Ends] using ⟨h, hp⟩

/-- A token ends with the text. -/
theorem ends_nil : Ends [] := by
  simp [Ends]

/-- A token ends before a space. -/
theorem ends_space (rest : List Char) : Ends (' ' :: rest) :=
  ends_cons (by decide) (by decide)

/-- A token ends before a semicolon. -/
theorem ends_semicolon (rest : List Char) : Ends (';' :: rest) :=
  ends_cons (by decide) (by decide)

/-- A token ends before a closing parenthesis. -/
theorem ends_closing (rest : List Char) : Ends (')' :: rest) :=
  ends_cons (by decide) (by decide)

/-- What is no space is not skipped. -/
theorem skipSpace_cons {c : Char} (h : isSpace c = false) (rest : List Char) :
    skipSpace (c :: rest) = c :: rest := by
  simp [skipSpace, h]

/-- A space is skipped. -/
theorem skipSpace_space (rest : List Char) : skipSpace (' ' :: rest) = skipSpace rest := by
  simp [skipSpace, isSpace]

/-- A line break is skipped. -/
theorem skipSpace_newline (rest : List Char) : skipSpace ('\n' :: rest) = skipSpace rest := by
  simp [skipSpace, isSpace]

/-- An indentation is skipped. -/
theorem skipSpace_indent (depth : Nat) (rest : List Char) :
    skipSpace (indent depth ++ rest) = skipSpace rest := by
  unfold skipSpace indent
  apply List.dropWhile_append_of_pos
  intro c hc
  rw [List.eq_of_mem_replicate hc]
  decide

/-! ## Strings -/

/-- A text ends at its quote. -/
theorem readText_quote (rest : List Char) : readText ('"' :: rest) = some ([], rest) := by
  rw [readText.eq_def]
  rfl

/-- A backslash makes one character of what follows it. -/
theorem readText_backslash (c : Char) (rest : List Char) :
    readText ('\\' :: c :: rest) =
      (readText rest).map fun (text, left) => (unescape c :: text, left) := by
  rw [readText.eq_def]
  rfl

/-- A character that neither ends nor escapes anything stands for itself. -/
theorem readText_plain {c : Char} {rest : List Char} (hq : c ≠ '"') (hb : c ≠ '\\')
    (hd : ¬ (c = '$' ∧ rest.head? = some '\x7b')) :
    readText (c :: rest) = (readText rest).map fun (text, left) => (c :: text, left) := by
  rw [readText.eq_def]
  simp only [if_neg hq, if_neg hb, if_neg hd]

/-- Escaping and the closing quote bring up no brace that the text does not start with. -/
theorem head_escapeChars (cs rest : List Char) (h : cs.head? ≠ some '\x7b') :
    (escapeChars cs ++ '"' :: rest).head? ≠ some '\x7b' := by
  cases cs with
  | nil => simp [escapeChars]
  | cons c cs =>
    have hc : c ≠ '\x7b' := by simpa using h
    simp only [escapeChars, escapeChar]
    split_ifs <;> simp [hc]

/-- An escaped character is read as the character that was meant. -/
theorem readText_escaped {c d : Char} {cs rest left : List Char} (hu : unescape d = c)
    (ih : readText rest = some (cs, left)) :
    readText ('\\' :: d :: rest) = some (c :: cs, left) := by
  rw [readText_backslash, ih, Option.map_some, hu]

/-- A text reads back from its escaped form up to the closing quote. -/
theorem readText_escapeChars (cs rest : List Char) :
    readText (escapeChars cs ++ '"' :: rest) = some (cs, rest) := by
  induction cs with
  | nil => exact readText_quote rest
  | cons c cs ih =>
    simp only [escapeChars, escapeChar]
    split_ifs with hq hb hn hr ht hd
    · exact readText_escaped (by rw [hq]; decide) ih
    · exact readText_escaped (by rw [hb]; decide) ih
    · exact readText_escaped (by rw [hn]; decide) ih
    · exact readText_escaped (by rw [hr]; decide) ih
    · exact readText_escaped (by rw [ht]; decide) ih
    · exact readText_escaped (by rw [hd.1]; decide) ih
    · -- any other character: if it is a dollar sign, then no brace comes up after it
      have hbrace : ¬ (c = '$' ∧ (escapeChars cs ++ '"' :: rest).head? = some '\x7b') := by
        rintro ⟨hc, hh⟩
        have hne : cs.head? ≠ some '\x7b' := by
          intro he
          exact hd ⟨hc, by simp [he]⟩
        exact head_escapeChars cs rest hne hh
      rw [List.singleton_append, List.cons_append, readText_plain hq hb hbrace, ih, Option.map_some]

/-- A quoted text starts and ends with a quote. -/
theorem quoteChars_append (cs rest : List Char) :
    quoteChars cs ++ rest = '"' :: (escapeChars cs ++ '"' :: rest) := by
  simp [quoteChars]

/-! ## Names -/

/-- A name that is written bare is a run of word characters that the reader takes for a name. -/
theorem identifier_of_isIdentifier {name : String} (h : isIdentifier name = true) :
    (∀ c ∈ name.toList, isWordChar c = true) ∧ Reader.isIdentifier name.toList = true := by
  unfold isIdentifier at h
  rw [Bool.and_eq_true, Bool.not_eq_true'] at h
  obtain ⟨hword, hkey⟩ := h
  cases hn : name.toList with
  | nil => simp [hn, isWord] at hword
  | cons c rest =>
    rw [hn, isWord, Bool.and_eq_true, List.all_eq_true] at hword
    refine ⟨?_, ?_⟩
    · intro d hd
      rcases List.mem_cons.1 hd with rfl | hd
      · exact isWordChar_of_isNameStart hword.1
      · rw [← isNameChar_eq]
        exact hword.2 d hd
    · have hname : String.ofList (c :: rest) = name := by rw [← hn, String.ofList_toList]
      have hstart := hword.1
      rw [isNameStart_eq] at hstart
      simp only [Reader.isIdentifier, List.head?_cons, Option.any_some, hstart, hname,
        reserved_contains, hkey, Bool.not_false, Bool.and_self]

/-- A name starts neither with a space nor with a closing brace. -/
theorem head_nameChars (name : String) :
    ∃ c rest, nameChars name = c :: rest ∧ isSpace c = false ∧ c ≠ '\x7d' := by
  unfold nameChars
  split
  · next h =>
    obtain ⟨hall, hid⟩ := identifier_of_isIdentifier h
    cases hn : name.toList with
    | nil => simp [hn, Reader.isIdentifier] at hid
    | cons c rest =>
      have hc := hall c (by simp [hn])
      refine ⟨c, rest, rfl, isSpace_of_isWordChar hc, ?_⟩
      rintro rfl
      exact absurd hc (by decide)
  · exact ⟨'"', _, rfl, by decide, by decide⟩

/-- A name is read as it was written. -/
theorem readName_nameChars (name : String) {rest : List Char} (hs : Ends rest) :
    readName (nameChars name ++ rest) = some (name, rest) := by
  unfold nameChars
  split
  · next h =>
    obtain ⟨hall, hid⟩ := identifier_of_isIdentifier h
    have hstop : ∀ c ∈ rest.head?, isWordChar c = false := fun c hc => (hs c hc).1
    unfold readName
    split
    · next tail heq =>
      -- a bare name does not start with a quote
      cases hn : name.toList with
      | nil => simp [hn, Reader.isIdentifier] at hid
      | cons c more =>
        rw [hn, List.cons_append] at heq
        have hc := hall c (by simp [hn])
        rw [(List.cons.inj heq).1] at hc
        exact absurd hc (by decide)
    · simp only [takeWhile_run hall hstop, dropWhile_run hall hstop, hid, if_true,
        String.ofList_toList]
  · rw [quoteChars_append]
    simp [readName, readText_escapeChars]

/-! ## Numbers -/

/-- Digits are digits for the reader of numbers as well. -/
theorem isDigit_of_digits {ds : List Char} (h : Digits ds) : ∀ c ∈ ds, isDigit c = true := by
  intro c hc
  rw [isDigit_eq]
  exact h.2 c hc

/-- No digit stands where a token ends. -/
theorem isDigit_of_ends {rest : List Char} (hs : Ends rest) : ∀ c ∈ rest.head?, isDigit c = false := by
  intro c hc
  cases hd : isDigit c with
  | false => rfl
  | true => exact absurd (isWordChar_of_isDigit hd) (by simp [(hs c hc).1])

/-- Digits are read up to the first character that is none. -/
theorem readDigits_append {ds rest : List Char} (h : Digits ds)
    (hs : ∀ c ∈ rest.head?, isDigit c = false) : readDigits (ds ++ rest) = some (ds, rest) := by
  unfold readDigits
  rw [takeWhile_run (isDigit_of_digits h) hs, dropWhile_run (isDigit_of_digits h) hs]
  cases ds with
  | nil => exact absurd rfl h.1
  | cons d ds => rfl

/-- Neither an exponent nor what follows a number starts with a digit or a point. -/
theorem head_exponent {exponent rest : List Char} (he : ExponentForm exponent) (hs : Ends rest) :
    ∀ c ∈ (exponent ++ rest).head?, isDigit c = false ∧ c ≠ '.' := by
  have hmark : isDigit 'e' = false ∧ 'e' ≠ '.' := by decide
  cases he with
  | none => exact fun c hc => ⟨isDigit_of_ends hs c hc, (hs c hc).2⟩
  | plain h => simpa using hmark
  | plus h => simpa using hmark
  | minus h => simpa using hmark

/-- Behind the whole part of a number no digit follows. -/
theorem head_fraction {fraction rest : List Char} (hf : FractionForm fraction)
    (hs : ∀ c ∈ rest.head?, isDigit c = false ∧ c ≠ '.') :
    ∀ c ∈ (fraction ++ rest).head?, isDigit c = false := by
  cases hf with
  | none => exact fun c hc => (hs c hc).1
  | some h => simp [isDigit]

/-- A fraction is read up to its end. -/
theorem readFraction_append {fraction rest : List Char} (hf : FractionForm fraction)
    (hs : ∀ c ∈ rest.head?, isDigit c = false ∧ c ≠ '.') :
    readFraction (fraction ++ rest) = some (fraction, rest) := by
  cases hf with
  | none =>
    cases rest with
    | nil => rfl
    | cons c rest =>
      have hc : c ≠ '.' := (hs c (by simp)).2
      simp [readFraction, hc]
  | some h =>
    simp [readFraction, readDigits_append h fun c hc => (hs c hc).1]

/-- There is no sign before digits. -/
theorem readSign_digits {signs ds : List Char} (h : Digits ds) (rest : List Char)
    (hsigns : signs.any isDigit = false) : readSign signs (ds ++ rest) = ([], ds ++ rest) := by
  cases ds with
  | nil => exact absurd rfl h.1
  | cons d ds =>
    have hd : d ∉ signs := by
      intro hm
      have hdigit : isDigit d = true := isDigit_of_digits h d (by simp)
      exact absurd hdigit (List.any_eq_false.mp hsigns d hm)
    simp [readSign, hd]

/-- An exponent is read up to the end of the token. -/
theorem readExponent_append {exponent rest : List Char} (he : ExponentForm exponent)
    (hs : Ends rest) : readExponent (exponent ++ rest) = some (exponent, rest) := by
  have hd : ∀ c ∈ rest.head?, isDigit c = false := isDigit_of_ends hs
  cases he with
  | none =>
    cases rest with
    | nil => rfl
    | cons c rest =>
      have hc : c ≠ 'e' := by
        rintro rfl
        exact absurd (hs 'e' (by simp)).1 (by decide)
      simp [readExponent, hc]
  | plain h =>
    have hsign : readSign ['+', '-'] _ = _ := readSign_digits h rest (by decide)
    simp [readExponent, hsign, readDigits_append h hd]
  | plus h => simp [readExponent, readSign, readDigits_append h hd]
  | minus h => simp [readExponent, readSign, readDigits_append h hd]

/-- A number without a sign reads back whole, and so it does behind a minus sign. -/
theorem readNumber_unsigned {cs rest : List Char} (h : UnsignedForm cs) (hs : Ends rest) :
    readNumber (cs ++ rest) = some (cs, rest) ∧
      readNumber ('-' :: (cs ++ rest)) = some ('-' :: cs, rest) := by
  obtain ⟨hw, hf, he⟩ := h
  rename_i whole fraction exponent
  have hexp := head_exponent he hs
  have hsign : readSign ['-'] _ = _ :=
    readSign_digits hw (fraction ++ (exponent ++ rest)) (by decide)
  have hminus : readSign ['-'] ('-' :: (whole ++ (fraction ++ (exponent ++ rest)))) =
      (['-'], whole ++ (fraction ++ (exponent ++ rest))) := by simp [readSign]
  have hwhole := readDigits_append hw (head_fraction hf hexp)
  constructor
  · simp [readNumber, hsign, hwhole, readFraction_append hf hexp, readExponent_append he hs]
  · simp [readNumber, hminus, hwhole, readFraction_append hf hexp, readExponent_append he hs]

/-- A number reads back as the text that was written for it. -/
theorem readNumber_numberChars (n : Number) {rest : List Char} (hs : Ends rest) :
    readNumber (numberChars n ++ rest) = some (numberChars n, rest) := by
  obtain ⟨cs, hform, htext⟩ := n.chars_form Json.layout
  rw [numberChars, htext]
  obtain ⟨hplain, hminus⟩ := readNumber_unsigned hform hs
  split
  · exact hminus
  · exact hplain

/-- The text of a number starts with a minus sign if it is negative, and with a digit otherwise. -/
theorem head_numberChars (n : Number) :
    ∃ c rest, numberChars n = c :: rest ∧
      if n.isNegative then c = '-' else isDigit c = true := by
  obtain ⟨cs, ⟨hw, hf, he⟩, htext⟩ := n.chars_form Json.layout
  rename_i whole fraction exponent
  rw [numberChars, htext]
  split
  · exact ⟨'-', _, rfl, rfl⟩
  · cases whole with
    | nil => exact absurd rfl hw.1
    | cons c more => exact ⟨c, _, rfl, isDigit_of_digits hw c (by simp)⟩

/-! ## Words -/

/-- A word is read up to its end, as what it means. -/
theorem readWord_append {word : String} {rest : List Char}
    (hw : word.toList.all isWordChar = true) (hs : Ends rest) :
    readWord (word.toList ++ rest) = (wordValue? word).map fun v => (v, rest) := by
  have hword : ∀ c ∈ word.toList, isWordChar c = true := List.all_eq_true.mp hw
  have hstop : ∀ c ∈ rest.head?, isWordChar c = false := fun c hc => (hs c hc).1
  rw [readWord, takeWhile_run hword hstop, dropWhile_run hword hstop, String.ofList_toList]

/-- The word for null means null. -/
theorem readWord_null {rest : List Char} (hs : Ends rest) :
    readWord ("null".toList ++ rest) = some (.null, rest) :=
  readWord_append (by decide) hs

/-- The words for the booleans mean them. -/
theorem readWord_bool (b : Bool) {rest : List Char} (hs : Ends rest) :
    readWord ((if b then "true" else "false").toList ++ rest) = some (.bool b, rest) := by
  cases b with
  | true => exact readWord_append (by decide) hs
  | false => exact readWord_append (by decide) hs

end Scaffolding.Nix
