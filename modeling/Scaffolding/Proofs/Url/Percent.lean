import Scaffolding.Proofs.Text.Bytes
import Scaffolding.Url.Percent

/-!
# Escapes read back

Both encodings of a URL can be undone for every text. An escaped text is read back as long as the
percent sign is escaped too, and a text in a form as long as the plus sign is. What an encoding writes
are the plain characters of the text, and otherwise percent signs and hexadecimal digits alone, so
that no other character comes out of it unless it is plain and went in.
-/

set_option autoImplicit false

namespace Scaffolding.Url

/-! ## Escapes of bytes -/

/-- The sign for a hexadecimal digit has its value. -/
theorem hexValue?_upperHex (n : Nat) : Json.hexValue? (upperHex n) = some (n % 16) := by
  have hdigit : ∀ d < 16, Json.hexValue? (Nat.digitChar d).toUpper = some d := by decide
  exact hdigit (n % 16) (Nat.mod_lt n (by decide))

/-- The sign for a hexadecimal digit is a letter or a digit. -/
theorem isAlphanum_upperHex (n : Nat) : (upperHex n).isAlphanum = true := by
  have hdigit : ∀ d < 16, (Nat.digitChar d).toUpper.isAlphanum = true := by decide
  exact hdigit (n % 16) (Nat.mod_lt n (by decide))

/-- Decoding the escape of a byte gives it back. -/
theorem decodeBytes_escapeByte (b : UInt8) (rest : List Char) :
    decodeBytes (escapeByte b ++ rest) = b :: decodeBytes rest := by
  have hb : b.toNat < 256 := b.toNat_lt
  have hvalue : b.toNat / 16 % 16 * 16 + b.toNat % 16 = b.toNat := by omega
  simp only [escapeByte, List.cons_append, List.nil_append, decodeBytes, hexValue?_upperHex, hvalue,
    UInt8.ofNat_toNat]

/-- Decoding the escapes of bytes gives them back. -/
theorem decodeBytes_flatMap_escapeByte (bs : List UInt8) (rest : List Char) :
    decodeBytes (bs.flatMap escapeByte ++ rest) = bs ++ decodeBytes rest := by
  induction bs with
  | nil => rfl
  | cons b bs ih =>
    rw [List.flatMap_cons, List.append_assoc, decodeBytes_escapeByte, ih, List.cons_append]

/-! ## Escaped texts -/

/-- A character that no escape starts with is itself. -/
theorem decodeBytes_cons {c : Char} (h : c ≠ '%') (rest : List Char) :
    decodeBytes (c :: rest) = String.utf8EncodeChar c ++ decodeBytes rest := by
  rw [decodeBytes]
  intro a b rest hc
  exact absurd hc h

/-- A text is encoded sign by sign. -/
theorem encode_cons (plain : Char → Bool) (c : Char) (cs : List Char) :
    encode plain (c :: cs) =
      (if plain c then [c] else (String.utf8EncodeChar c).flatMap escapeByte) ++ encode plain cs :=
  rfl

/-- Decoding a text that was encoded gives its bytes back, if the percent sign is not plain. -/
theorem decodeBytes_encode {plain : Char → Bool} (hpercent : plain '%' = false) (cs : List Char) :
    decodeBytes (encode plain cs) = Text.bytes cs := by
  induction cs with
  | nil => rfl
  | cons c cs ih =>
    have hbytes : Text.bytes (c :: cs) = String.utf8EncodeChar c ++ Text.bytes cs := rfl
    rw [encode_cons, hbytes]
    cases hc : plain c with
    | false =>
      rw [if_neg Bool.false_ne_true, decodeBytes_flatMap_escapeByte, ih]
    | true =>
      have hne : c ≠ '%' := by
        rintro rfl
        exact absurd hc (Bool.eq_false_iff.1 hpercent)
      rw [if_pos rfl, List.cons_append, List.nil_append, decodeBytes_cons hne, ih]

/-- The text that a text with escapes stands for. -/
def percentText (cs : List Char) : List Char :=
  Text.decode (decodeBytes cs)

/-- Every text comes back from its escaped form. -/
theorem percentText_encode {plain : Char → Bool} (hpercent : plain '%' = false) (cs : List Char) :
    percentText (encode plain cs) = cs := by
  rw [percentText, decodeBytes_encode hpercent, Text.decode_bytes]

/-- What an encoding writes are plain characters of the text and escapes. -/
theorem mem_encode {plain : Char → Bool} {cs : List Char} {c : Char} (h : c ∈ encode plain cs) :
    (c ∈ cs ∧ plain c = true) ∨ c = '%' ∨ c.isAlphanum = true := by
  obtain ⟨d, hd, hc⟩ := List.mem_flatMap.1 h
  by_cases hplain : plain d = true
  · rw [if_pos hplain, List.mem_singleton] at hc
    exact .inl ⟨hc ▸ hd, hc ▸ hplain⟩
  · rw [if_neg hplain] at hc
    obtain ⟨b, -, hb⟩ := List.mem_flatMap.1 hc
    rcases List.mem_cons.1 hb with hc | hb
    · exact .inr (.inl hc)
    rcases List.mem_cons.1 hb with hc | hb
    · exact .inr (.inr (hc ▸ isAlphanum_upperHex _))
    · exact .inr (.inr (List.mem_singleton.1 hb ▸ isAlphanum_upperHex _))

/-- The characters that escapes are written with. -/
def isEscape (c : Char) : Bool :=
  c == '%' || c.isAlphanum

/-- A sign that no escape uses is not in an encoded text, unless it is plain and in the text. -/
theorem not_mem_encode {plain : Char → Bool} {cs : List Char} {c : Char}
    (hescape : isEscape c = false) (h : c ∉ cs ∨ plain c = false) : c ∉ encode plain cs := by
  intro hc
  simp only [isEscape, Bool.or_eq_false_iff, beq_eq_false_iff_ne, ne_eq] at hescape
  rcases mem_encode hc with ⟨hmem, hplain⟩ | hpercent | hdigit
  · exact h.elim (absurd hmem) fun hp => absurd hplain (Bool.eq_false_iff.1 hp)
  · exact hescape.1 hpercent
  · exact absurd hdigit (Bool.eq_false_iff.1 hescape.2)

/-! ## Texts in forms -/

/-- Plain in a form once plus signs are read as the spaces that they stand for. -/
def plainInFormText (c : Char) : Bool :=
  c == ' ' || plainInForm c

/-- A text is encoded for a form sign by sign. -/
theorem encodeForm_cons (c : Char) (cs : List Char) :
    encodeForm (c :: cs) = (if c = ' ' then ['+'] else encode plainInForm [c]) ++ encodeForm cs :=
  rfl

/-- Without plus signs there are none to be read as blanks. -/
theorem map_plus_encode {cs : List Char} (h : '+' ∉ cs) :
    (cs.map fun c => if c = '+' then ' ' else c) = cs := by
  refine (List.map_congr_left fun c hc => ?_).trans (List.map_id cs)
  exact if_neg fun heq : c = '+' => h (heq ▸ hc)

/-- A text in a form is the text with escapes, once plus signs are spaces. -/
theorem map_plus_encodeForm (cs : List Char) :
    ((encodeForm cs).map fun c => if c = '+' then ' ' else c) = encode plainInFormText cs := by
  induction cs with
  | nil => rfl
  | cons c cs ih =>
    rw [encodeForm_cons, List.map_append, ih, encode_cons plainInFormText]
    by_cases hspace : c = ' '
    · subst hspace
      rfl
    · have hplus : '+' ∉ encode plainInForm [c] := not_mem_encode (by decide) (.inr (by decide))
      have hplain : plainInFormText c = plainInForm c := by
        rw [plainInFormText, beq_eq_false_iff_ne.2 hspace, Bool.false_or]
      rw [if_neg hspace, map_plus_encode hplus, encode_cons plainInForm, hplain]
      exact congrArg (· ++ _) (List.append_nil _)

def formText (cs : List Char) : List Char :=
  Text.decode (decodeFormBytes cs)

/-- Every text comes back from a form. -/
theorem formText_encodeForm (cs : List Char) : formText (encodeForm cs) = cs := by
  rw [formText, decodeFormBytes, map_plus_encodeForm]
  exact percentText_encode (by decide) cs

/-- A form is written with letters, digits, plus and percent signs and four signs more. -/
theorem not_mem_encodeForm {c : Char} (hescape : isEscape c = false) (hplus : c ≠ '+')
    (hplain : plainInForm c = false) (cs : List Char) : c ∉ encodeForm cs := by
  intro hc
  obtain ⟨d, -, hd⟩ := List.mem_flatMap.1 hc
  by_cases hspace : d = ' '
  · rw [if_pos hspace, List.mem_singleton] at hd
    exact hplus hd
  · rw [if_neg hspace] at hd
    exact not_mem_encode hescape (.inr hplain) hd

end Scaffolding.Url
