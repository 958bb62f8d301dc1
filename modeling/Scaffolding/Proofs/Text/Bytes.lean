import Scaffolding.Text.Bytes

/-!
# Bytes of a text read back

Reading bytes as characters is total, so that any bytes are read as some text. On the bytes of a text
it gives this text: the first byte of a character tells how many follow and where the second one lies,
and the bytes that follow lie there, so the character is put together from all of them.
-/

set_option autoImplicit false

namespace Scaffolding.Text

/-! ## First bytes and the bytes that follow -/

/-- A number below 256 is kept as a byte. -/
theorem toNat_ofNat {n : Nat} (h : n < 256) : (UInt8.ofNat n).toNat = n :=
  UInt8.toNat_ofNat_of_lt (show n < UInt8.size from h)

/-- A first byte and as many bytes after it as it asks for write one character. -/
theorem firstChar_of_continuation {b : UInt8} {rest more : List UInt8} {low high count : Nat}
    (hb : ¬ b.toNat < 0x80) (hlead : leadRange? b = some (low, high, count))
    (hmore : continuation count low high rest = more) (hlength : more.length = count) :
    firstChar b rest =
      (Char.ofNat (more.foldl (fun n b => n * 64 + b.toNat % 64) (leadBits b count)), count + 1) := by
  simp only [firstChar, if_neg hb, hlead, hmore, if_pos hlength]

/-- A byte that follows the first one, with six bits of a character in it. -/
def tail (n : Nat) : UInt8 :=
  UInt8.ofNat (n % 64 + 128)

/-- A byte that continues a character has six bits of it. -/
theorem toNat_tail (n : Nat) : (tail n).toNat = n % 64 + 128 :=
  toNat_ofNat (by omega)

/-- These six bits are got back from it. -/
theorem toNat_tail_mod (n : Nat) : (tail n).toNat % 64 = n % 64 := by
  rw [toNat_tail]
  omega

/-- A byte that may continue is taken. -/
theorem continuation_cons {low high : Nat} {b : UInt8} (h : continues low high b = true)
    (count : Nat) (rest : List UInt8) :
    continuation (count + 1) low high (b :: rest) = b :: continuation count 0x80 0xBF rest := by
  rw [continuation, if_pos h]

/-- A byte that continues a character lies within the bounds for it. -/
theorem continues_tail_of_le {low high n : Nat} (hlow : low ≤ n % 64 + 128)
    (hhigh : n % 64 + 128 ≤ high) : continues low high (tail n) = true := by
  simp only [continues, toNat_tail, Bool.and_eq_true, decide_eq_true_eq]
  exact ⟨hlow, hhigh⟩

/-- Every such byte lies within the widest bounds. -/
theorem continues_tail (n : Nat) : continues 0x80 0xBF (tail n) = true :=
  continues_tail_of_le (by omega) (by omega)

/-- Nothing is taken when nothing is left to take. -/
theorem continuation_zero (low high : Nat) (bs : List UInt8) : continuation 0 low high bs = [] := by
  rw [continuation]

/-! ## Characters of two, three and four bytes -/

/-- A character of two bytes is read from them. -/
theorem firstChar_two {v : Nat} (hlow : 0x7F < v) (hhigh : v ≤ 0x7FF) (rest : List UInt8) :
    firstChar (UInt8.ofNat (v / 64 % 32 + 192)) (tail v :: rest) = (Char.ofNat v, 2) := by
  have hbyte : (UInt8.ofNat (v / 64 % 32 + 192)).toNat = v / 64 % 32 + 192 :=
    toNat_ofNat (by omega)
  have hlead : leadRange? (UInt8.ofNat (v / 64 % 32 + 192)) = some (0x80, 0xBF, 1) := by
    unfold leadRange?
    dsimp only
    rw [hbyte, if_pos (by omega)]
  have hmore : continuation 1 0x80 0xBF (tail v :: rest) = [tail v] := by
    rw [continuation_cons (continues_tail v), continuation_zero]
  rw [firstChar_of_continuation (by omega) hlead hmore rfl]
  have hbits : leadBits (UInt8.ofNat (v / 64 % 32 + 192)) 1 = v / 64 % 32 := by
    change (UInt8.ofNat (v / 64 % 32 + 192)).toNat % 32 = v / 64 % 32
    omega
  have hvalue : v / 64 % 32 * 64 + v % 64 = v := by omega
  simp only [List.foldl_cons, List.foldl_nil, toNat_tail_mod, hbits, hvalue]

/-- A character of three bytes is read from them. -/
theorem firstChar_three {v : Nat} (hlow : 0x7FF < v) (hhigh : v ≤ 0xFFFF)
    (hvalid : v < 0xD800 ∨ 0xDFFF < v) (rest : List UInt8) :
    firstChar (UInt8.ofNat (v / 4096 % 16 + 224)) (tail (v / 64) :: tail v :: rest) =
      (Char.ofNat v, 3) := by
  have hbyte : (UInt8.ofNat (v / 4096 % 16 + 224)).toNat = v / 4096 % 16 + 224 :=
    toNat_ofNat (by omega)
  -- where the second byte lies depends on the first one, which tells short forms and surrogates apart
  obtain ⟨low, high, hlead, hcontinues⟩ : ∃ low high,
      leadRange? (UInt8.ofNat (v / 4096 % 16 + 224)) = some (low, high, 2) ∧
        continues low high (tail (v / 64)) = true := by
    unfold leadRange?
    dsimp only
    rw [hbyte, if_neg (by omega)]
    by_cases hfirst : v / 4096 % 16 + 224 = 0xE0
    · rw [if_pos hfirst]
      exact ⟨_, _, rfl, continues_tail_of_le (by omega) (by omega)⟩
    · rw [if_neg hfirst]
      by_cases hsurrogate : v / 4096 % 16 + 224 = 0xED
      · rw [if_pos hsurrogate]
        exact ⟨_, _, rfl, continues_tail_of_le (by omega) (by omega)⟩
      · rw [if_neg hsurrogate, if_pos (by omega)]
        exact ⟨_, _, rfl, continues_tail (v / 64)⟩
  have hmore : continuation 2 low high (tail (v / 64) :: tail v :: rest) =
      [tail (v / 64), tail v] := by
    rw [continuation_cons hcontinues, continuation_cons (continues_tail v), continuation_zero]
  rw [firstChar_of_continuation (by omega) hlead hmore rfl]
  have hbits : leadBits (UInt8.ofNat (v / 4096 % 16 + 224)) 2 = v / 4096 % 16 := by
    change (UInt8.ofNat (v / 4096 % 16 + 224)).toNat % 16 = v / 4096 % 16
    omega
  have hvalue : (v / 4096 % 16 * 64 + v / 64 % 64) * 64 + v % 64 = v := by omega
  simp only [List.foldl_cons, List.foldl_nil, toNat_tail_mod, hbits, hvalue]

/-- A character of four bytes is read from them. -/
theorem firstChar_four {v : Nat} (hlow : 0xFFFF < v) (hhigh : v < 0x110000) (rest : List UInt8) :
    firstChar (UInt8.ofNat (v / 262144 % 8 + 240))
        (tail (v / 4096) :: tail (v / 64) :: tail v :: rest) =
      (Char.ofNat v, 4) := by
  have hbyte : (UInt8.ofNat (v / 262144 % 8 + 240)).toNat = v / 262144 % 8 + 240 :=
    toNat_ofNat (by omega)
  obtain ⟨low, high, hlead, hcontinues⟩ : ∃ low high,
      leadRange? (UInt8.ofNat (v / 262144 % 8 + 240)) = some (low, high, 3) ∧
        continues low high (tail (v / 4096)) = true := by
    unfold leadRange?
    dsimp only
    rw [hbyte, if_neg (by omega), if_neg (by omega), if_neg (by omega), if_neg (by omega)]
    by_cases hfirst : v / 262144 % 8 + 240 = 0xF0
    · rw [if_pos hfirst]
      exact ⟨_, _, rfl, continues_tail_of_le (by omega) (by omega)⟩
    · rw [if_neg hfirst]
      by_cases hlast : v / 262144 % 8 + 240 = 0xF4
      · rw [if_pos hlast]
        exact ⟨_, _, rfl, continues_tail_of_le (by omega) (by omega)⟩
      · rw [if_neg hlast, if_pos (by omega)]
        exact ⟨_, _, rfl, continues_tail (v / 4096)⟩
  have hmore : continuation 3 low high (tail (v / 4096) :: tail (v / 64) :: tail v :: rest) =
      [tail (v / 4096), tail (v / 64), tail v] := by
    rw [continuation_cons hcontinues, continuation_cons (continues_tail _),
      continuation_cons (continues_tail v), continuation_zero]
  rw [firstChar_of_continuation (by omega) hlead hmore rfl]
  have hbits : leadBits (UInt8.ofNat (v / 262144 % 8 + 240)) 3 = v / 262144 % 8 := by
    change (UInt8.ofNat (v / 262144 % 8 + 240)).toNat % 8 = v / 262144 % 8
    omega
  have hvalue : ((v / 262144 % 8 * 64 + v / 4096 % 64) * 64 + v / 64 % 64) * 64 + v % 64 = v := by
    omega
  simp only [List.foldl_cons, List.foldl_nil, toNat_tail_mod, hbits, hvalue]

/-! ## Texts -/

/-- The bytes of a character, whatever follows them, are read as this character. -/
theorem firstChar_utf8EncodeChar (c : Char) (rest : List UInt8) :
    ∃ b more, String.utf8EncodeChar c = b :: more ∧
      firstChar b (more ++ rest) = (c, more.length + 1) := by
  have hc : Char.ofNat c.val.toNat = c := Char.ofNat_toNat c
  have hvalid : c.val.toNat < 0xD800 ∨ 0xDFFF < c.val.toNat ∧ c.val.toNat < 0x110000 := c.valid
  unfold String.utf8EncodeChar
  dsimp only
  by_cases hone : c.val.toNat ≤ 0x7F
  · rw [if_pos hone]
    have hbyte : (UInt8.ofNat c.val.toNat).toNat = c.val.toNat :=
      toNat_ofNat (by omega)
    refine ⟨_, [], rfl, ?_⟩
    rw [firstChar, hbyte, if_pos (by omega), hc]
    rfl
  rw [if_neg hone]
  by_cases htwo : c.val.toNat ≤ 0x7FF
  · rw [if_pos htwo]
    have hfirst := firstChar_two (by omega) htwo rest
    rw [hc] at hfirst
    exact ⟨_, _, rfl, hfirst⟩
  rw [if_neg htwo]
  by_cases hthree : c.val.toNat ≤ 0xFFFF
  · rw [if_pos hthree]
    have hfirst := firstChar_three (by omega) hthree (by omega) rest
    rw [hc] at hfirst
    exact ⟨_, _, rfl, hfirst⟩
  · rw [if_neg hthree]
    have hfirst := firstChar_four (v := c.val.toNat) (by omega) (by omega) rest
    rw [hc] at hfirst
    exact ⟨_, _, rfl, hfirst⟩

/-- The bytes of a text are read to their end. -/
theorem decodeLoop_bytes {fuel : Nat} {cs : List Char} (h : (bytes cs).length ≤ fuel) :
    decodeLoop fuel (bytes cs) = cs := by
  induction cs generalizing fuel with
  | nil => cases fuel <;> rfl
  | cons c cs ih =>
    obtain ⟨b, more, hbytes, hfirst⟩ := firstChar_utf8EncodeChar c (bytes cs)
    have hcons : bytes (c :: cs) = b :: (more ++ bytes cs) := by
      rw [bytes, List.flatMap_cons, hbytes]
      rfl
    rw [hcons, List.length_cons, List.length_append] at h
    cases fuel with
    | zero => omega
    | succ fuel =>
      have hrest : decodeLoop fuel (bytes cs) = cs := ih (by omega)
      rw [hcons, decodeLoop, hfirst]
      dsimp only
      rw [Nat.add_sub_cancel, List.drop_left, hrest]

/-- The bytes of a text are read as the text. -/
theorem decode_bytes (cs : List Char) : decode (bytes cs) = cs :=
  decodeLoop_bytes (Nat.le_refl _)

end Scaffolding.Text
