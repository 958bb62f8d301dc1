import Scaffolding.Proofs.Yaml.Turn

/-!
# Tokens of a JSON text

An indented JSON text of texts, lists and objects is cut into one token for each bracket, comma and
text, and into the marks of the keys and the values of its objects. The spaces and the new lines of the
layout make no tokens.
-/

set_option autoImplicit false

namespace Scaffolding.Yaml

open Json (quoteChars newLine indentedChars indentedItems indentedMembers)
open Lexer (Blanks)

/-- A value of texts, lists and objects, nested at most so deep, that a YAML text can hold. No key of an
object is there twice, and none is too long. -/
inductive Textual : Nat → Json → Prop
  | string {n : Nat} {s : String} (h : Restored s.toList) : Textual n (.string s)
  | array {n : Nat} {items : List Json} (h : ∀ v ∈ items, Textual n v) :
      Textual (n + 1) (.array items)
  | object {n : Nat} {members : Members} (hnodup : members.keys.Nodup)
      (hcarried : ∀ m ∈ members, ∀ c ∈ m.1.toList, Carried c)
      (hshort : ∀ m ∈ members, (quoteChars m.1).length ≤ 1024)
      (h : ∀ m ∈ members, Textual n m.2) : Textual (n + 1) (.object members)

mutual

/-- The tokens of a JSON text. -/
def jsonTokens : Json → List Token
  | .null => [.scalar .plain "null"]
  | .bool b => [.scalar .plain (if b then "true" else "false")]
  | .number n => [.scalar .plain (String.ofList (n.chars Json.layout))]
  | .string s => [.scalar .quoted s]
  | .array [] => [.flowSequenceStart, .flowSequenceEnd]
  | .array (v :: rest) => .flowSequenceStart :: (jsonTokens v ++ itemTokens rest)
  | .object [] => [.flowMappingStart, .flowMappingEnd]
  | .object ((k, v) :: rest) =>
    .flowMappingStart :: .key :: .scalar .quoted k :: .value :: (jsonTokens v ++ memberTokens rest)

/-- The tokens of the items after the first, and of the end of the array. -/
def itemTokens : List Json → List Token
  | [] => [.flowSequenceEnd]
  | v :: rest => .flowEntry :: (jsonTokens v ++ itemTokens rest)

/-- The tokens of the members after the first, and of the end of the object. -/
def memberTokens : List (String × Json) → List Token
  | [] => [.flowMappingEnd]
  | (k, v) :: rest =>
    .flowEntry :: .key :: .scalar .quoted k :: .value :: (jsonTokens v ++ memberTokens rest)

end

namespace Lexer

/-- After any gap, the text of a value is cut into its tokens, in no more turns than it has
characters. -/
def Cuts (depth : Nat) (v : Json) : Prop :=
  ∀ {l : Lexer} {g rest : List Char} {tokens : List Token} {brackets : Nat} {allowed : Bool},
    Blanks g → (brackets ≠ 0 ∨ g = []) →
      Between l (g ++ (indentedChars depth v ++ rest)) tokens brackets allowed →
        ∃ turns l', turns ≤ (indentedChars depth v).length ∧ Passes turns l l' ∧
          Between l' rest ((jsonTokens v).reverse ++ tokens) brackets false

/-- A new line and its indentation are blanks. -/
theorem blanks_newLine (depth : Nat) : Blanks (newLine depth) :=
  .line (2 * depth)

/-- The items that are left are cut into their tokens, up to the end of the array. -/
theorem passes_items {depth : Nat} {items : List Json} (h : ∀ v ∈ items, Cuts (depth + 1) v)
    {l : Lexer} {rest : List Char} {tokens : List Token} {brackets : Nat}
    (hl : Between l (indentedItems depth items ++ rest) tokens (brackets + 1) false) :
    ∃ turns l', turns ≤ (indentedItems depth items).length ∧ Passes turns l l' ∧
      Between l' rest ((itemTokens items).reverse ++ tokens) brackets false := by
  -- each item takes a turn for its comma, its own turns, and leaves the lexer between two tokens
  induction items generalizing l tokens with
  | nil =>
    rw [indentedItems, List.append_assoc] at hl
    obtain ⟨l₁, hpass, h₁⟩ := hl.passes_close .square (blanks_newLine depth)
    exact ⟨1, l₁, by simp [indentedItems], hpass, h₁⟩
  | cons v items ih =>
    obtain ⟨hv, hitems⟩ := List.forall_mem_cons.mp h
    rw [indentedItems, List.cons_append, List.append_assoc, List.append_assoc] at hl
    obtain ⟨l₁, hpass₁, h₁⟩ := hl.passes_comma
    obtain ⟨m, l₂, hm, hpass₂, h₂⟩ := hv (blanks_newLine (depth + 1)) (.inl (Nat.succ_ne_zero _)) h₁
    obtain ⟨n, l₃, hn, hpass₃, h₃⟩ := ih hitems h₂
    refine ⟨1 + m + n, l₃, ?_, (hpass₁.trans hpass₂).trans hpass₃, ?_⟩
    · simp only [indentedItems, List.length_cons, List.length_append]
      omega
    · simpa [itemTokens] using h₃

/-- A member of an object from its key to its value. -/
theorem passes_member {depth : Nat} {key : String} {v : Json}
    (hkey : ∀ c ∈ key.toList, Carried c) (hshort : (quoteChars key).length ≤ 1024)
    (hv : Cuts (depth + 1) v) {l : Lexer} {rest : List Char} {tokens : List Token} {brackets : Nat}
    (hl : Between l (newLine (depth + 1) ++ (quoteChars key ++ ':' :: ' ' ::
      (indentedChars (depth + 1) v ++ rest))) tokens (brackets + 1) true) :
    ∃ turns l', turns ≤ 2 + (indentedChars (depth + 1) v).length ∧ Passes turns l l' ∧
      Between l' rest ((jsonTokens v).reverse ++ .value :: .scalar .quoted key :: .key :: tokens)
        (brackets + 1) false := by
  obtain ⟨l₁, hpass₁, h₁⟩ := hl.passes_key hkey hshort (blanks_newLine (depth + 1))
  obtain ⟨n, l₂, hn, hpass₂, h₂⟩ := hv (.spaces 1) (.inl (Nat.succ_ne_zero _)) h₁
  exact ⟨2 + n, l₂, by omega, hpass₁.trans hpass₂, h₂⟩

/-- The members that are left are cut into their tokens, up to the end of the object. -/
theorem passes_members {depth : Nat} {members : Members}
    (hcarried : ∀ m ∈ members, ∀ c ∈ m.1.toList, Carried c)
    (hshort : ∀ m ∈ members, (quoteChars m.1).length ≤ 1024)
    (h : ∀ m ∈ members, Cuts (depth + 1) m.2)
    {l : Lexer} {rest : List Char} {tokens : List Token} {brackets : Nat}
    (hl : Between l (indentedMembers depth members ++ rest) tokens (brackets + 1) false) :
    ∃ turns l', turns ≤ (indentedMembers depth members).length ∧ Passes turns l l' ∧
      Between l' rest ((memberTokens members).reverse ++ tokens) brackets false := by
  induction members generalizing l tokens with
  | nil =>
    rw [indentedMembers, List.append_assoc] at hl
    obtain ⟨l₁, hpass, h₁⟩ := hl.passes_close .curly (blanks_newLine depth)
    exact ⟨1, l₁, by simp [indentedMembers], hpass, h₁⟩
  | cons m members ih =>
    obtain ⟨key, v⟩ := m
    obtain ⟨hcarriedKey, hcarried⟩ := List.forall_mem_cons.mp hcarried
    obtain ⟨hshortKey, hshort⟩ := List.forall_mem_cons.mp hshort
    obtain ⟨hv, hmembers⟩ := List.forall_mem_cons.mp h
    rw [indentedMembers, List.cons_append] at hl
    obtain ⟨l₁, hpass₁, h₁⟩ := hl.passes_comma
    simp only [List.append_assoc, List.cons_append] at h₁
    obtain ⟨m, l₂, hm, hpass₂, h₂⟩ := passes_member hcarriedKey hshortKey hv h₁
    obtain ⟨n, l₃, hn, hpass₃, h₃⟩ := ih hcarried hshort hmembers h₂
    refine ⟨1 + m + n, l₃, ?_, (hpass₁.trans hpass₂).trans hpass₃, ?_⟩
    · dsimp only at hm
      simp only [indentedMembers, List.length_cons, List.length_append]
      omega
    · simpa [memberTokens] using h₃

/-- An array is cut into its tokens if its items are. -/
theorem cuts_array {depth : Nat} {items : List Json} (h : ∀ v ∈ items, Cuts (depth + 1) v) :
    Cuts depth (.array items) := by
  intro l g rest tokens brackets allowed hg hflow hl
  cases items with
  | nil =>
    obtain ⟨l₁, hpass, h₁⟩ := hl.passes_empty .square hg hflow
    exact ⟨2, l₁, Nat.le_refl 2, hpass, h₁⟩
  | cons v items =>
    obtain ⟨hv, hitems⟩ := List.forall_mem_cons.mp h
    rw [indentedChars, List.cons_append, List.append_assoc, List.append_assoc] at hl
    obtain ⟨l₁, hpass₁, h₁⟩ := hl.passes_open .square hg hflow
    obtain ⟨m, l₂, hm, hpass₂, h₂⟩ := hv (blanks_newLine (depth + 1)) (.inl (Nat.succ_ne_zero _)) h₁
    obtain ⟨n, l₃, hn, hpass₃, h₃⟩ := passes_items hitems h₂
    refine ⟨1 + m + n, l₃, ?_, (hpass₁.trans hpass₂).trans hpass₃, ?_⟩
    · simp only [indentedChars, List.length_cons, List.length_append]
      omega
    · simpa [jsonTokens, Bracket.start] using h₃

/-- An object is cut into its tokens if its keys and the values of its members are. -/
theorem cuts_object {depth : Nat} {members : Members}
    (hcarried : ∀ m ∈ members, ∀ c ∈ m.1.toList, Carried c)
    (hshort : ∀ m ∈ members, (quoteChars m.1).length ≤ 1024)
    (h : ∀ m ∈ members, Cuts (depth + 1) m.2) : Cuts depth (.object members) := by
  intro l g rest tokens brackets allowed hg hflow hl
  cases members with
  | nil =>
    obtain ⟨l₁, hpass, h₁⟩ := hl.passes_empty .curly hg hflow
    exact ⟨2, l₁, Nat.le_refl 2, hpass, h₁⟩
  | cons m members =>
    obtain ⟨key, v⟩ := m
    obtain ⟨hcarriedKey, hcarried⟩ := List.forall_mem_cons.mp hcarried
    obtain ⟨hshortKey, hshort⟩ := List.forall_mem_cons.mp hshort
    obtain ⟨hv, hmembers⟩ := List.forall_mem_cons.mp h
    rw [indentedChars, List.cons_append] at hl
    obtain ⟨l₁, hpass₁, h₁⟩ := hl.passes_open .curly hg hflow
    simp only [List.append_assoc, List.cons_append] at h₁
    obtain ⟨m, l₂, hm, hpass₂, h₂⟩ := passes_member hcarriedKey hshortKey hv h₁
    obtain ⟨n, l₃, hn, hpass₃, h₃⟩ := passes_members hcarried hshort hmembers h₂
    refine ⟨1 + m + n, l₃, ?_, (hpass₁.trans hpass₂).trans hpass₃, ?_⟩
    · dsimp only at hm
      simp only [indentedChars, List.length_cons, List.length_append]
      omega
    · simpa [jsonTokens, Bracket.start] using h₃

/-- Texts, lists and objects are cut into their tokens. -/
theorem cuts_textual {n : Nat} {v : Json} (h : Textual n v) (depth : Nat) : Cuts depth v := by
  induction h generalizing depth with
  | @string n s htext =>
    intro l g rest tokens brackets allowed hg hflow hl
    obtain ⟨l₁, hpass, h₁, -⟩ := hl.passes (by decide) hg hflow fun l₁ h₁ => h₁.scalar htext
    have hlength : 1 ≤ (quoteChars s).length := by simp [quoteChars]
    exact ⟨1, l₁, hlength, hpass, h₁⟩
  | array h ih => exact cuts_array fun v hv => ih v hv (depth + 1)
  | object hnodup hcarried hshort h ih =>
    exact cuts_object hcarried hshort fun m hm => ih m hm (depth + 1)

end Lexer

end Scaffolding.Yaml
