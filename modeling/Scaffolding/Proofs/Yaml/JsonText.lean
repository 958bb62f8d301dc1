import Scaffolding.Proofs.Yaml.JsonToken
import Scaffolding.Proofs.Yaml.Keys

/-!
# JSON texts as YAML texts

An indented JSON text of texts, lists and objects is a YAML text of the same value: its tokens form the
node of the value, the node has no tags, anchors or aliases, and a text in quotes means itself. The
text must consist of characters that a YAML text can hold, no key may be too long for one, and the
value must not be nested deeper than a document may be.
-/

set_option autoImplicit false

namespace Scaffolding.Yaml

open Json (escapeChar quoteChars newLine indentedChars indentedItems indentedMembers)
open Lexer (Blanks)

/-! ## Nodes -/

mutual

/-- The node of a JSON text. -/
def jsonNode : Json → Node
  | .null => .scalar .none .plain "null"
  | .bool b => .scalar .none .plain (if b then "true" else "false")
  | .number n => .scalar .none .plain (String.ofList (n.chars Json.layout))
  | .string s => .scalar .none .quoted s
  | .array items => .sequence .none (itemNodes items)
  | .object members => .mapping .none (memberNodes members)

def itemNodes : List Json → List Node
  | [] => []
  | v :: rest => jsonNode v :: itemNodes rest

def memberNodes : List (String × Json) → List (Node × Node)
  | [] => []
  | (k, v) :: rest => (.scalar .none .quoted k, jsonNode v) :: memberNodes rest

end

/-- With a turn for each token at least, the tokens of a value are read as its node. -/
def Forms (v : Json) : Prop :=
  ∀ {fuel : Nat} {block dashes : Bool} {rest : List Token} {anchors : List (String × Nat)}
    {handles : List (String × List UInt8)}, (jsonTokens v).length ≤ fuel →
      readNode fuel block dashes ⟨jsonTokens v ++ rest, anchors, handles⟩ =
        .ok (jsonNode v, ⟨rest, anchors, handles⟩)

/-- A scalar token is read as a scalar. -/
theorem readNode_scalar (fuel : Nat) (block dashes : Bool) (style : Style) (text : String)
    (rest : List Token) (anchors : List (String × Nat)) (handles : List (String × List UInt8)) :
    readNode (fuel + 1) block dashes ⟨.scalar style text :: rest, anchors, handles⟩ =
      .ok (.scalar .none style text, ⟨rest, anchors, handles⟩) := by
  rfl

/-- A bracket for a sequence starts its items. -/
theorem readNode_flowSequence (fuel : Nat) (block dashes : Bool)
    (rest : List Token) (anchors : List (String × Nat)) (handles : List (String × List UInt8)) :
    readNode (fuel + 1) block dashes ⟨.flowSequenceStart :: rest, anchors, handles⟩ =
      readFlowSequence fuel .none [] true ⟨rest, anchors, handles⟩ := by
  rfl

/-- A brace starts the entries of a mapping. -/
theorem readNode_flowMapping (fuel : Nat) (block dashes : Bool)
    (rest : List Token) (anchors : List (String × Nat)) (handles : List (String × List UInt8)) :
    readNode (fuel + 1) block dashes ⟨.flowMappingStart :: rest, anchors, handles⟩ =
      readFlowMapping fuel .none [] true ⟨rest, anchors, handles⟩ := by
  rfl

/-- The tokens with which the text of a value starts. -/
def startTokens (t : Token) : Prop :=
  (∃ style text, t = .scalar style text) ∨ t = .flowSequenceStart ∨ t = .flowMappingStart

/-- The tokens of a value start with one that starts a node. -/
theorem head_jsonTokens (v : Json) : ∃ t rest, jsonTokens v = t :: rest ∧ startTokens t := by
  match v with
  | .null | .bool b | .number n | .string s => exact ⟨_, _, rfl, .inl ⟨_, _, rfl⟩⟩
  | .array [] | .array (_ :: _) => exact ⟨_, _, rfl, .inr (.inl rfl)⟩
  | .object [] => exact ⟨_, _, rfl, .inr (.inr rfl)⟩
  | .object ((_, _) :: _) => exact ⟨_, _, rfl, .inr (.inr rfl)⟩

/-- A comma stands before everything but what comes first. -/
def lead (first : Bool) (tokens : List Token) : List Token :=
  if first then tokens else .flowEntry :: tokens

section

variable {anchors : List (String × Nat)} {handles : List (String × List UInt8)}

/-- An item of a sequence is read after the items before it. -/
theorem readFlowSequence_item {v : Json} (hv : Forms v) {fuel : Nat}
    (hfuel : (jsonTokens v).length ≤ fuel) (p : Properties) (done : List Node) (first : Bool)
    (rest : List Token) :
    readFlowSequence (fuel + 1) p done first
        ⟨lead first (jsonTokens v ++ rest), anchors, handles⟩ =
      readFlowSequence fuel p (jsonNode v :: done) false ⟨rest, anchors, handles⟩ := by
  obtain ⟨t, more, ht, hstart⟩ := head_jsonTokens v
  have hread := @hv fuel false false rest anchors handles hfuel
  rw [ht, List.cons_append] at hread
  rw [ht, List.cons_append]
  have hne : (t == .flowSequenceEnd) = false ∧ (t == .key) = false := by
    rcases hstart with ⟨style, text, rfl⟩ | rfl | rfl <;> exact ⟨rfl, rfl⟩
  have hcomma : (Token.flowEntry == .flowSequenceEnd) = false := rfl
  cases first <;>
    simp [readFlowSequence, lead, Reading.sees, Reading.peek?, Reading.drop, hne, hcomma, hread, bind,
      Except.bind]

/-- A member of an object is read after the members before it. -/
theorem readFlowMapping_member {key : String} {v : Json} (hv : Forms v) {fuel : Nat}
    (hfuel : (jsonTokens v).length ≤ fuel) (p : Properties) (done : List (Node × Node))
    (first : Bool) (rest : List Token) :
    readFlowMapping (fuel + 1) p done first
        ⟨lead first (.key :: .scalar .quoted key :: .value :: (jsonTokens v ++ rest)), anchors,
          handles⟩ =
      readFlowMapping fuel p ((.scalar .none .quoted key, jsonNode v) :: done) false
        ⟨rest, anchors, handles⟩ := by
  obtain ⟨t, more, ht, hstart⟩ := head_jsonTokens v
  have hread := @hv fuel false false rest anchors handles hfuel
  have hkey : readNode fuel false false
      ⟨.scalar .quoted key :: .value :: (jsonTokens v ++ rest), anchors, handles⟩ =
        .ok (.scalar .none .quoted key, ⟨.value :: (jsonTokens v ++ rest), anchors, handles⟩) := by
    cases fuel with
    | zero => simp [ht] at hfuel
    | succ fuel => rfl
  rw [ht, List.cons_append] at hread hkey
  rw [ht, List.cons_append]
  have hne : t ≠ .flowEntry ∧ t ≠ .flowMappingEnd := by
    rcases hstart with ⟨style, text, rfl⟩ | rfl | rfl <;> exact ⟨nofun, nofun⟩
  have hcomma : (Token.flowEntry == .flowMappingEnd) = false := rfl
  have hmark : (Token.key == .flowMappingEnd) = false := rfl
  cases first <;>
    simp [readFlowMapping, lead, Reading.sees, Reading.seesAny, Reading.peek?, Reading.drop, hne,
      hcomma, hmark, hread, hkey, bind, Except.bind]

/-- A value has a token at least. -/
theorem length_jsonTokens (v : Json) : 0 < (jsonTokens v).length := by
  obtain ⟨t, rest, ht, -⟩ := head_jsonTokens v
  simp [ht]

/-- Items have a token at least, the one that ends them. -/
theorem length_itemTokens (items : List Json) : 0 < (itemTokens items).length := by
  cases items <;> simp [itemTokens]

/-- The tokens of the items after the first, and of the end, are read as the nodes of the items. -/
theorem readFlowSequence_items {items : List Json} (h : ∀ v ∈ items, Forms v) {fuel : Nat}
    (hfuel : (itemTokens items).length ≤ fuel) (p : Properties) (done : List Node)
    (rest : List Token) :
    readFlowSequence fuel p done false ⟨itemTokens items ++ rest, anchors, handles⟩ =
      .ok (.sequence p (done.reverse ++ itemNodes items), ⟨rest, anchors, handles⟩) := by
  induction items generalizing fuel done with
  | nil =>
    cases fuel with
    | zero => simp [itemTokens] at hfuel
    | succ fuel =>
      simp [readFlowSequence, itemTokens, itemNodes, Reading.sees, Reading.peek?, Reading.drop]
  | cons v items ih =>
    obtain ⟨hv, hitems⟩ := List.forall_mem_cons.mp h
    cases fuel with
    | zero => simp [itemTokens] at hfuel
    | succ fuel =>
      simp only [itemTokens, List.length_cons, List.length_append] at hfuel
      have hstep := @readFlowSequence_item anchors handles v hv fuel (by omega) p done false
        (itemTokens items ++ rest)
      have htokens : itemTokens (v :: items) ++ rest =
          lead false (jsonTokens v ++ (itemTokens items ++ rest)) := by
        simp [itemTokens, lead]
      rw [htokens, hstep, ih hitems (by omega)]
      simp [itemNodes]

/-- The members that are left are read after the members before them. -/
theorem readFlowMapping_members {members : Members} (h : ∀ m ∈ members, Forms m.2) {fuel : Nat}
    (hfuel : (memberTokens members).length ≤ fuel) (p : Properties) (done : List (Node × Node))
    (rest : List Token) :
    readFlowMapping fuel p done false ⟨memberTokens members ++ rest, anchors, handles⟩ =
      .ok (.mapping p (done.reverse ++ memberNodes members), ⟨rest, anchors, handles⟩) := by
  induction members generalizing fuel done with
  | nil =>
    cases fuel with
    | zero => simp [memberTokens] at hfuel
    | succ fuel =>
      simp [readFlowMapping, memberTokens, memberNodes, Reading.sees, Reading.peek?, Reading.drop]
  | cons m members ih =>
    obtain ⟨key, v⟩ := m
    obtain ⟨hv, hmembers⟩ := List.forall_mem_cons.mp h
    cases fuel with
    | zero => simp [memberTokens] at hfuel
    | succ fuel =>
      simp only [memberTokens, List.length_cons, List.length_append] at hfuel
      have hstep := @readFlowMapping_member anchors handles key v hv fuel (by omega) p done false
        (memberTokens members ++ rest)
      have htokens : memberTokens ((key, v) :: members) ++ rest =
          lead false (.key :: .scalar .quoted key :: .value ::
            (jsonTokens v ++ (memberTokens members ++ rest))) := by
        simp [memberTokens, lead]
      rw [htokens, hstep, ih hmembers (by omega)]
      simp [memberNodes]

end

/-- An array forms its node if its items do. -/
theorem forms_array {items : List Json} (h : ∀ v ∈ items, Forms v) : Forms (.array items) := by
  intro fuel block dashes rest anchors handles hfuel
  cases items with
  | nil =>
    obtain ⟨fuel, rfl⟩ : ∃ k, fuel = k + 2 := ⟨fuel - 2, by simp [jsonTokens] at hfuel; omega⟩
    rw [jsonTokens, List.cons_append, readNode_flowSequence]
    simp [readFlowSequence, jsonNode, itemNodes, Reading.sees, Reading.peek?, Reading.drop]
  | cons v items =>
    obtain ⟨hv, hitems⟩ := List.forall_mem_cons.mp h
    simp only [jsonTokens, List.length_cons, List.length_append] at hfuel
    have hpos := length_jsonTokens v
    have hposItems := length_itemTokens items
    obtain ⟨fuel, rfl⟩ : ∃ k, fuel = k + 2 := ⟨fuel - 2, by omega⟩
    have hstep := @readFlowSequence_item anchors handles v hv fuel (by omega) .none [] true
      (itemTokens items ++ rest)
    rw [jsonTokens, List.cons_append, readNode_flowSequence, List.append_assoc]
    refine hstep.trans ?_
    rw [readFlowSequence_items hitems (by omega)]
    simp [jsonNode, itemNodes]

/-- An object forms its node if the values of its members do. -/
theorem forms_object {members : Members} (h : ∀ m ∈ members, Forms m.2) :
    Forms (.object members) := by
  intro fuel block dashes rest anchors handles hfuel
  cases members with
  | nil =>
    obtain ⟨fuel, rfl⟩ : ∃ k, fuel = k + 2 := ⟨fuel - 2, by simp [jsonTokens] at hfuel; omega⟩
    rw [jsonTokens, List.cons_append, readNode_flowMapping]
    simp [readFlowMapping, jsonNode, memberNodes, Reading.sees, Reading.peek?, Reading.drop]
  | cons m members =>
    obtain ⟨key, v⟩ := m
    obtain ⟨hv, hmembers⟩ := List.forall_mem_cons.mp h
    simp only [jsonTokens, List.length_cons, List.length_append] at hfuel
    obtain ⟨fuel, rfl⟩ : ∃ k, fuel = k + 2 := ⟨fuel - 2, by omega⟩
    have hstep := @readFlowMapping_member anchors handles key v hv fuel (by omega) .none [] true
      (memberTokens members ++ rest)
    simp only [jsonTokens, List.cons_append, readNode_flowMapping, List.append_assoc]
    refine hstep.trans ?_
    rw [readFlowMapping_members hmembers (by omega)]
    simp [jsonNode, memberNodes]

/-- The tokens of texts, lists and objects form their nodes. -/
theorem forms_textual {n : Nat} {v : Json} (h : Textual n v) : Forms v := by
  induction h with
  | string htext =>
    intro fuel block dashes rest anchors handles hfuel
    obtain ⟨fuel, rfl⟩ := Nat.exists_eq_add_one_of_ne_zero (Nat.ne_zero_of_lt hfuel)
    exact readNode_scalar fuel block dashes .quoted _ rest anchors handles
  | array h ih => exact forms_array ih
  | object hnodup hcarried hshort h ih => exact forms_object ih

/-! ## Values -/

mutual

/-- A JSON value as a YAML value. -/
def ofJson : Json → Value
  | .null => .null
  | .bool b => .bool b
  | .number n => .number (.finite n)
  | .string s => .string s
  | .array items => .sequence (ofItems items)
  | .object members => .mapping (ofMembers members)

def ofItems : List Json → List Value
  | [] => []
  | v :: rest => ofJson v :: ofItems rest

def ofMembers : List (String × Json) → List (Value × Value)
  | [] => []
  | (k, v) :: rest => (.string k, ofJson v) :: ofMembers rest

end

/-- Items are read one by one. -/
theorem ofItems_eq_map (items : List Json) : ofItems items = items.map ofJson := by
  induction items with
  | nil => rfl
  | cons v items ih => rw [ofItems, ih, List.map_cons]

/-- The node of a value means the value, wherever there is room for its nesting. -/
def Means (d : Document) (depth : Nat) (v : Json) : Prop :=
  ∀ followed, d.value depth (jsonNode v) followed = .ok (ofJson v, followed)

/-- The nodes of items have the values of the items. -/
theorem value_items {d : Document} {depth : Nat} {items : List Json}
    (h : ∀ v ∈ items, Means d depth v) (followed : Nat) :
    (itemNodes items).mapM (d.value depth) followed = .ok (ofItems items, followed) := by
  induction items with
  | nil => rfl
  | cons v items ih =>
    obtain ⟨hv, hitems⟩ := List.forall_mem_cons.mp h
    rw [itemNodes, List.mapM_cons, bind_run_eq_ok]
    refine ⟨_, _, hv followed, ?_⟩
    rw [bind_run_eq_ok]
    exact ⟨_, _, ih hitems, rfl⟩

/-- Where a step adds one member with a new key, the steps over members add them all. -/
theorem foldlM_members {f : List (Value × Value) → Node × Node → Unfolding (List (Value × Value))}
    {members : Members} (hnodup : members.keys.Nodup)
    (hstep : ∀ m ∈ members, ∀ done followed, (∀ e ∈ done, e.1.same (.string m.1) = false) →
      f done (.scalar .none .quoted m.1, jsonNode m.2) followed =
        .ok ((.string m.1, ofJson m.2) :: done, followed))
    {done : List (Value × Value)}
    (hnew : ∀ m ∈ members, ∀ e ∈ done, e.1.same (.string m.1) = false) (followed : Nat) :
    (memberNodes members).foldlM f done followed =
      .ok ((ofMembers members).reverse ++ done, followed) := by
  -- the members are kept in reverse, and each new key differs from those that follow
  induction members generalizing done with
  | nil => rfl
  | cons m members ih =>
    obtain ⟨key, v⟩ := m
    obtain ⟨hfirst, hsteps⟩ := List.forall_mem_cons.mp hstep
    obtain ⟨hnewKey, hnew⟩ := List.forall_mem_cons.mp hnew
    obtain ⟨hkey, hnodup⟩ := List.nodup_cons.mp hnodup
    have hrest : ∀ m ∈ members, ∀ e ∈ (Value.string key, ofJson v) :: done,
        e.1.same (.string m.1) = false := by
      intro m hm e he
      rcases List.mem_cons.mp he with rfl | he
      · have hne : key ≠ m.1 := by
          rintro rfl
          exact hkey (List.mem_map.mpr ⟨m, hm, rfl⟩)
        simpa [Value.same] using hne
      · exact hnew m hm e he
    rw [memberNodes, List.foldlM_cons, bind_run_eq_ok]
    refine ⟨_, _, hfirst done followed hnewKey, ?_⟩
    rw [ih hnodup hsteps hrest]
    simp [ofMembers]

/-- A quoted scalar has its text as value. -/
theorem value_quoted (d : Document) (depth : Nat) (text : String) (followed : Nat) :
    d.value depth (.scalar .none .quoted text) followed = .ok (.string text, followed) := by
  unfold Document.value
  rfl

/-- The nodes of texts, lists and objects mean them. -/
theorem means_textual {n : Nat} {v : Json} (h : Textual n v) (d : Document) {depth : Nat}
    (hdepth : n ≤ depth) : Means d depth v := by
  induction h generalizing depth with
  | @string n s htext =>
    exact value_quoted d depth s
  | @array n items h ih =>
    intro followed
    obtain ⟨depth, rfl⟩ : ∃ k, depth = k + 1 := ⟨depth - 1, by omega⟩
    have hitems := value_items (fun v hv => ih v hv (Nat.le_of_succ_le_succ hdepth)) followed
    unfold Document.value
    rw [bind_run_eq_ok]
    refine ⟨_, _, rfl, ?_⟩
    dsimp only [jsonNode]
    rw [bind_run_eq_ok]
    exact ⟨_, _, hitems, rfl⟩
  | @object n members hnodup hcarried hshort h ih =>
    intro followed
    obtain ⟨depth, rfl⟩ : ∃ k, depth = k + 1 := ⟨depth - 1, by omega⟩
    unfold Document.value
    rw [bind_run_eq_ok]
    refine ⟨_, _, rfl, ?_⟩
    dsimp only [jsonNode]
    rw [bind_run_eq_ok]
    refine ⟨_, _, foldlM_members hnodup ?_ (by simp) followed, ?_⟩
    · intro m hm done followed hnew
      have hknown : ¬ (done.any fun e => e.1.same (.string m.1)) = true := by
        simpa using hnew
      rw [bind_run_eq_ok]
      refine ⟨_, _, value_quoted d depth m.1 followed, ?_⟩
      rw [if_neg hknown, bind_run_eq_ok]
      exact ⟨_, _, ih m hm (Nat.le_of_succ_le_succ hdepth) followed, rfl⟩
    · simp [withTag, ofJson]
      rfl

/-! ## Whole texts -/

/-- Blanks may stand in a document. -/
theorem all_blanks {g : List Char} (hg : Blanks g) : g.all isAllowed = true := by
  have hspaces (n : Nat) : (List.replicate n ' ').all isAllowed = true := by
    rw [List.all_eq_true]
    intro c hc
    rw [List.eq_of_mem_replicate hc]
    decide
  have hbreak : isAllowed '\n' = true := by decide
  cases hg with
  | spaces n => exact hspaces n
  | line n => rw [List.all_cons, hbreak, hspaces, Bool.and_true]

/-- A line that is started may stand in a document. -/
theorem all_newLine (depth : Nat) : (newLine depth).all isAllowed = true :=
  all_blanks (Lexer.blanks_newLine depth)

/-- Whatever stands between quotes is written with characters that a YAML text may hold. -/
theorem all_escapeChar {c : Char} (h : Carried c ∨ isSeparator c = true) :
    (escapeChar c).all isAllowed = true := by
  have hallowed : ¬ c.toNat < 32 → isAllowed c = true := by
    intro hlow
    rcases h with hcarried | hsep
    · exact (hcarried.resolve_left hlow).1
    · exact (isSeparator_facts hsep).2.1
  have hhex : ∀ n, isAllowed (Json.hexDigit n) = true := by
    have hdigits : ∀ n < 16, isAllowed (Nat.digitChar n) = true := by decide
    exact fun n => hdigits (n % 16) (Nat.mod_lt n (by decide))
  have hnumeric : ∀ m n,
      ['\\', 'u', '0', '0', Json.hexDigit m, Json.hexDigit n].all isAllowed = true := by
    intro m n
    simp only [List.all_cons, hhex]
    decide
  unfold escapeChar
  repeat' split
  any_goals decide
  · exact hnumeric _ _
  · next hlow => simpa using hallowed hlow

/-- A quoted text may stand in a document if its signs are carried. -/
theorem all_quoteChars {s : String} (h : ∀ c ∈ s.toList, Carried c ∨ isSeparator c = true) :
    (quoteChars s).all isAllowed = true := by
  have hquote : isAllowed '"' = true := by decide
  have hescaped : (s.toList.flatMap escapeChar).all isAllowed = true := by
    rw [List.all_flatMap, List.all_eq_true]
    exact fun c hc => all_escapeChar (h c hc)
  simp [quoteChars, hquote, hescaped]

/-- The items of an array may stand in a document if each of them may. -/
theorem all_indentedItems {depth : Nat} {items : List Json}
    (h : ∀ v ∈ items, (indentedChars (depth + 1) v).all isAllowed = true) :
    (indentedItems depth items).all isAllowed = true := by
  have hcomma : isAllowed ',' = true := by decide
  have hend : isAllowed ']' = true := by decide
  induction items with
  | nil =>
    simp only [indentedItems, List.all_append, all_newLine, List.all_cons, hend, List.all_nil,
      Bool.and_true]
  | cons v items ih =>
    obtain ⟨hv, hitems⟩ := List.forall_mem_cons.mp h
    simp only [indentedItems, List.all_cons, List.all_append, hcomma, all_newLine, hv, ih hitems,
      Bool.and_true]

/-- The members of an object may stand in a document if each of them may. -/
theorem all_indentedMembers {depth : Nat} {members : Members}
    (hkeys : ∀ m ∈ members, (quoteChars m.1).all isAllowed = true)
    (h : ∀ m ∈ members, (indentedChars (depth + 1) m.2).all isAllowed = true) :
    (indentedMembers depth members).all isAllowed = true := by
  have hcomma : isAllowed ',' = true := by decide
  have hcolon : isAllowed ':' = true := by decide
  have hspace : isAllowed ' ' = true := by decide
  have hend : isAllowed '\x7d' = true := by decide
  induction members with
  | nil =>
    simp only [indentedMembers, List.all_append, all_newLine, List.all_cons, hend, List.all_nil,
      Bool.and_true]
  | cons m members ih =>
    obtain ⟨hkey, hkeys⟩ := List.forall_mem_cons.mp hkeys
    obtain ⟨hv, hmembers⟩ := List.forall_mem_cons.mp h
    simp only [indentedMembers, List.all_cons, List.all_append, hcomma, hcolon, hspace, all_newLine,
      hkey, hv, ih hkeys hmembers, Bool.and_true]

/-- A value of texts that are carried may stand in a document. -/
theorem all_indentedChars {n : Nat} {v : Json} (h : Textual n v) (depth : Nat) :
    (indentedChars depth v).all isAllowed = true := by
  induction h generalizing depth with
  | @string n s htext => exact all_quoteChars htext.held
  | @array n items h ih =>
    cases items with
    | nil => rfl
    | cons v items =>
      obtain ⟨hv, hitems⟩ := List.forall_mem_cons.mp ih
      have hstart : isAllowed '[' = true := by decide
      simp only [indentedChars, List.all_cons, List.all_append, hstart, all_newLine, hv (depth + 1),
        all_indentedItems fun v h => hitems v h (depth + 1), Bool.and_true]
  | @object n members hnodup hcarried hshort h ih =>
    cases members with
    | nil => rfl
    | cons m members =>
      have hwritten : ∀ k ∈ m :: members, (quoteChars k.1).all isAllowed = true :=
        fun k hk => all_quoteChars fun c hc => .inl (hcarried k hk c hc)
      obtain ⟨hkey, hkeys⟩ := List.forall_mem_cons.mp hwritten
      obtain ⟨hv, hmembers⟩ := List.forall_mem_cons.mp ih
      have hstart : isAllowed '\x7b' = true := by decide
      have hcolon : isAllowed ':' = true := by decide
      have hspace : isAllowed ' ' = true := by decide
      simp only [indentedChars, List.all_cons, List.all_append, hstart, hcolon, hspace, all_newLine,
        hkey, hv (depth + 1), all_indentedMembers hkeys fun m h => hmembers m h (depth + 1),
        Bool.and_true]

/-- A printed value with blanks after it is cut into its tokens. -/
theorem tokens_textual {n : Nat} {v : Json} (h : Textual n v) {g : List Char} (hg : Blanks g)
    {text : String} (htext : text.toList = indentedChars 0 v ++ g) :
    tokens text = .ok (jsonTokens v) := by
  have hallowed : text.toList.all isAllowed = true := by
    rw [htext, List.all_append, all_indentedChars h, all_blanks hg, Bool.and_true]
  have hstart := Lexer.between_start text.toList
  rw [htext] at hstart
  obtain ⟨turns, l, hturns, hpass, hl⟩ :=
    Lexer.cuts_textual h 0 (.spaces 0) (.inr rfl) hstart
  rw [← htext] at hpass
  obtain ⟨spare, hspare⟩ : ∃ spare, text.toList.length + 1 = turns + (spare + 1) := by
    rw [htext, List.length_append]
    exact ⟨(indentedChars 0 v).length + g.length - turns, by omega⟩
  obtain ⟨last, hlast, htokens⟩ := hl.run_end hg spare
  rw [tokens]
  simp only [hallowed, Bool.not_true, Bool.false_eq_true, if_false, hspare, hpass (spare + 1), hlast,
    bind, Except.bind, pure, Except.pure, htokens, List.append_nil, List.reverse_reverse]

/-- A JSON text of texts, lists and objects is a YAML text of the same value. -/
theorem parse_textual {n : Nat} {v : Json} (h : Textual n v) (hdepth : n ≤ depthLimit)
    {g : List Char} (hg : Blanks g) {text : String} (htext : text.toList = indentedChars 0 v ++ g) :
    parse text = .ok (ofJson v) := by
  obtain ⟨t, rest, ht, hstart⟩ := head_jsonTokens v
  -- the reader of a document has three turns for each token, where one is enough
  have hread : readContent [] (jsonTokens v) = .ok (jsonNode v, []) := by
    have hforms := @forms_textual n v h (3 * (jsonTokens v).length + 3) true false [] []
      ([] ++ standardHandles) (by omega)
    rw [List.append_nil] at hforms
    rw [readContent, hforms]
    rfl
  have hfirst : readFirst (jsonTokens v) = .ok (jsonNode v, []) := by
    rw [← hread, ht]
    rcases hstart with ⟨style, text, rfl⟩ | rfl | rfl <;> rfl
  have hdocument : Document.parse text = .ok ⟨some (jsonNode v)⟩ := by
    rw [ht] at hfirst
    rw [Document.parse, tokens_textual h hg htext, ht]
    simp only [bind, Except.bind, readDocument, hfirst, List.all_nil, if_true, pure, Except.pure]
  rw [parse, hdocument]
  change StateT.run' (Document.value _ depthLimit (jsonNode v)) 0 = _
  rw [StateT.run', means_textual h ⟨some (jsonNode v)⟩ hdepth 0]
  rfl

end Scaffolding.Yaml
