import Scaffolding.Proofs.Yaml.Numeral
import Scaffolding.Yaml.Value.Reader

/-!
# Keys of mappings

Reading a mapping ends at a key that stands there already, so the keys of a mapping that was read are
distinct as values. They need not be distinct as texts: one key may be a number or a boolean, and another
the text that is written for it. Apart from that, distinct keys have distinct texts, since the text of a
number tells it apart from every other number and from the booleans.
-/

set_option autoImplicit false

namespace Scaffolding.Yaml

/-! ## Steps of reading -/

/-- A step after another one has a result exactly if both have. -/
theorem bind_run_eq_ok {α β : Type} {x : Unfolding α} {f : α → Unfolding β} {n : Nat}
    {b : β × Nat} : (x >>= f) n = .ok b ↔ ∃ a m, x n = .ok (a, m) ∧ f a m = .ok b := by
  change (x n >>= fun p => f p.1 p.2) = .ok b ↔ _
  cases x n with
  | error e => simp [bind, Except.bind]
  | ok p =>
    obtain ⟨a, m⟩ := p
    simp [bind, Except.bind]

/-- A step that does nothing has its value as the result. -/
theorem pure_run_eq_ok {α : Type} {a : α} {n : Nat} {b : α × Nat} :
    (pure a : Unfolding α) n = .ok b ↔ (a, n) = b := by
  change Except.ok (a, n) = .ok b ↔ _
  simp

/-- A step that follows no alias has the result of its computation. -/
theorem lift_run_eq_ok {α : Type} {x : Except Error α} {n : Nat} {b : α × Nat} :
    (liftM x : Unfolding α) n = .ok b ↔ x = .ok b.1 ∧ n = b.2 := by
  change (x >>= fun a => Except.ok (a, n)) = .ok b ↔ _
  cases x with
  | error e => simp [bind, Except.bind]
  | ok a => simp [bind, Except.bind, Prod.ext_iff]

/-- What every step preserves, a whole run does. -/
theorem foldlM_invariant {α β : Type} {motive : β → Prop} {f : β → α → Unfolding β}
    (hstep : ∀ done x n done' n', motive done → f done x n = .ok (done', n') → motive done')
    {xs : List α} {done result : β} {n m : Nat} (h : motive done)
    (hrun : xs.foldlM f done n = .ok (result, m)) : motive result := by
  induction xs generalizing done n with
  | nil =>
    rw [List.foldlM_nil, pure_run_eq_ok] at hrun
    cases hrun
    exact h
  | cons x xs ih =>
    rw [List.foldlM_cons, bind_run_eq_ok] at hrun
    obtain ⟨done', n', hfirst, hrest⟩ := hrun
    exact ih (hstep done x n done' n' h hfirst) hrest

/-! ## Mappings -/

/-- A mapping is the value of a tagged node only if it is the value without the tag. -/
theorem withTag_eq_mapping {tag : Option Tag} {v : Value} {entries : List (Value × Value)}
    (h : withTag tag v = .mapping entries) : v = .mapping entries := by
  unfold withTag at h
  split at h
  · cases h
  · exact h

/-- What is read as an integer is a number. -/
theorem number_of_integerValue? {s : String} {v : Value} (h : integerValue? s = some (.ok v)) :
    ∃ n, v = .number n := by
  unfold integerValue? at h
  split at h
  · cases h
  · split at h
    · cases h
      exact ⟨_, rfl⟩
    · split at h <;> cases h

/-- No plain scalar is a mapping. -/
theorem plainValue_ne_mapping {s : String} {entries : List (Value × Value)} :
    plainValue s ≠ .ok (.mapping entries) := by
  unfold plainValue
  intro h
  split at h
  · cases h
  split at h
  · cases h
  split at h
  · next hinteger =>
    rw [h] at hinteger
    obtain ⟨n, hn⟩ := number_of_integerValue? hinteger
    cases hn
  split at h
  · cases h
  · split at h <;> cases h

/-- No tagged scalar is a mapping. -/
theorem taggedScalar_ne_mapping {tag : Tag} {style : Style} {s : String}
    {entries : List (Value × Value)} : taggedScalar tag style s ≠ .ok (.mapping entries) := by
  unfold taggedScalar
  intro h
  split at h
  · cases hbool : boolWord? s <;> rw [hbool] at h <;> cases h
  split at h
  · cases hinteger : integerValue? s with
    | none =>
      rw [hinteger] at h
      cases h
    | some result =>
      rw [hinteger, Option.getD_some] at h
      rw [h] at hinteger
      obtain ⟨n, hn⟩ := number_of_integerValue? hinteger
      cases hn
  split at h
  · cases hfractional : fractional? s <;> rw [hfractional] at h <;> cases h
  split at h
  · split at h <;> cases h
  split at h
  · exact plainValue_ne_mapping h
  · cases h

/-- No scalar is a mapping. -/
theorem scalarValue_ne_mapping {tag : Option Tag} {style : Style} {s : String}
    {entries : List (Value × Value)} : scalarValue tag style s ≠ .ok (.mapping entries) := by
  unfold scalarValue
  intro h
  split at h
  · exact taggedScalar_ne_mapping h
  · split at h
    · exact plainValue_ne_mapping h
    · cases h

/-- No key stands twice, as keys are compared. -/
def DistinctKeys (entries : List (Value × Value)) : Prop :=
  entries.Pairwise fun a b => a.1.same b.1 = false

/-- A key that stands twice ends the reading of a mapping. -/
theorem distinctKeys_of_value {d : Document} {depth : Nat} {node : Node} {n m : Nat}
    {entries : List (Value × Value)} (h : d.value depth node n = .ok (.mapping entries, m)) :
    DistinctKeys entries := by
  unfold Document.value at h
  rw [bind_run_eq_ok] at h
  obtain ⟨target, n', -, h⟩ := h
  cases target with
  | «alias» a => cases h
  | scalar p style text =>
    dsimp only at h
    rw [bind_run_eq_ok] at h
    obtain ⟨v, m', hscalar, h⟩ := h
    rw [pure_run_eq_ok, Prod.mk.injEq] at h
    rw [withTag_eq_mapping h.1, lift_run_eq_ok] at hscalar
    exact absurd hscalar.1 scalarValue_ne_mapping
  | sequence p items =>
    cases depth with
    | zero => cases h
    | succ depth =>
      dsimp only at h
      rw [bind_run_eq_ok] at h
      obtain ⟨vs, m', -, h⟩ := h
      rw [pure_run_eq_ok, Prod.mk.injEq] at h
      cases withTag_eq_mapping h.1
  | mapping p nodes =>
    cases depth with
    | zero => cases h
    | succ depth =>
      dsimp only at h
      rw [bind_run_eq_ok] at h
      obtain ⟨done, m', hrun, h⟩ := h
      rw [pure_run_eq_ok, Prod.mk.injEq] at h
      have hentries := withTag_eq_mapping h.1
      cases hentries
      refine List.pairwise_reverse.mpr ?_
      refine foldlM_invariant (motive := List.Pairwise fun a b => b.1.same a.1 = false) ?_ .nil hrun
      intro done entry n done' n' hdone hstep
      rw [bind_run_eq_ok] at hstep
      obtain ⟨k, n₁, -, hstep⟩ := hstep
      split at hstep
      · cases hstep
      · next hnew =>
        rw [bind_run_eq_ok] at hstep
        obtain ⟨v, n₂, -, hstep⟩ := hstep
        rw [pure_run_eq_ok] at hstep
        cases hstep
        exact .cons (by simpa using hnew) hdone

/-- A document that is read as a mapping has distinct keys. -/
theorem distinctKeys_of_parse {text : String} {entries : List (Value × Value)}
    (h : parse text = .ok (.mapping entries)) : DistinctKeys entries := by
  unfold parse at h
  cases hd : Document.parse text with
  | error e =>
    rw [hd] at h
    cases h
  | ok d =>
    simp only [hd, bind, Except.bind] at h
    split at h
    · cases h
    · next root hroot =>
      cases hvalue : d.value depthLimit root 0 with
      | error e =>
        rw [StateT.run', hvalue] at h
        cases h
      | ok result =>
        obtain ⟨v, m⟩ := result
        rw [StateT.run', hvalue] at h
        cases h
        exact distinctKeys_of_value hvalue

/-! ## Texts of keys -/

/-- A number is the same as itself. -/
theorem Numeral.same_self (n : Numeral) : n.same n = true := by
  cases n with
  | finite number => cases number <;> simp [same, Number.sameValue, Double.sameValue]
  | infinity negative => simp [same]
  | notANumber => rfl

/-- The first value is a text, and the second one is a number or a boolean that is written so. -/
def Homonyms (a b : Value) : Prop :=
  ∃ s, a = .string s ∧ b ≠ .string s ∧ b.scalarText? = some s

/-- Values of one text that are not the same are a text and a number or boolean. -/
theorem homonyms_of_not_same {a b : Value} {s : String} (ha : a.scalarText? = some s)
    (hb : b.scalarText? = some s) (hne : a.same b = false) : Homonyms a b ∨ Homonyms b a := by
  cases a with
  | string t =>
    cases ha
    refine .inl ⟨s, rfl, ?_, hb⟩
    rintro rfl
    simp [Value.same] at hne
  | bool x =>
    cases b with
    | string t =>
      cases hb
      exact .inr ⟨s, rfl, by simp, ha⟩
    | bool y =>
      cases ha
      cases x <;> cases y <;> simp [Value.same, Value.scalarText?] at hne hb
    | number n =>
      cases hb
      exact absurd (Option.some.inj ha).symm (n.text_ne_bool x)
    | _ => cases hb
  | number n =>
    cases b with
    | string t =>
      cases hb
      exact .inr ⟨s, rfl, by simp, ha⟩
    | bool y =>
      cases ha
      exact absurd (Option.some.inj hb).symm (n.text_ne_bool y)
    | number k =>
      cases hb
      rw [Numeral.text_inj (Option.some.inj ha), Value.same, k.same_self] at hne
      cases hne
    | _ => cases hb
  | _ => cases ha

/-- Homonyms have one text. -/
theorem Homonyms.scalarText?_eq {a b : Value} (h : Homonyms a b) : a.scalarText? = b.scalarText? := by
  obtain ⟨s, rfl, -, hb⟩ := h
  exact hb.symm

/-- Homonyms are different values. -/
theorem Homonyms.ne {a b : Value} (h : Homonyms a b) : a ≠ b := by
  obtain ⟨s, rfl, hb, -⟩ := h
  exact fun heq => hb heq.symm

/-- Where no key stands twice, keys have different texts unless a text is there beside a number or a
boolean that is written so. -/
theorem DistinctKeys.nodup_texts_iff {entries : List (Value × Value)} (h : DistinctKeys entries)
    (hscalar : ∀ e ∈ entries, e.1.scalarText?.isSome) :
    (entries.map fun e => e.1.scalarText?).Nodup ↔
      ∀ a ∈ entries, ∀ b ∈ entries, ¬ Homonyms a.1 b.1 := by
  constructor
  · intro hnodup a ha b hb hhomonyms
    have heq := List.inj_on_of_nodup_map hnodup ha hb hhomonyms.scalarText?_eq
    exact hhomonyms.ne (congrArg Prod.fst heq)
  · intro hnone
    refine List.pairwise_map.mpr (List.Pairwise.imp_of_mem ?_ h)
    intro a b ha hb hne heq
    obtain ⟨s, hs⟩ := Option.isSome_iff_exists.mp (hscalar a ha)
    exact (homonyms_of_not_same hs (heq ▸ hs) hne).elim (hnone a ha b hb) (hnone b hb a ha)

end Scaffolding.Yaml
