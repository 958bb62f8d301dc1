import Scaffolding.Settings.Basic

/-!
# Dotted paths and the keys they go through

A dotted path goes through keys, and keys have a dotted path. The two are inverse to each other for
plain keys, which are neither empty nor hold a dot. Any other path goes through one key, the path
itself, so a list of more than one key is a list of plain keys.
-/

set_option autoImplicit false

namespace Scaffolding.Settings

/-- A key that can stand between the dots of a path. -/
def PlainKey (key : String) : Prop :=
  key ≠ "" ∧ '.' ∉ key.toList

def dotted (keys : List String) : String :=
  String.ofList (Text.joinChars '.' (keys.map String.toList))

/-- One key is its own path. -/
theorem dotted_singleton (key : String) : dotted [key] = key := by
  simp [dotted, Text.joinChars]

/-- A further key is put behind a dot. -/
theorem dotted_append_singleton {keys : List String} (h : keys ≠ []) (key : String) :
    dotted (keys ++ [key]) = dotted keys ++ "." ++ key := by
  induction keys with
  | nil => exact absurd rfl h
  | cons first rest ih =>
    cases rest with
    | nil =>
      rw [← String.toList_inj]
      simp [dotted, Text.joinChars]
    | cons second rest =>
      have hrest := ih (by simp)
      rw [← String.toList_inj] at hrest ⊢
      simp only [dotted, String.toList_ofList, String.toList_append, List.map_cons,
        List.cons_append, Text.joinChars] at hrest ⊢
      rw [hrest]
      simp

/-- Plain keys make no empty path. -/
theorem dotted_ne_empty {keys : List String} (hne : keys ≠ []) (h : ∀ key ∈ keys, PlainKey key) :
    dotted keys ≠ "" := by
  cases keys with
  | nil => exact absurd rfl hne
  | cons first rest =>
    have hfirst : first.toList ≠ [] := by
      intro hempty
      exact (h first (by simp)).1 (String.toList_inj.mp (by simpa using hempty))
    intro hempty
    have hchars : Text.joinChars '.' ((first :: rest).map String.toList) = [] := by
      rw [← String.toList_inj] at hempty
      simpa [dotted] using hempty
    cases rest <;> simp [Text.joinChars, hfirst] at hchars

/-! ## From keys to a path and back -/

/-- Splitting a path at its dots and joining the pieces gives the path. -/
theorem dotted_split (path : String) : dotted (Text.split '.' path) = path := by
  have hpieces : (Text.split '.' path).map String.toList = Text.splitChars '.' path.toList := by
    rw [Text.split, List.map_map]
    exact (List.map_congr_left fun piece _ => String.toList_ofList).trans (List.map_id _)
  rw [dotted, hpieces, Text.joinChars_splitChars, String.ofList_toList]

/-- Joining plain keys and splitting the path gives the keys. -/
theorem split_dotted {keys : List String} (hne : keys ≠ []) (h : ∀ key ∈ keys, PlainKey key) :
    Text.split '.' (dotted keys) = keys := by
  have hmap : keys.map String.toList ≠ [] := by simpa using hne
  have hmark : ∀ piece ∈ keys.map String.toList, '.' ∉ piece := by
    intro piece hpiece
    obtain ⟨key, hkey, rfl⟩ := List.mem_map.mp hpiece
    exact (h key hkey).2
  rw [Text.split, dotted, String.toList_ofList, Text.splitChars_joinChars hmap hmark, List.map_map]
  exact (List.map_congr_left fun key _ => String.ofList_toList).trans (List.map_id _)

/-- No piece of a path has a dot. -/
theorem not_mem_dot_of_mem_split {path piece : String} (h : piece ∈ Text.split '.' path) :
    '.' ∉ piece.toList := by
  obtain ⟨cs, hcs, rfl⟩ := List.mem_map.mp h
  rw [String.toList_ofList]
  exact Text.not_mem_of_mem_splitChars hcs

/-- A path goes through itself as one key, or through plain keys. -/
theorem pathKeys_cases (path : String) :
    pathKeys path = [path] ∨
      pathKeys path = Text.split '.' path ∧ ∀ key ∈ pathKeys path, PlainKey key := by
  by_cases h : (Text.split '.' path).any (·.isEmpty) = true
  · left
    simp [pathKeys, h]
  · right
    have hkeys : pathKeys path = Text.split '.' path := by simp [pathKeys, h]
    refine ⟨hkeys, ?_⟩
    intro key hkey
    rw [hkeys] at hkey
    refine ⟨?_, not_mem_dot_of_mem_split hkey⟩
    rintro rfl
    exact h (List.any_eq_true.mpr ⟨"", hkey, by decide⟩)

/-- A path has at least one key. -/
theorem pathKeys_ne_nil (path : String) : pathKeys path ≠ [] := by
  rcases pathKeys_cases path with h | ⟨h, -⟩
  · simp [h]
  · rw [h, Text.split]
    simpa using Text.splitChars_ne_nil '.' path.toList

/-- The keys of a path write it. -/
theorem dotted_pathKeys (path : String) : dotted (pathKeys path) = path := by
  rcases pathKeys_cases path with h | ⟨h, -⟩
  · rw [h, dotted_singleton]
  · rw [h, dotted_split]

/-- The keys of a path that plain keys write are these keys. -/
theorem pathKeys_dotted {keys : List String} (hne : keys ≠ []) (h : ∀ key ∈ keys, PlainKey key) :
    pathKeys (dotted keys) = keys := by
  have hany : ¬ keys.any (·.isEmpty) = true := by
    rw [List.any_eq_true]
    rintro ⟨key, hkey, hempty⟩
    exact (h key hkey).1 (by simpa using hempty)
  simp [pathKeys, split_dotted hne h, hany]

/-- A plain key is the only one of its path. -/
theorem pathKeys_plain {key : String} (h : PlainKey key) : pathKeys key = [key] := by
  have hdotted : pathKeys (dotted [key]) = [key] := pathKeys_dotted (by simp) (by simpa using h)
  rwa [dotted_singleton] at hdotted

/-- The first of a path's keys leads to the others, and then it is plain, or it is the path. -/
theorem plainKey_of_pathKeys {path key next : String} {rest : List String}
    (h : pathKeys path = key :: next :: rest) :
    PlainKey key ∧ ∀ k ∈ next :: rest, PlainKey k := by
  rcases pathKeys_cases path with hone | ⟨-, hplain⟩
  · rw [hone] at h
    cases h
  · rw [h] at hplain
    exact ⟨hplain key (by simp), fun k hk => hplain k (List.mem_cons_of_mem key hk)⟩

end Scaffolding.Settings
