import Scaffolding.Proofs.Url.Parts

/-!
# What is added to a URL

Segments added to the path of a URL, and a pair added to its query, keep its parts apart whatever they
are. A segment that is not made of dots alone and holds neither tabs nor line ends is added as it is:
the path is what it was, less an empty segment at its end, and then the encoded segments.
-/

set_option autoImplicit false

namespace Scaffolding.Url

/-! ## Paths stay paths -/

/-- A slash is never plain in a segment, as it would end it. -/
theorem plainInSegment_slash (special : Bool) : plainInSegment special '/' = false := by
  cases special <;> decide

/-- A percent sign is never plain in a segment, as it starts an escape. -/
theorem plainInSegment_percent (special : Bool) : plainInSegment special '%' = false := by
  cases special <;> decide

/-- Whatever text is encoded for a segment is one. -/
theorem isSegment_encode_plainInSegment (special : Bool) (cs : List Char) :
    IsSegment (encode (plainInSegment special) cs) :=
  isSegment_encode (.inr (plainInSegment_slash special)) (by cases special <;> decide)
    (by cases special <;> decide)

/-- A segment at the end of segments makes a path. -/
theorem isPath_append {front : List (List Char)} (hfront : ∀ s ∈ front, IsSegment s)
    {segment : List Char} (hsegment : IsSegment segment) : IsPath (front ++ [segment]) where
  ne_nil := by simp
  segments s hs := by
    rcases List.mem_append.1 hs with hs | hs
    · exact hfront s hs
    · exact List.mem_singleton.1 hs ▸ hsegment

/-- A path stays one with a segment more. -/
theorem isPath_addSegment (special : Bool) {path : List (List Char)} (h : IsPath path)
    (segment : List Char) : IsPath (addSegment special path segment) := by
  have hdropLast : ∀ s ∈ path.dropLast, IsSegment s := fun s hs =>
    h.segments s (List.dropLast_subset path hs)
  have hfront : ∀ s ∈ (if isRoot path then [] else path), IsSegment s := by
    intro s hs
    split at hs
    · exact absurd hs List.not_mem_nil
    · exact h.segments s hs
  unfold addSegment
  dsimp only
  split
  · exact h
  split
  · exact isPath_append hdropLast isSegment_nil
  split
  · exact isPath_append hfront isSegment_nil
  · exact isPath_append hfront (isSegment_encode_plainInSegment special _)

/-- A path stays one with more segments. -/
theorem isPath_foldl_addSegment (special : Bool) {path : List (List Char)} (h : IsPath path)
    (segments : List (List Char)) : IsPath (segments.foldl (addSegment special) path) := by
  induction segments generalizing path with
  | nil => exact h
  | cons segment segments ih => exact ih (isPath_addSegment special h segment)

/-- A path stays one without the empty segment at its end. -/
theorem isPath_popEmpty {path : List (List Char)} (h : IsPath path) : IsPath (popEmpty path) := by
  unfold popEmpty
  split
  · next hpop =>
    have hlength : 1 < path.length := of_decide_eq_true (Bool.and_eq_true_iff.1 hpop).1
    refine ⟨fun hnil => ?_, fun s hs => h.segments s (List.dropLast_subset path hs)⟩
    have hdrop : path.length - 1 = 0 := by rw [← List.length_dropLast, hnil, List.length_nil]
    omega
  · exact h

/-! ## Segments that are added as they are -/

/-- A segment that is neither one dot nor two and has nothing in it that is dropped. -/
structure IsKept (segment : List Char) : Prop where
  ne_dot : segment ≠ ['.']
  ne_dots : segment ≠ ['.', '.']
  not_dropped : ∀ c ∈ segment, isDropped c = false

instance (segment : List Char) : Decidable (IsKept segment) :=
  decidable_of_iff
    (segment ≠ ['.'] ∧ segment ≠ ['.', '.'] ∧ segment.all (fun c => isDropped c == false) = true)
    ⟨fun ⟨hdot, hdots, hall⟩ => ⟨hdot, hdots, fun c hc => beq_iff_eq.1 (List.all_eq_true.1 hall c hc)⟩,
      fun h => ⟨h.ne_dot, h.ne_dots,
        List.all_eq_true.2 fun c hc => beq_iff_eq.2 (h.not_dropped c hc)⟩⟩

/-- Texts with the same escaped form are the same. -/
theorem encode_plainInSegment_inj {special : Bool} {a b : List Char}
    (h : encode (plainInSegment special) a = encode (plainInSegment special) b) : a = b := by
  have hdecode := congrArg percentText h
  rwa [percentText_encode (plainInSegment_percent special),
    percentText_encode (plainInSegment_percent special)] at hdecode

/-- A segment that is kept is put at the end of a path, in place of the only empty one. -/
theorem addSegment_of_isKept (special : Bool) (path : List (List Char)) {segment : List Char}
    (h : IsKept segment) :
    addSegment special path segment =
      (if isRoot path then [] else path) ++ [encode (plainInSegment special) segment] := by
  have hfilter : segment.filter (fun c => !isDropped c) = segment :=
    List.filter_eq_self.2 fun c hc => by rw [h.not_dropped c hc, Bool.not_false]
  -- dots are plain, so that only dots are escaped to dots
  have hdots : encode (plainInSegment special) segment ≠ ['.', '.'] := fun heq =>
    h.ne_dots (encode_plainInSegment_inj (heq.trans (by cases special <;> rfl)))
  have hdot : encode (plainInSegment special) segment ≠ ['.'] := fun heq =>
    h.ne_dot (encode_plainInSegment_inj (heq.trans (by cases special <;> rfl)))
  unfold addSegment
  dsimp only
  rw [if_neg (not_or.2 ⟨h.ne_dot, h.ne_dots⟩), hfilter, if_neg hdots, if_neg hdot]

/-- Segments that are kept are put one after the other at the end of a path that is not the root. -/
theorem foldl_addSegment (special : Bool) {path : List (List Char)} (hne : path ≠ [])
    (hroot : path ≠ [[]]) {segments : List (List Char)} (h : ∀ s ∈ segments, IsKept s) :
    segments.foldl (addSegment special) path =
      path ++ segments.map (encode (plainInSegment special)) := by
  induction segments generalizing path with
  | nil => exact (List.append_nil path).symm
  | cons segment segments ih =>
    obtain ⟨hsegment, hsegments⟩ := List.forall_mem_cons.1 h
    have hstep : addSegment special path segment =
        path ++ [encode (plainInSegment special) segment] := by
      rw [addSegment_of_isKept special path hsegment, isRoot, beq_eq_false_iff_ne.2 hroot]
      rfl
    -- a path of two segments is no longer the one that the first segment replaces
    have hlonger : path ++ [encode (plainInSegment special) segment] ≠ [[]] := fun heq =>
      hne (List.append_eq_singleton_iff.1 heq |>.elim And.left fun h => absurd h.2 (by simp))
    rw [List.foldl_cons, hstep, ih (by simp) hlonger hsegments, List.append_assoc]
    rfl

/-- A path without an empty segment at its end. -/
def withoutTrailing (path : List (List Char)) : List (List Char) :=
  if path.getLast? = some [] then path.dropLast else path

/-- The segments of a path that stay when others are added. -/
def stem (path : List (List Char)) : List (List Char) :=
  if isRoot (popEmpty path) then [] else popEmpty path

/-- Only an empty segment at the end goes, unless the path has two segments and both are empty: then
the first one is replaced as that of a path that is a slash alone is. -/
theorem stem_eq (path : List (List Char)) :
    stem path = if path = [[], []] then [] else withoutTrailing path := by
  by_cases hlast : path.getLast? = some []
  · obtain ⟨front, rfl⟩ := List.getLast?_eq_some_iff.1 hlast
    cases front with
    | nil => rfl
    | cons first more =>
      have hpop : popEmpty (first :: more ++ [[]]) = first :: more := by
        rw [popEmpty, List.getLast?_concat, if_pos (by simp), List.dropLast_concat]
      have hboth : first :: more ++ [[]] = [[], []] ↔ first :: more = [[]] := by
        rw [show ([[], []] : List (List Char)) = [[]] ++ [[]] from rfl, List.append_left_inj]
      rw [stem, hpop, withoutTrailing, if_pos hlast, List.dropLast_concat]
      simp only [hboth, isRoot, beq_iff_eq]
  · have hpop : popEmpty path = path := by
      rw [popEmpty, if_neg fun h => hlast (beq_iff_eq.1 (Bool.and_eq_true_iff.1 h).2)]
    have hroot : path ≠ [[]] := fun heq => hlast (heq ▸ rfl)
    have hboth : path ≠ [[], []] := fun heq => hlast (heq ▸ rfl)
    rw [stem, hpop, withoutTrailing, if_neg hlast, if_neg hboth, isRoot,
      beq_eq_false_iff_ne.2 hroot]
    rfl

/-- Where the first segment is not empty, segments take the place of an empty one at the end of a
path. -/
theorem foldl_addSegment_popEmpty (special : Bool) {path : List (List Char)} {first : List Char}
    (hfirst : first ≠ []) {more : List (List Char)} (h : ∀ s ∈ first :: more, IsKept s) :
    (first :: more).foldl (addSegment special) (popEmpty path) =
      stem path ++ (first :: more).map (encode (plainInSegment special)) := by
  obtain ⟨hkept, hmore⟩ := List.forall_mem_cons.1 h
  have hencode : encode (plainInSegment special) first ≠ [] := fun heq =>
    hfirst (encode_plainInSegment_inj (heq.trans rfl))
  have hstep : addSegment special (popEmpty path) first =
      stem path ++ [encode (plainInSegment special) first] :=
    addSegment_of_isKept special (popEmpty path) hkept
  have hroot : stem path ++ [encode (plainInSegment special) first] ≠ [[]] := by
    intro heq
    have hlast := congrArg List.getLast? heq
    rw [List.getLast?_concat] at hlast
    exact hencode (Option.some.inj hlast)
  rw [List.foldl_cons, hstep, foldl_addSegment special (by simp) hroot hmore, List.append_assoc]
  rfl

/-- Decoding the segments that were encoded gives them back. -/
theorem map_percentText_encode (special : Bool) (segments : List (List Char)) :
    (segments.map (encode (plainInSegment special))).map percentText = segments := by
  rw [List.map_map]
  refine (List.map_congr_left fun s _ => ?_).trans (List.map_id segments)
  exact percentText_encode (plainInSegment_percent special) s

/-! ## Pairs that are added -/

/-- The pairs of two queries with an ampersand between them are those of the first and of the
second. -/
theorem formPairs_append (a b : List Char) :
    formPairs (a ++ '&' :: b) = formPairs a ++ formPairs b := by
  rw [formPairs, Text.splitChars_append_mark, List.filter_append, List.map_append]
  rfl

def formOfPair (key value : List Char) : List Char :=
  encodeForm key ++ '=' :: encodeForm value

/-- A sign that no escape uses and that is not plain in a form does not occur in a pair. -/
theorem not_mem_formOfPair {c : Char} (hescape : isEscape c = false) (hplain : plainInForm c = false)
    (hplus : c ≠ '+') (hequals : c ≠ '=') (key value : List Char) : c ∉ formOfPair key value := by
  rw [formOfPair, List.mem_append, List.mem_cons]
  rintro (hc | hc | hc)
  · exact not_mem_encodeForm hescape hplus hplain key hc
  · exact hequals hc
  · exact not_mem_encodeForm hescape hplus hplain value hc

/-- A pair in a form is read as this pair alone, whatever its key and its value are. -/
theorem formPairs_formOfPair (key value : List Char) :
    formPairs (formOfPair key value) = [(key, value)] := by
  have hsplit : Text.splitChars '&' (formOfPair key value) = [formOfPair key value] :=
    Text.splitChars_of_not_mem
      (not_mem_formOfPair (by decide) (by decide) (by decide) (by decide) key value)
  have hnonempty : (formOfPair key value).isEmpty = false :=
    List.isEmpty_eq_false_iff.2 (by simp [formOfPair])
  have hcut : Text.cutFirst '=' (formOfPair key value) = (encodeForm key, some (encodeForm value)) :=
    Text.cutFirst_append_elim (not_mem_encodeForm (by decide) (by decide) (by decide) key)
      (some (encodeForm value))
  rw [formPairs, hsplit, List.filter_cons_of_pos (by rw [hnonempty]; rfl), List.filter_nil,
    List.map_singleton, readPair, hcut]
  exact congrArg (fun p => [p]) (Prod.ext (formText_encodeForm key) (formText_encodeForm value))

/-- A pair that is added changes the query alone, which then has this pair at its end. -/
theorem addQuery_spec {u : Url} (hquery : ∀ query ∈ u.query, '#' ∉ query) (key value : List Char) :
    ∃ query, u.addQuery key value = { u with query := some query } ∧ '#' ∉ query ∧
      formPairs query = formPairs (u.query.getD []) ++ [(key, value)] := by
  have hpair : '#' ∉ formOfPair key value :=
    not_mem_formOfPair (by decide) (by decide) (by decide) (by decide) key value
  unfold addQuery
  cases hu : u.query with
  | none => exact ⟨_, rfl, hpair, formPairs_formOfPair key value⟩
  | some query =>
    cases query with
    | nil => exact ⟨_, rfl, hpair, formPairs_formOfPair key value⟩
    | cons c rest =>
      refine ⟨c :: rest ++ '&' :: formOfPair key value, rfl, ?_, ?_⟩
      · intro hc
        rcases List.mem_append.1 hc with hc | hc
        · exact hquery _ hu hc
        rcases List.mem_cons.1 hc with hc | hc
        · exact absurd hc (by decide)
        · exact hpair hc
      · rw [formPairs_append, formPairs_formOfPair]
        rfl

end Scaffolding.Url
