import Scaffolding.Proofs.Url.Percent
import Scaffolding.Url.Reader

/-!
# Parts read off the text of a URL

The path and the query of a URL are found in its text by the marks between them: the first `#` ends
the query, the first `?` the path, slashes separate the segments and ampersands the pairs. What is
read there is what the URL holds as soon as no part holds a mark that could be taken for its end, and
a URL of a known scheme that was read from a text is of this sort.
-/

set_option autoImplicit false

namespace Scaffolding.Url

/-! ## Reading the parts -/

/-- The text of a URL from its path on, which comes after the scheme, a colon and the authority. -/
def tailChars (u : Url) : List Char :=
  u.chars.drop (u.scheme.length + 1 + u.authorityChars.length)

/-- What is written after the host is the path, the query and the fragment. -/
theorem tailChars_eq (u : Url) :
    u.tailChars = u.path.chars ++ u.query.elim [] ('?' :: ·) ++ u.fragment.elim [] ('#' :: ·) := by
  have hchars : u.chars = (u.scheme ++ ':' :: u.authorityChars) ++
      (u.path.chars ++ u.query.elim [] ('?' :: ·) ++ u.fragment.elim [] ('#' :: ·)) := by
    simp only [chars, List.append_assoc, List.cons_append]
  have hlength : u.scheme.length + 1 + u.authorityChars.length =
      (u.scheme ++ ':' :: u.authorityChars).length := by
    rw [List.length_append, List.length_cons]
    omega
  rw [tailChars, hchars, hlength, List.drop_left]

def pathAndQuery (u : Url) : List Char × Option (List Char) :=
  Text.cutFirst '?' (Text.cutFirst '#' u.tailChars).1

/-- The segments in the text of a URL: what stands between the slashes of its path. -/
def pathSegments (u : Url) : List (List Char) :=
  Text.splitChars '/' (u.pathAndQuery.1.drop 1)

/-- A key and its value in a form. -/
def readPair (piece : List Char) : List Char × List Char :=
  let (key, value) := Text.cutFirst '=' piece
  (formText key, formText (value.getD []))

def formPairs (form : List Char) : List (List Char × List Char) :=
  ((Text.splitChars '&' form).filter fun piece => !piece.isEmpty).map readPair

/-- The pairs in the text of a URL: its query, read as a form. -/
def queryPairs (u : Url) : List (List Char × List Char) :=
  formPairs (u.pathAndQuery.2.getD [])

/-! ## URLs whose parts are kept apart -/

/-- A segment without the marks that would end it. -/
structure IsSegment (segment : List Char) : Prop where
  no_slash : '/' ∉ segment
  no_query : '?' ∉ segment
  no_fragment : '#' ∉ segment

/-- The empty segment is one. -/
theorem isSegment_nil : IsSegment [] :=
  ⟨List.not_mem_nil, List.not_mem_nil, List.not_mem_nil⟩

/-- A path of segments, of which there is one at least. -/
structure IsPath (path : List (List Char)) : Prop where
  ne_nil : path ≠ []
  segments : ∀ segment ∈ path, IsSegment segment

/-- A URL with a path of segments, whose path and query hold none of the marks after them. -/
structure IsApart (u : Url) (path : List (List Char)) : Prop where
  path_eq : u.path = .segments path
  isPath : IsPath path
  query : ∀ query ∈ u.query, '#' ∉ query

/-- A sign that is in no segment is in no path, unless it is the slash. -/
theorem not_mem_flatMap_slash {c : Char} (hc : c ≠ '/') {path : List (List Char)}
    (h : ∀ segment ∈ path, c ∉ segment) : c ∉ path.flatMap ('/' :: ·) := by
  intro hmem
  obtain ⟨segment, hsegment, hmem⟩ := List.mem_flatMap.1 hmem
  rcases List.mem_cons.1 hmem with rfl | hmem
  · exact hc rfl
  · exact h segment hsegment hmem

/-- Without the slash at its start a path is its segments, joined by slashes. -/
theorem drop_flatMap_slash (path : List (List Char)) :
    (path.flatMap ('/' :: ·)).drop 1 = Text.joinChars '/' path := by
  induction path with
  | nil => rfl
  | cons segment more ih =>
    cases more with
    | nil => exact List.append_nil segment
    | cons next more => exact congrArg (segment ++ '/' :: ·) ih

namespace IsApart

variable {u : Url} {path : List (List Char)}

/-- Cutting what is written after the host gives the path and the query back. -/
theorem pathAndQuery_eq (h : IsApart u path) :
    u.pathAndQuery = (path.flatMap ('/' :: ·), u.query) := by
  have hfragment : '#' ∉ path.flatMap ('/' :: ·) ++ u.query.elim [] ('?' :: ·) := by
    rw [List.mem_append, not_or]
    refine ⟨not_mem_flatMap_slash (by decide) fun s hs => (h.isPath.segments s hs).no_fragment, ?_⟩
    cases hquery : u.query with
    | none => exact List.not_mem_nil
    | some query => simpa using h.query query hquery
  have hquery : '?' ∉ path.flatMap ('/' :: ·) :=
    not_mem_flatMap_slash (by decide) fun s hs => (h.isPath.segments s hs).no_query
  rw [pathAndQuery, tailChars_eq, h.path_eq, Path.chars, Text.cutFirst_append_elim hfragment,
    Text.cutFirst_append_elim hquery]

/-- The segments that are read off a URL are those of its path. -/
theorem pathSegments_eq (h : IsApart u path) : u.pathSegments = path := by
  rw [pathSegments, h.pathAndQuery_eq, drop_flatMap_slash]
  exact Text.splitChars_joinChars h.isPath.ne_nil fun s hs => (h.isPath.segments s hs).no_slash

/-- The pairs that are read off a URL are those of its query. -/
theorem queryPairs_eq (h : IsApart u path) : u.queryPairs = formPairs (u.query.getD []) := by
  rw [queryPairs, h.pathAndQuery_eq]

end IsApart

/-! ## URLs that were read -/

/-- A text that is encoded is a segment, if the marks that end one are not plain. -/
theorem isSegment_encode {plain : Char → Bool} {cs : List Char} (hslash : '/' ∉ cs ∨ plain '/' = false)
    (hquery : plain '?' = false) (hfragment : plain '#' = false) : IsSegment (encode plain cs) where
  no_slash := not_mem_encode (by decide) hslash
  no_query := not_mem_encode (by decide) (.inr hquery)
  no_fragment := not_mem_encode (by decide) (.inr hfragment)

/-- Reading a segment leaves only segments. -/
theorem isSegment_addRead {last : Bool} {path : List (List Char)} {segment : List Char}
    (hpath : ∀ s ∈ path, IsSegment s) (hsegment : IsSegment segment) :
    ∀ s ∈ addRead last path segment, IsSegment s := by
  have hadd : ∀ t, IsSegment t → ∀ front ⊆ path, ∀ s ∈ front ++ [t], IsSegment s := by
    intro t ht front hfront s hs
    rcases List.mem_append.1 hs with hs | hs
    · exact hpath s (hfront hs)
    · exact List.mem_singleton.1 hs ▸ ht
  have hdropLast : path.dropLast ⊆ path := List.dropLast_subset path
  unfold addRead
  split
  · split
    · exact hadd [] isSegment_nil _ hdropLast
    · exact fun s hs => hpath s (hdropLast hs)
  · split
    · split
      · exact hadd [] isSegment_nil _ (List.Subset.refl path)
      · exact hpath
    · exact hadd segment hsegment _ (List.Subset.refl path)

/-- After the last segment was read there is one. -/
theorem addRead_true_ne_nil (path : List (List Char)) (segment : List Char) :
    addRead true path segment ≠ [] := by
  simp only [addRead, if_true]
  split
  · simp
  · split <;> simp

/-- What is read as segments is a path: a segment is done at every slash, and its other marks are
escaped. -/
theorem isPath_readSegments {special : Bool} {path : List (List Char)} {segment : List Char}
    (hpath : ∀ s ∈ path, IsSegment s) (hsegment : '/' ∉ segment) (cs : List Char) :
    IsPath (readSegments special path segment cs) := by
  have hdone : ∀ {segment : List Char}, '/' ∉ segment →
      IsSegment (encode plainInPath segment.reverse) := fun h =>
    isSegment_encode (.inl (mt List.mem_reverse.1 h)) (by decide) (by decide)
  induction cs generalizing path segment with
  | nil => exact ⟨addRead_true_ne_nil path _, isSegment_addRead hpath (hdone hsegment)⟩
  | cons c cs ih =>
    rw [readSegments]
    split
    · exact ih (isSegment_addRead hpath (hdone hsegment)) List.not_mem_nil
    · next hends =>
      refine ih hpath ?_
      rw [List.mem_cons, not_or]
      refine ⟨?_, hsegment⟩
      rintro rfl
      exact hends rfl

/-- What is read as the path of a URL with a host is a path. -/
theorem isPath_readPath (cs : List Char) : ∃ path, readPath true cs = .segments path ∧ IsPath path := by
  cases cs with
  | nil =>
    refine ⟨[[]], rfl, List.cons_ne_nil _ _, fun s hs => ?_⟩
    exact List.mem_singleton.1 hs ▸ isSegment_nil
  | cons c rest =>
    have hstart : ∀ s ∈ ([] : List (List Char)), IsSegment s := fun s hs => absurd hs List.not_mem_nil
    exact ⟨_, rfl, isPath_readSegments hstart List.not_mem_nil _⟩

/-- A query ends where the fragment starts. -/
theorem not_mem_cutTail_query (special : Bool) (cs : List Char) :
    ∀ query ∈ (cutTail special cs).2.1, '#' ∉ query := by
  intro query hquery
  obtain ⟨raw, -, rfl⟩ := Option.map_eq_some_iff.1 hquery
  exact not_mem_encode (by decide) (.inr (by cases special <;> decide))

/-- What stands behind the two slashes gives the path and the query of a URL. -/
theorem eq_of_readAuthority {scheme cs : List Char} {u : Url} (h : readAuthority scheme cs = .ok u) :
    ∃ rest, u.scheme = scheme ∧
      u.path = readPath (isSpecialScheme scheme) (cutTail (isSpecialScheme scheme) rest).1 ∧
      u.query = (cutTail (isSpecialScheme scheme) rest).2.1 := by
  unfold readAuthority at h
  simp only [bind, Except.bind] at h
  -- with a user or without one, what can fail is the user, the host and the two together
  split at h
  all_goals
    split at h
    · cases h
    split at h
    · cases h
    split at h
    · cases h
    · cases h
      exact ⟨_, rfl, rfl, rfl⟩

/-- Only URLs with the scheme of files are read as such. -/
theorem scheme_of_readFile {cs : List Char} {u : Url} (h : readFile cs = .ok u) :
    u.scheme = "file".toList := by
  unfold readFile at h
  simp only [bind, Except.bind] at h
  split at h
  · split at h
    · split at h
      · cases h
        rfl
      · split at h
        · cases h
        · cases h
          rfl
    · cases h
      rfl
  · cases h
    rfl

/-- A URL whose host was read has its parts apart. -/
theorem isApart_of_readAuthority {scheme cs : List Char} {u : Url}
    (hspecial : isSpecialScheme scheme = true) (h : readAuthority scheme cs = .ok u) :
    ∃ path, IsApart u path := by
  obtain ⟨rest, -, hpath, hquery⟩ := eq_of_readAuthority h
  rw [hspecial] at hpath hquery
  obtain ⟨path, hread, hisPath⟩ := isPath_readPath (cutTail true rest).1
  exact ⟨path, hpath.trans hread, hisPath, hquery ▸ not_mem_cutTail_query true rest⟩

/-- The schemes by which documents are asked for. -/
def isWebScheme (scheme : List Char) : Bool :=
  scheme == "http".toList || scheme == "https".toList

/-- A URL for the web that was read has its parts apart. -/
theorem isApart_of_parse {text : String} {u : Url} (h : parse text = .ok u)
    (hweb : isWebScheme u.scheme = true) : ∃ path, IsApart u path := by
  unfold parse at h
  split at h
  · cases h
  · next scheme rest hread =>
    split at h
    · rw [scheme_of_readFile h] at hweb
      exact absurd hweb (by decide)
    · split at h
      · next hspecial => exact isApart_of_readAuthority hspecial h
      · next hspecial =>
        have hscheme : u.scheme = scheme := by
          split at h
          · obtain ⟨-, hscheme, -⟩ := eq_of_readAuthority h
            exact hscheme
          · cases h
            rfl
        have hknown : isSpecialScheme scheme = true := by
          rw [hscheme, isWebScheme, Bool.or_eq_true, beq_iff_eq, beq_iff_eq] at hweb
          rcases hweb with rfl | rfl <;> decide
        exact absurd hknown hspecial

end Scaffolding.Url
