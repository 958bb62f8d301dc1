import Scaffolding.Proofs.Url.Extension
import Scaffolding.Source.Basic

/-!
# Addresses of documents read back

The address of a document is composed of the address of the API and four texts. Here the texts are
found again in the text that was composed: the branch is the value of the last pair of the query, and
owner, repository and the names of the path are segments of their own. Whatever marks a text holds, it
adds neither a segment nor a pair.

All else in the address of the API stays, but for one path: when its segments are two and both are
empty, neither of them is kept.
-/

set_option autoImplicit false

namespace Scaffolding.Source

open Url

/-- Pieces without dots alone make segments that are kept. -/
theorem isKept_documentSegments {owner repository path : String}
    (h : ∀ piece ∈ owner.toList :: repository.toList :: pathPieces path, IsKept piece) :
    ∀ segment ∈ documentSegments owner repository path, IsKept segment := by
  have hrepos : IsKept "repos".toList := by decide
  have hcontents : IsKept "contents".toList := by decide
  simp only [documentSegments, List.forall_mem_cons] at h ⊢
  obtain ⟨howner, hrepository, hpieces⟩ := h
  exact ⟨hrepos, howner, hrepository, hcontents, hpieces⟩

/-- Whatever the texts are, there is an address, its parts are kept apart, and its query has the
branch at its end. -/
theorem documentUrl_eq {s : Source} {base : List (List Char)} (hapi : IsApart s.api base)
    (owner repository path branch : String) :
    ∃ longer query, s.documentUrl owner repository path branch =
        .ok { s.api with path := .segments longer, query := some query } ∧
      longer = (documentSegments owner repository path).foldl (addSegment s.api.isSpecial)
        (popEmpty base) ∧
      IsApart { s.api with path := .segments longer, query := some query } longer ∧
      formPairs query = formPairs (s.api.query.getD []) ++ [("ref".toList, branch.toList)] := by
  obtain ⟨query, hadd, hmark, hpairs⟩ := addQuery_spec
    (u := { s.api with path := .segments ((documentSegments owner repository path).foldl
      (addSegment s.api.isSpecial) (popEmpty base)) }) hapi.query "ref".toList branch.toList
  refine ⟨_, query, ?_, rfl, ⟨rfl, ?_, ?_⟩, hpairs⟩
  · rw [documentUrl, extend?, hapi.path_eq]
    exact congrArg Except.ok hadd
  · exact isPath_foldl_addSegment _ (isPath_popEmpty hapi.isPath) _
  · intro q hq
    cases hq
    exact hmark

/-- The texts that an address was composed of are read off it again. The segments of the API come
first, without an empty one at their end, as long as they are not just two empty ones. -/
theorem documentUrl_reads_back {s : Source} {text : String} (hparse : Url.parse text = .ok s.api)
    (hweb : isWebScheme s.api.scheme = true) (owner repository path branch : String) :
    ∃ url, s.documentUrl owner repository path branch = .ok url ∧
      url = { s.api with path := url.path, query := url.query } ∧
      url.queryPairs = s.api.queryPairs ++ [("ref".toList, branch.toList)] ∧
      ((∀ piece ∈ owner.toList :: repository.toList :: pathPieces path, IsKept piece) →
        (s.api.pathSegments = [[], []] →
          url.pathSegments.map percentText = documentSegments owner repository path) ∧
        (url.pathSegments.map percentText =
            (withoutTrailing s.api.pathSegments).map percentText ++
              documentSegments owner repository path ↔
          s.api.pathSegments ≠ [[], []])) := by
  obtain ⟨base, hapi⟩ := isApart_of_parse hparse hweb
  obtain ⟨longer, query, hurl, hlonger, happart, hpairs⟩ :=
    documentUrl_eq hapi owner repository path branch
  refine ⟨_, hurl, rfl, ?_, fun hpieces => ?_⟩
  · rw [happart.queryPairs_eq, hapi.queryPairs_eq]
    exact hpairs
  · have hrepos : "repos".toList ≠ [] := by decide
    have hdecoded : longer.map percentText =
        (stem base).map percentText ++ documentSegments owner repository path := by
      rw [hlonger, documentSegments,
        foldl_addSegment_popEmpty s.api.isSpecial hrepos (isKept_documentSegments hpieces),
        List.map_append, map_percentText_encode]
    rw [happart.pathSegments_eq, hapi.pathSegments_eq, hdecoded, stem_eq]
    refine ⟨fun hboth => by rw [if_pos hboth]; rfl, fun heq hboth => ?_, fun hboth => ?_⟩
    · rw [if_pos hboth, hboth] at heq
      have hlength := congrArg List.length heq
      simp [withoutTrailing] at hlength
    · rw [if_neg hboth]

/-- The source with its API at a place of its own, below a path and with a query. -/
def mirror : Source :=
  { standard with
    api :=
      { scheme := "http".toList
        username := "user".toList
        password := some "pw".toList
        host := some (.domain "example.org".toList)
        port := some 8080
        path := .segments ["a%20b".toList, [], []]
        query := some "x=1&y".toList
        fragment := some "top".toList } }

/-- The address of a document behind a mirror reads back in all its parts. -/
theorem documentUrl_reads_back_mirror :
    Url.parse "http://user:pw@Example.org:8080/a%20b//?x=1&y#top" = .ok mirror.api ∧
      ∃ url, mirror.documentUrl "a/b" "ü?#%2F" "x y//..z/&" "m&x=1 +#" = .ok url ∧
        url.queryPairs =
          [("x".toList, "1".toList), ("y".toList, []), ("ref".toList, "m&x=1 +#".toList)] ∧
        url.pathSegments.map percentText =
          ["a b".toList, [], "repos".toList, "a/b".toList, "ü?#%2F".toList, "contents".toList,
            "x y".toList, "..z".toList, "&".toList] := by
  have hparse : Url.parse "http://user:pw@Example.org:8080/a%20b//?x=1&y#top" = .ok mirror.api :=
    rfl
  obtain ⟨url, hurl, -, hpairs, hsegments⟩ := documentUrl_reads_back hparse (by decide) "a/b"
    "ü?#%2F" "x y//..z/&" "m&x=1 +#"
  have hkept := (hsegments (by decide)).2.2 (by decide)
  exact ⟨hparse, url, hurl, hpairs, hkept⟩

/-- The source with its API below a path of two slashes. -/
def twoSlashes : Source :=
  { standard with
    api :=
      { scheme := "http".toList
        username := []
        password := none
        host := some (.domain "h".toList)
        port := none
        path := .segments [[], []]
        query := none
        fragment := none } }

/-- The segments of the API are two empty ones, and neither is found in the address of a document. -/
theorem documentUrl_drops_two_slashes :
    Url.parse "http://h//" = .ok twoSlashes.api ∧ isWebScheme twoSlashes.api.scheme = true ∧
      (∀ piece ∈ "o".toList :: "r".toList :: pathPieces "p", piece ≠ [] ∧ IsKept piece) ∧
      ∃ url, twoSlashes.documentUrl "o" "r" "p" "b" = .ok url ∧
        url.text = "http://h/repos/o/r/contents/p?ref=b" ∧
        url.pathSegments.map percentText ≠
          (withoutTrailing twoSlashes.api.pathSegments).map percentText ++
            documentSegments "o" "r" "p" :=
  ⟨rfl, rfl, by decide, _, rfl, rfl, by decide⟩

end Scaffolding.Source
