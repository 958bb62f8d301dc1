import Mathlib
import Scaffolding.Proofs.Text.Blank
import Scaffolding.Source.Environment

/-!
# Where the token comes from

Two variables of the environment and the hosts file may hold a token. Of the variables, the first one
that says something gives its value without the blanks around it, and a blank one is passed over. The
hosts file comes last, and what it has is the token as it stands, blanks and all, unless it is empty.

So the three are treated alike except where the hosts file has a token with blanks at its ends, or a
blank one, and neither variable says anything.
-/

set_option autoImplicit false

namespace Scaffolding.Source

/-- Of some places, each of which may have a text, the first text that is not blank is the token,
without the blanks around it. There is none if no place says anything. -/
inductive FirstSaid : List (Option String) → Option String → Prop
  | silent : FirstSaid [] none
  | passed {place : Option String} {places : List (Option String)} {token : Option String}
      (hblank : ∀ text ∈ place, ∀ c ∈ text.toList, Text.isBlank c = true)
      (hrest : FirstSaid places token) : FirstSaid (place :: places) token
  | said {text token : String} {places : List (Option String)}
      (htext : ∃ c ∈ text.toList, Text.isBlank c = false)
      (htoken : Text.Trimmed text.toList token.toList) :
      FirstSaid (some text :: places) (some token)

/-- The texts of the variables that may hold a token. -/
def variablesOf (env : Environment) : List (Option String) :=
  [env.lookup "GITHUB_TOKEN", env.lookup "GH_TOKEN"]

/-- The token that the hosts file has for the code host, if the file can be read and has one. -/
def savedToken? (env : Environment) (files : Files) : Option String :=
  (savedLogin? env files).bind Login.token

/-! ## What a place says -/

/-- What a place says, without the blanks around it. -/
def said? (place : Option String) : Option String :=
  (place.filter fun text => !Text.isBlankText text).map Text.trim

/-- A text says something if some character of it is no blank. -/
theorem isBlankText_eq_false_iff {text : String} :
    Text.isBlankText text = false ↔ ∃ c ∈ text.toList, Text.isBlank c = false := by
  simp [Text.isBlankText]

/-- A place says nothing if what is there is blank. -/
theorem said?_eq_none_iff {place : Option String} :
    said? place = none ↔ ∀ text ∈ place, ∀ c ∈ text.toList, Text.isBlank c = true := by
  simp [said?, Option.filter_eq_none_iff, Text.isBlankText]

/-- A place says what is there without the blanks around it. -/
theorem said?_some {text : String} (h : Text.isBlankText text = false) :
    said? (some text) = some (Text.trim text) := by
  simp [said?, Option.filter, h]

/-- What a place says is the trimmed text that is there. -/
theorem exists_of_said?_eq_some {place : Option String} {token : String}
    (h : said? place = some token) : ∃ text, place = some text ∧
      (∃ c ∈ text.toList, Text.isBlank c = false) ∧ Text.Trimmed text.toList token.toList := by
  obtain ⟨text, hplace, htrim⟩ := Option.map_eq_some_iff.mp h
  obtain ⟨rfl, htext⟩ := Option.filter_eq_some_iff.mp hplace
  refine ⟨text, rfl, isBlankText_eq_false_iff.mp ?_, Text.trimmed_iff_trim.mpr htrim⟩
  simpa using htext

/-- The first text that is said is found by going through the places. -/
theorem firstSaid_iff {places : List (Option String)} {token : Option String} :
    FirstSaid places token ↔ places.findSome? said? = token := by
  constructor
  · intro h
    induction h with
    | silent => rfl
    | passed hblank _ ih => rw [List.findSome?_cons, said?_eq_none_iff.mpr hblank, ih]
    | said htext htoken =>
      rw [List.findSome?_cons, said?_some (isBlankText_eq_false_iff.mpr htext),
        Text.trimmed_iff_trim.mp htoken]
  · rintro rfl
    induction places with
    | nil => exact .silent
    | cons place places ih =>
      rw [List.findSome?_cons]
      cases hplace : said? place with
      | none => exact .passed (said?_eq_none_iff.mp hplace) ih
      | some token =>
        obtain ⟨text, rfl, htext, htrim⟩ := exists_of_said?_eq_some hplace
        exact .said htext htrim

/-- What a place says is not empty and has no blanks at its ends. -/
theorem trimmed_of_said?_eq_some {place : Option String} {token : String}
    (h : said? place = some token) : token ≠ "" ∧ Text.Trimmed token.toList token.toList := by
  obtain ⟨text, -, htext, htrim⟩ := exists_of_said?_eq_some h
  refine ⟨?_, htrim.self⟩
  rintro rfl
  have hempty := Text.isEmpty_trim text
  rw [Text.trimmed_iff_trim.mp htrim, isBlankText_eq_false_iff.mpr htext] at hempty
  exact absurd hempty (by decide)

/-- A text that is there is what its place says exactly if it has no blanks at its ends, the empty text
standing for none. -/
theorem said?_eq_filter_iff {place : Option String} :
    said? place = place.filter (fun text => !text.isEmpty) ↔
      ∀ text ∈ place, Text.Trimmed text.toList text.toList := by
  cases place with
  | none => simp [said?]
  | some text =>
    simp only [Option.mem_some_iff, forall_eq', Text.trimmed_iff_trim]
    cases hblank : Text.isBlankText text with
    | true =>
      have hsaid : said? (some text) = none := by simp [said?, Option.filter, hblank]
      have hempty : (Text.trim text).isEmpty = true := by rw [Text.isEmpty_trim, hblank]
      rw [hsaid, String.isEmpty_iff.mp hempty, eq_comm, Option.filter_eq_none_iff, eq_comm]
      simp
    | false =>
      have hne : text.isEmpty = false := by
        obtain ⟨c, hc, -⟩ := isBlankText_eq_false_iff.mp hblank
        rw [Bool.eq_false_iff, ne_eq, String.isEmpty_iff]
        rintro rfl
        simp at hc
      rw [said?_some hblank]
      simp [Option.filter, hne]

/-! ## The token of a source -/

variable {env : Environment} {files : Files}

/-- The token is what the variables say first, and else what the hosts file has. -/
theorem tokenOf_eq :
    tokenOf env files = ((variablesOf env).findSome? said?).or
      ((savedToken? env files).filter fun token => !token.isEmpty) :=
  rfl

/-- The variables count before the hosts file, and the first of them that says something gives the
token. Where neither says anything, the token is what the hosts file has, unless that is empty. So the
token is never empty, and it has blanks at its ends only if it comes from the hosts file; the three
places are treated alike exactly if the hosts file is not needed or has no such blanks. -/
theorem tokenOf_resolved (env : Environment) (files : Files) :
    (∀ token, FirstSaid (variablesOf env) (some token) → tokenOf env files = some token) ∧
      (FirstSaid (variablesOf env) none →
        tokenOf env files = (savedToken? env files).filter fun token => !token.isEmpty) ∧
      (∀ token, tokenOf env files = some token → token ≠ "" ∧
        (Text.Trimmed token.toList token.toList ∨
          FirstSaid (variablesOf env) none ∧ savedToken? env files = some token)) ∧
      (FirstSaid (variablesOf env ++ [savedToken? env files]) (tokenOf env files) ↔
        (∃ token, FirstSaid (variablesOf env) (some token)) ∨
          ∀ token ∈ savedToken? env files, Text.Trimmed token.toList token.toList) := by
  simp only [firstSaid_iff, List.findSome?_append, tokenOf_eq]
  cases hsaid : (variablesOf env).findSome? said? with
  | some token =>
    obtain ⟨place, -, hplace⟩ := List.exists_of_findSome?_eq_some hsaid
    obtain ⟨hne, htrimmed⟩ := trimmed_of_said?_eq_some hplace
    refine ⟨by simp, by simp, ?_, by simp⟩
    rintro other ⟨⟩
    exact ⟨hne, .inl htrimmed⟩
  | none =>
    have hsingle : [savedToken? env files].findSome? said? = said? (savedToken? env files) := by
      cases h : said? (savedToken? env files) <;> simp [h]
    rw [Option.none_or, Option.none_or, hsingle, said?_eq_filter_iff]
    refine ⟨by simp, by simp, ?_, by simp⟩
    intro token htoken
    obtain ⟨hsaved, hne⟩ := Option.filter_eq_some_iff.mp htoken
    refine ⟨?_, .inr ⟨rfl, hsaved⟩⟩
    rintro rfl
    simp at hne

/-- The hosts file of a client of the code host that has a blank token. -/
def blankHosts : String := "github.com:\n  oauth_token: '  '\n"

/-- A file system with this hosts file and nothing else. -/
def blankLogin : Files where
  entries := [(["gh"], .directory), (["gh", "hosts.yml"], .file blankHosts 0o644)]
  here := []

/-- The hosts file can be read. -/
theorem readText?_blankLogin : blankLogin.readText? "/gh/hosts.yml" = some blankHosts := by
  cbv

/-- An environment that leads to this hosts file. -/
def blankEnvironment : Environment where
  assignments := [("GH_CONFIG_DIR", "/gh")]
  recordedHome := none

/-- A blank token of the hosts file is taken, where a variable with the same text is passed over. -/
theorem tokenOf_blank_login :
    savedToken? blankEnvironment blankLogin = some "  " ∧
      tokenOf blankEnvironment blankLogin = some "  " ∧
      environmentToken? ⟨[("GITHUB_TOKEN", "  ")], none⟩ = none ∧
      ¬ FirstSaid (variablesOf blankEnvironment ++
          [savedToken? blankEnvironment blankLogin])
        (tokenOf blankEnvironment blankLogin) := by
  have hpath : hostsPath? blankEnvironment = some "/gh/hosts.yml" := by decide +kernel
  have hlogin : login? blankHosts = some ⟨some "  ", none⟩ := by decide +kernel
  have hsaved : savedToken? blankEnvironment blankLogin = some "  " := by
    simp only [savedToken?, savedLogin?, hpath, readText?_blankLogin, hlogin, Option.bind_eq_bind,
      Option.bind_some]
  have htoken : tokenOf blankEnvironment blankLogin = some "  " := by
    rw [tokenOf_eq, hsaved]
    decide +kernel
  refine ⟨hsaved, htoken, by decide +kernel, ?_⟩
  rw [hsaved, htoken, firstSaid_iff]
  decide +kernel

end Scaffolding.Source
