import Mathlib.Logic.Function.Basic
import Scaffolding.Proofs.Scaffold.Trail
import Scaffolding.Proofs.Session.Twin
import Scaffolding.Registry.Listing

/-!
# The credential is not told

Loading a registry and scaffolding out of it with one token or with another one is the same, as long
as both tokens can be written into a header: the same listing, the same results with the same texts,
the same commands, questions and changes, and requests that differ in the credential alone. Only
whether there is a token is ever looked at.

The one part that sees the token is the request. What is said about a request looks at its address
and at whether its credentials can be written, so twins are told the same about. Everything else is
veiled because its parts are.
-/

set_option autoImplicit false

namespace Scaffolding

variable {a b : String}

def Source.showing (token : String) (source : Source) : Source :=
  { source with token := some token }

namespace Remote

/-! ## Requests -/

/-- The word before a token can be written, so a credential can be written if its token can. -/
theorem isHeaderText_bearerCredential (token : String) :
    isHeaderText (bearerCredential token) = isHeaderText token := by
  have hword : isHeaderText "Bearer " = true := by decide
  unfold isHeaderText at hword ⊢
  rw [bearerCredential, String.toList_append, List.all_append, hword, Bool.true_and]

/-- Two requests for one address differ in the token alone. -/
theorem Request.twin_of (source : Source) (url : Url) :
    (Request.of (source.showing a) url).Twin a b (Request.of (source.showing b) url) := by
  unfold Request.of
  cases userOf? url with
  | none => exact ⟨rfl, rfl, rfl, [], rfl, rfl⟩
  | some user => exact ⟨rfl, rfl, rfl, [basicCredential user.1 user.2], rfl, rfl⟩

/-- Twins can both be sent or neither, and for the same reason. -/
theorem Request.Twin.flaw? {r r' : Request} (h : r.Twin a b r') (ha : isHeaderText a = true)
    (hb : isHeaderText b = true) : r'.flaw? = r.flaw? := by
  obtain ⟨credentials, hr, hr'⟩ := h.authorization
  have hwritten : r'.authorization.all isHeaderText = r.authorization.all isHeaderText := by
    simp [hr, hr', isHeaderText_bearerCredential, ha, hb]
  unfold Request.flaw?
  rw [hwritten, h.url]

/-- What an answer says does not depend on which of two twins was sent. -/
theorem Request.Twin.documentOf {r r' : Request} (h : r.Twin a b r') (url : Url)
    (authenticated : Bool) (delivery : Delivery) :
    Remote.documentOf url authenticated r' delivery =
      Remote.documentOf url authenticated r delivery := by
  cases delivery with
  | lost =>
    have hloss : r'.lossText = r.lossText := by
      unfold Request.lossText
      rw [h.url]
    unfold Remote.documentOf
    rw [hloss]
  | answered status body => rfl

/-- Fetching with two tokens that can be sent comes to the same, the credentials aside. -/
theorem veiled_fetch (ha : isHeaderText a = true) (hb : isHeaderText b = true) (source : Source)
    (owner repository path branch : String) :
    Veiled a b (fetch (source.showing a) owner repository path branch)
      (fetch (source.showing b) owner repository path branch) := by
  have hurl : (source.showing b).documentUrl owner repository path branch =
      (source.showing a).documentUrl owner repository path branch := rfl
  unfold fetch
  rw [hurl]
  cases (source.showing a).documentUrl owner repository path branch with
  | error f => exact .throw f
  | ok url =>
    have htwin := Request.twin_of (a := a) (b := b) source url
    have hpresent : (source.showing b).token.isSome = (source.showing a).token.isSome := rfl
    dsimp only
    unfold fetchUrl
    dsimp only
    rw [htwin.flaw? ha hb, hpresent]
    cases (Request.of (source.showing a) url).flaw? with
    | some reason => exact .throw _
    | none =>
      apply Veiled.send_bind htwin
      intro delivery
      rw [htwin.documentOf]
      cases documentOf url (source.showing a).token.isSome (Request.of (source.showing a) url)
        delivery with
      | ok text => exact .pure text
      | error f => exact .throw f

end Remote

/-- Loading a registry with two tokens comes to the same. -/
theorem Registry.veiled_load (ha : Remote.isHeaderText a = true)
    (hb : Remote.isHeaderText b = true) (source : Source) :
    Veiled a b (load (source.showing a)) (load (source.showing b)) := by
  apply (Remote.veiled_fetch ha hb source _ _ _ _).bind
  intro text
  have hpath : manifestOf (source.showing b).path text =
      manifestOf (source.showing a).path text := rfl
  rw [hpath]
  cases manifestOf (source.showing a).path text with
  | ok m => exact .pure _
  | error f => exact .throw f

/-! ## What never sees the source -/

namespace Builder

/-- Looking for a tool has nothing to do with the token. -/
theorem veiled_isAvailable (builder : Builder) :
    Veiled a b builder.isAvailable builder.isAvailable := by
  cases builder with
  | nix =>
    apply Veiled.run_bind
    intro reply
    split
    · exact .pure _
    · exact .throw _
  | cookiecutter => exact .pure true
  | gitRepo => exact .pure true

/-- Running a build has nothing to do with the token. -/
theorem veiled_runBuild (template engine : String) (diagnostic : Tool.Outcome → String)
    (call : Tool.Command) :
    Veiled a b (runBuild template engine diagnostic call)
      (runBuild template engine diagnostic call) := by
  apply Veiled.run_bind
  intro reply
  cases reply with
  | error e => exact .throw _
  | ok o =>
    dsimp only
    split
    · exact .pure _
    · exact .throw _

/-- Changing files has nothing to do with the token. -/
theorem veiled_changeFor (template what : String) (deed : Deed) :
    Veiled a b (changeFor template what deed) (changeFor template what deed) := by
  apply Veiled.change_bind
  intro done
  cases done with
  | ok => exact .pure ()
  | error e => exact .throw _

/-- Building with Nix has nothing to do with the token. -/
theorem veiled_buildNix (d : Template.Descriptor) (attrs output : String) :
    Veiled a b (buildNix d attrs output) (buildNix d attrs output) := by
  apply (veiled_runBuild _ _ _ _).bind
  intro stdout
  cases Nix.outputPath? stdout with
  | none => exact .throw _
  | some path => exact veiled_changeFor _ _ _

/-- Building from a cookiecutter template has nothing to do with the token. -/
theorem veiled_buildCookiecutter (d : Template.Descriptor) (context output : String) :
    Veiled a b (buildCookiecutter d context output) (buildCookiecutter d context output) :=
  (veiled_runBuild _ _ _ _).bind fun _ => .pure ()

/-- Cloning has nothing to do with the token. -/
theorem veiled_buildGitRepo (d : Template.Descriptor) (output : String) :
    Veiled a b (buildGitRepo d output) (buildGitRepo d output) :=
  (veiled_changeFor _ _ _).bind fun _ => (veiled_runBuild _ _ _ _).bind fun _ => .pure ()

/-- No build has anything to do with the token. -/
theorem veiled_build (builder : Builder) (d : Template.Descriptor) (config : Configuration)
    (output : String) :
    Veiled a b (builder.build d config output) (builder.build d config output) := by
  unfold build
  split
  · exact veiled_buildNix _ _ _
  · exact veiled_buildNix _ _ _
  · exact veiled_buildCookiecutter _ _ _
  · exact veiled_buildCookiecutter _ _ _
  · exact veiled_buildGitRepo _ _
  · exact .throw _

end Builder

/-- Collecting settings has nothing to do with the token. -/
theorem Schema.veiled_collect (schema : Schema) : Veiled a b schema.collect schema.collect := by
  apply Veiled.foldlM
  intro settings f
  apply Veiled.ask_bind
  intro answer
  cases answer with
  | error e => exact .throw _
  | ok answer =>
    dsimp only
    cases f.valueOf answer with
    | some value => exact .pure _
    | none => exact .pure _

namespace Scaffold

/-- Asking for a tool has nothing to do with the token. -/
theorem veiled_requireTool (t : Template) : Veiled a b (requireTool t) (requireTool t) := by
  apply (Builder.veiled_isAvailable t.builder).bind
  intro available
  cases available with
  | true => exact .pure ()
  | false => exact .throw _

/-- The consent of the user has nothing to do with the token. -/
theorem veiled_consent (t : Template) (choice : Choice) (settings : Settings) :
    Veiled a b (consent t choice settings) (consent t choice settings) := by
  unfold consent
  split
  · exact .pure ()
  · apply Veiled.confirm_bind
    intro answer
    split
    · exact .pure ()
    · exact .throw _
    · exact .throw _

/-! ## Scaffolding -/

variable (ha : Remote.isHeaderText a = true) (hb : Remote.isHeaderText b = true)

include ha hb

/-- Fetching a schema with two tokens comes to the same. -/
theorem veiled_remoteSchema (source : Source) (t : Template) :
    Veiled a b (remoteSchema (source.showing a) t) (remoteSchema (source.showing b) t) := by
  apply (Remote.veiled_fetch ha hb source _ _ _ _).bind
  intro text
  cases Schema.read text with
  | ok schema => exact .pure schema
  | error f => exact .throw f

/-- So does having the schema of a template. -/
theorem veiled_schemaOf (source : Source) (t : Template) :
    Veiled a b (schemaOf (source.showing a) t) (schemaOf (source.showing b) t) := by
  unfold schemaOf
  split
  · exact (veiled_remoteSchema ha hb source t).bind fun schema => .pure (some schema)
  · exact .pure none

/-- So does going on without a schema that cannot be had. -/
theorem veiled_schemaOrNone (source : Source) (t : Template) :
    Veiled a b (schemaOrNone (source.showing a) t) (schemaOrNone (source.showing b) t) := by
  apply (veiled_schemaOf ha hb source t).tryCatch
  intro f
  split
  · exact .throw _
  · exact .pure none

/-- So does preparing a template. -/
theorem veiled_prepare (source : Source) (t : Template) :
    Veiled a b (prepare (source.showing a) t) (prepare (source.showing b) t) :=
  (veiled_requireTool t).bind fun _ => veiled_schemaOrNone ha hb source t

omit ha hb

/-- Steps that come to the same result and the same progress in twin worlds, and leave twin
sessions. -/
def VeiledStep {α : Type} (a b : String) (x y : Step α) : Prop :=
  ∀ ⦃world world' : World⦄, world.Twin a b world' → ∀ (p : Progress) ⦃s s' : Session⦄,
    s.Twin a b s' → ∃ r q t t', stepOutcome x world p s = (r, q, t) ∧
      stepOutcome y world' p s' = (r, q, t') ∧ t.Twin a b t'

namespace VeiledStep

variable {α β : Type}

/-- The same failure comes of both. -/
theorem throw (f : Failure) : VeiledStep a b (throw f : Step α) (MonadExcept.throw f) := by
  intro world world' hworld p s s' hs
  exact ⟨.error f, p, s, s', rfl, rfl, hs⟩

/-- Attempts that come to the same can be followed by steps that do. -/
theorem attempt_bind {x y : Attempt α} {f g : α → Step β} (hx : Veiled a b x y)
    (hf : ∀ v, VeiledStep a b (f v) (g v)) :
    VeiledStep a b (attempt x >>= f) (attempt y >>= g) := by
  intro world world' hworld p s s' hs
  obtain ⟨r, t, t', hxr, hyr, ht⟩ := hx hworld hs
  rw [stepOutcome_attempt_bind, stepOutcome_attempt_bind, hxr, hyr]
  cases r with
  | error e => exact ⟨.error e, p, t, t', rfl, rfl, ht⟩
  | ok v => exact hf v hworld p ht

/-- Stages are reached alike. -/
theorem reach_bind (stage : Stage) {f g : Unit → Step β} (hf : VeiledStep a b (f ()) (g ())) :
    VeiledStep a b (reach stage >>= f) (reach stage >>= g) := by
  intro world world' hworld p s s' hs
  rw [stepOutcome_reach_bind, stepOutcome_reach_bind]
  exact hf hworld (p.advance stage) hs

/-- Failures are handled alike. -/
theorem tryCatch {x y : Step α} {f g : Failure → Step α} (hx : VeiledStep a b x y)
    (hf : ∀ e, VeiledStep a b (f e) (g e)) :
    VeiledStep a b (MonadExcept.tryCatch x f) (MonadExcept.tryCatch y g) := by
  intro world world' hworld p s s' hs
  obtain ⟨r, q, t, t', hxr, hyr, ht⟩ := hx hworld p hs
  rw [stepOutcome_tryCatch, stepOutcome_tryCatch, hxr, hyr]
  cases r with
  | error e => exact hf e hworld q ht
  | ok v => exact ⟨.ok v, q, t, t', rfl, rfl, ht⟩

end VeiledStep

include ha hb

/-- Scaffolding a template with two tokens comes to the same. -/
theorem veiledStep_scaffold (source : Source) (t : Template) (choice : Choice) :
    VeiledStep a b (scaffold (source.showing a) t choice) (scaffold (source.showing b) t choice) := by
  intro world world' hworld p s s' hs
  rw [stepOutcome_scaffold, stepOutcome_scaffold]
  revert world world' hworld p s s' hs
  apply VeiledStep.attempt_bind (veiled_prepare ha hb source t)
  intro schema
  apply VeiledStep.reach_bind
  apply VeiledStep.reach_bind
  apply VeiledStep.attempt_bind (Schema.veiled_collect _)
  intro settings
  apply VeiledStep.reach_bind
  apply VeiledStep.attempt_bind (veiled_consent t choice settings)
  intro _
  apply VeiledStep.reach_bind
  apply VeiledStep.attempt_bind (Builder.veiled_build _ _ _ _)
  intro _
  apply VeiledStep.reach_bind
  intro world world' hworld p s s' hs
  exact ⟨.ok (projectOf t choice p.trail schema.isSome), p, s, s', rfl, rfl, hs⟩

/-- A run with two tokens comes to the same. -/
theorem veiledStep_run (source : Source) (templates : List Template) (choice : Choice) :
    VeiledStep a b (run (source.showing a) templates choice)
      (run (source.showing b) templates choice) := by
  unfold run
  cases select templates choice.index with
  | error f => exact .throw f
  | ok t =>
    apply VeiledStep.reach_bind
    apply (veiledStep_scaffold ha hb source t choice).tryCatch
    intro f
    exact .reach_bind .failed (.throw f)

omit ha hb

/-! ## A registry and its drivers -/

/-- Runs drivers of a listing in a row. Each run names its driver by a number, and a driver goes on
from how far it came. -/
def serve (source : Source) (templates : List Template) (world : World) :
    List (Nat × Choice) → (Nat → Progress) → Session → List Turn × Session
  | [], _, s => ([], s)
  | (driver, choice) :: runs, progress, s =>
    let (result, p, s) := stepOutcome (run source templates choice) world (progress driver) s
    let (turns, s) := serve source templates world runs (Function.update progress driver p) s
    (⟨progress driver, result, p⟩ :: turns, s)

/-- What comes of loading a registry and running drivers for its listing. -/
structure Visit where
  listing : Except Failure Listing
  turns : List Turn
  session : Session

/-- Loads a registry and runs drivers for its listing, all of them fresh. Without a listing there is
no driver. -/
def visit (source : Source) (world : World) (runs : List (Nat × Choice)) (s : Session) : Visit :=
  match outcome (Registry.load source) world s with
  | (.error f, s) => ⟨.error f, [], s⟩
  | (.ok listing, s) =>
    let (turns, s) := serve source listing.templates world runs (fun _ => .start) s
    ⟨.ok listing, turns, s⟩

include ha hb

/-- Any number of runs with two tokens come to the same. -/
theorem serve_twin (source : Source) (templates : List Template) {world world' : World}
    (hworld : world.Twin a b world') (runs : List (Nat × Choice)) (progress : Nat → Progress)
    {s s' : Session} (hs : s.Twin a b s') :
    ∃ turns t t', serve (source.showing a) templates world runs progress s = (turns, t) ∧
      serve (source.showing b) templates world' runs progress s' = (turns, t') ∧
      t.Twin a b t' := by
  induction runs generalizing progress s s' with
  | nil => exact ⟨[], s, s', rfl, rfl, hs⟩
  | cons first runs ih =>
    obtain ⟨driver, choice⟩ := first
    obtain ⟨r, p, t, t', hrun, hrun', ht⟩ :=
      veiledStep_run ha hb source templates choice hworld (progress driver) hs
    obtain ⟨turns, u, u', hrest, hrest', hu⟩ := ih (Function.update progress driver p) ht
    refine ⟨⟨progress driver, r, p⟩ :: turns, u, u', ?_, ?_, hu⟩
    · rw [serve, hrun]
      dsimp only
      rw [hrest]
    · rw [serve, hrun']
      dsimp only
      rw [hrest']

/-- With one token or another one, in worlds that answer the same, loading a registry and running any
drivers for it comes to the same listing and the same turns, and what happens is the same but for the
tokens that the requests show. -/
theorem visit_twin (source : Source) {world world' : World} (hworld : world.Twin a b world')
    (runs : List (Nat × Choice)) {s s' : Session} (hs : s.Twin a b s') :
    (visit (source.showing b) world' runs s').listing =
        (visit (source.showing a) world runs s).listing ∧
      (visit (source.showing b) world' runs s').turns =
        (visit (source.showing a) world runs s).turns ∧
      (visit (source.showing a) world runs s).session.Twin a b
        (visit (source.showing b) world' runs s').session := by
  obtain ⟨r, t, t', hload, hload', ht⟩ := Registry.veiled_load ha hb source hworld hs
  unfold visit
  rw [hload, hload']
  cases r with
  | error f => exact ⟨rfl, rfl, ht⟩
  | ok listing =>
    obtain ⟨turns, u, u', hserve, hserve', hu⟩ :=
      serve_twin ha hb source listing.templates hworld runs (fun _ => .start) ht
    dsimp only
    rw [hserve, hserve']
    exact ⟨rfl, rfl, hu⟩

omit ha hb

/-- A registry with one plain repository. -/
def siteRegistry : String :=
  "templates: [\x7bname: site, type: gitRepo, organization: acme, repository: site\x7d]"

/-- A visit with two different tokens comes to the same. -/
theorem visit_twin_site :
    Remote.isHeaderText "first" = true ∧ Remote.isHeaderText "second" = true ∧
      (visit (Source.standard.showing "first") (.steady siteRegistry fun _ => none)
        [(0, ⟨0, "out", true⟩), (1, ⟨1, "out", false⟩)] ⟨[], default⟩).turns.length = 2 ∧
      (visit (Source.standard.showing "second") (.steady siteRegistry fun _ => none)
          [(0, ⟨0, "out", true⟩), (1, ⟨1, "out", false⟩)] ⟨[], default⟩).turns =
        (visit (Source.standard.showing "first") (.steady siteRegistry fun _ => none)
          [(0, ⟨0, "out", true⟩), (1, ⟨1, "out", false⟩)] ⟨[], default⟩).turns := by
  have hfirst : Remote.isHeaderText "first" = true := by decide
  have hsecond : Remote.isHeaderText "second" = true := by decide
  obtain ⟨-, hturns, -⟩ := visit_twin hfirst hsecond .standard
    (World.twin_steady "first" "second" siteRegistry fun _ => none)
    [(0, ⟨0, "out", true⟩), (1, ⟨1, "out", false⟩)] (Session.twin_empty default)
  exact ⟨hfirst, hsecond, by decide +kernel, hturns⟩

end Scaffold

end Scaffolding
