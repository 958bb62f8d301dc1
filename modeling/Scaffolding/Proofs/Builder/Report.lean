import Scaffolding.Proofs.Files.Make
import Scaffolding.Proofs.Scaffold.Parts
import Scaffolding.Proofs.Text.Blank

/-!
# What a build reports

A build is told here by its ways: the directory of a clone cannot be made, the command cannot be started,
it does not succeed, Nix prints no path, its output cannot be copied, or the project is there. Building
goes one of these ways, and each of them has one result and leaves one session.

Whatever way is not the last one ends with a failure of the build, and the failure keeps its cause: what
the command reported, or the error of the system.
-/

set_option autoImplicit false

namespace Scaffolding

/-! ## Causes -/

/-- A text that is part of another one. -/
def Text.IsIn (part whole : String) : Prop :=
  part.toList <:+: whole.toList

/-- What is to be told of a command that ran: its errors without the blanks around them, without errors
its output, and without output how it ended. -/
inductive Tool.Outcome.Tells (o : Outcome) : String → Prop
  | errors {text : String} (h : Text.isBlankText o.stderr = false)
      (htext : Text.Trimmed o.stderr.toList text.toList) : Tells o text
  | output {text : String} (hstderr : Text.isBlankText o.stderr = true)
      (h : Text.isBlankText o.stdout = false)
      (htext : Text.Trimmed o.stdout.toList text.toList) : Tells o text
  | status {code : Int} (hstderr : Text.isBlankText o.stderr = true)
      (hstdout : Text.isBlankText o.stdout = true) (h : o.code = some code) :
      Tells o ("exited with status " ++ toString code)
  | signal (hstderr : Text.isBlankText o.stderr = true) (hstdout : Text.isBlankText o.stdout = true)
      (h : o.code = none) : Tells o "terminated by signal"

/-- The first line that is not blank, without the blanks around it. -/
def Text.FirstLine (text line : String) : Prop :=
  ∃ before raw after, Text.lines text = before ++ raw :: after ∧
    (∀ blank ∈ before, Text.isBlankText blank = true) ∧ Text.isBlankText raw = false ∧
    Text.Trimmed raw.toList line.toList

/-- A step stops with an error, and what it did before stays done. -/
def Files.Stops {α : Type} (step : Step α) (files : Files) (e : SystemError) (now : Files) : Prop :=
  step.run.run files = (.error e, now)

/-- The path of a build is the first line of its output that says something. -/
theorem Nix.outputPath?_eq_some_iff {stdout path : String} :
    outputPath? stdout = some path ↔ Text.FirstLine stdout path := by
  unfold outputPath? Text.FirstLine
  rw [List.find?_map, Option.map_eq_some_iff]
  simp only [List.find?_eq_some_iff_append, Function.comp_apply, Text.isEmpty_trim,
    Text.trimmed_iff_trim, Bool.not_eq_true', Bool.not_not]
  constructor
  · rintro ⟨raw, ⟨hraw, before, after, hlines, hblank⟩, hpath⟩
    exact ⟨before, raw, after, hlines, hblank, hraw, hpath⟩
  · rintro ⟨before, raw, after, hlines, hblank, hraw, hpath⟩
    exact ⟨raw, ⟨hraw, before, after, hlines, hblank⟩, hpath⟩

/-- There is no such path exactly if every line of the output is blank. -/
theorem Nix.outputPath?_eq_none_iff {stdout : String} :
    outputPath? stdout = none ↔ ∀ line ∈ Text.lines stdout, Text.isBlankText line = true := by
  simp [outputPath?, Text.isEmpty_trim]

/-! ## Ways of building -/

namespace Builder

variable {b : Builder} {d : Template.Descriptor} {settings : Settings} {output : String}
  {stdout : String} {world : World}
  {s s₁ s₂ s' : Session} {r : Except Failure Unit}

/-- The session in which the command of a builder runs: a plain repository has its directory made
before. -/
inductive Ready (output : String) (s : Session) : Builder → Session → Prop
  | nix : Ready output s nix s
  | cookiecutter : Ready output s cookiecutter s
  | gitRepo {files : Files} (h : Files.Does (Files.makeDirectories output) s.files () files) :
      Ready output s gitRepo ⟨s.events ++ [.changed (.makeDirectories output)], files⟩

/-- What is done after the command has succeeded: the output of Nix is copied. -/
inductive Delivered (output : String) (stdout : String) (s : Session) : Builder → Session → Prop
  | nix {path : String} {n : Nat} {files : Files} (hpath : Text.FirstLine stdout path)
      (hcopy : Files.Does (Files.copyContents path output) s.files n files) :
      Delivered output stdout s nix ⟨s.events ++ [.changed (.copyContents path output)], files⟩
  | cookiecutter : Delivered output stdout s cookiecutter s
  | gitRepo : Delivered output stdout s gitRepo s

/-- The name of the tool in messages. -/
def engine : Builder → String
  | nix => "nix"
  | cookiecutter => "cookiecutter"
  | gitRepo => "git"

/-- What a failure shows of a command that did not succeed. -/
def diagnostic : Builder → Tool.Outcome → String
  | nix => Nix.buildDiagnostic
  | cookiecutter => Tool.Outcome.diagnostic
  | gitRepo => Tool.Outcome.diagnostic

/-- The ways of building, each with its result and the session that it leaves. -/
inductive Way (d : Template.Descriptor) (settings : Settings) (output : String) (world : World)
    (s : Session) : Builder → Except Failure Unit → Session → Prop
  | unmade {e : SystemError} {files : Files}
      (hmake : Files.Stops (Files.makeDirectories output) s.files e files) :
      Way d settings output world s gitRepo
        (.error (.build d.name ("failed to create " ++ output ++ ": " ++ e.text)))
        ⟨s.events ++ [.changed (.makeDirectories output)], files⟩
  | unstarted {b : Builder} {s₁ s₂ : Session} {e : SystemError} (hready : Ready output s b s₁)
      (hrun : Session.run (b.command d settings output) world s₁ = (.error e, s₂)) :
      Way d settings output world s b
        (.error (.build d.name ("failed to run " ++ b.engine ++ ": " ++ e.text))) s₂
  | unsuccessful {b : Builder} {s₁ s₂ : Session} {o : Tool.Outcome} (hready : Ready output s b s₁)
      (hrun : Session.run (b.command d settings output) world s₁ = (.ok o, s₂))
      (hfails : o.success = false) :
      Way d settings output world s b (.error (.build d.name (b.diagnostic o))) s₂
  | unprinted {s₂ : Session} {o : Tool.Outcome}
      (hrun : Session.run (nix.command d settings output) world s = (.ok o, s₂))
      (hsucceeds : o.success = true)
      (hblank : ∀ line ∈ Text.lines o.stdout, Text.isBlankText line = true) :
      Way d settings output world s nix
        (.error (.build d.name "nix build printed no output path")) s₂
  | uncopied {s₂ : Session} {o : Tool.Outcome} {path : String} {e : SystemError} {files : Files}
      (hrun : Session.run (nix.command d settings output) world s = (.ok o, s₂))
      (hsucceeds : o.success = true) (hpath : Text.FirstLine o.stdout path)
      (hcopy : Files.Stops (Files.copyContents path output) s₂.files e files) :
      Way d settings output world s nix
        (.error (.build d.name
          ("failed to copy " ++ path ++ " into " ++ output ++ ": " ++ e.text)))
        ⟨s₂.events ++ [.changed (.copyContents path output)], files⟩
  | built {b : Builder} {s₁ s₂ s' : Session} {o : Tool.Outcome} (hready : Ready output s b s₁)
      (hrun : Session.run (b.command d settings output) world s₁ = (.ok o, s₂))
      (hsucceeds : o.success = true) (hdelivered : Delivered output o.stdout s₂ b s') :
      Way d settings output world s b (.ok ()) s'

/-! ## The steps of a build -/

/-- The result of running a command, by its reply. -/
def resultOf (template engine : String) (diagnostic : Tool.Outcome → String) :
    Tool.Reply → Except Failure String
  | .error e => .error (.build template ("failed to run " ++ engine ++ ": " ++ e.text))
  | .ok o => if o.success then .ok o.stdout else .error (.build template (diagnostic o))

/-- What running the command of a build comes to is told by the reply of the system. -/
theorem outcome_runBuild_eq {template engine : String} {diagnostic : Tool.Outcome → String}
    {call : Tool.Command} {reply : Tool.Reply} (h : Session.run call world s = (reply, s')) :
    outcome (runBuild template engine diagnostic call) world s =
      (resultOf template engine diagnostic reply, s') := by
  have hreply : (world.run s.events s.files call).1 = reply := congrArg Prod.fst h
  have hsession : ⟨s.events ++ [.ran call], (world.run s.events s.files call).2⟩ = s' :=
    congrArg Prod.snd h
  rw [runBuild, outcome_run_bind, hreply, hsession]
  cases reply with
  | error e => rfl
  | ok o =>
    dsimp only [resultOf]
    cases o.success <;> rfl

/-- A change of the files that is carried out is noted, and the files are as it leaves them. -/
theorem outcome_changeFor_done {template what : String} {deed : Deed} {files : Files}
    (h : Files.Does deed.step s.files () files) :
    outcome (changeFor template what deed) world s =
      (.ok (), ⟨s.events ++ [.changed deed], files⟩) := by
  have hstep : deed.step.run s.files = (.ok (), files) := h
  rw [changeFor, outcome_change_bind, hstep]
  rfl

/-- A change that stops fails the build with what it was for and the error of the system. -/
theorem outcome_changeFor_stopped {template what : String} {deed : Deed} {e : SystemError}
    {files : Files} (h : Files.Stops deed.step s.files e files) :
    outcome (changeFor template what deed) world s =
      (.error (.build template (what ++ ": " ++ e.text)), ⟨s.events ++ [.changed deed], files⟩) := by
  have hstep : deed.step.run s.files = (.error e, files) := h
  rw [changeFor, outcome_change_bind, hstep]
  rfl

/-- Copying does what its step does, the number of files aside. -/
theorem does_copy {path target : String} {files now : Files} {n : Nat}
    (h : Files.Does (Files.copyContents path target) files n now) :
    Files.Does (Deed.copyContents path target).step files () now :=
  h.bind (Files.does_pure () now)

/-- It also stops where its step stops. -/
theorem stops_copy {path target : String} {files now : Files} {e : SystemError}
    (h : Files.Stops (Files.copyContents path target) files e now) :
    Files.Stops (Deed.copyContents path target).step files e now := by
  unfold Files.Stops at *
  change ((Files.copyContents path target >>= fun _ => pure ()) : Files.Step Unit).run.run files = _
  rw [ExceptT.run_bind, StateT.run_bind, h]
  rfl

/-- What a builder does once its command has succeeded. -/
def deliver (d : Template.Descriptor) (output stdout : String) : Builder → Attempt Unit
  | nix =>
    match Nix.outputPath? stdout with
    | none => throw (.build d.name "nix build printed no output path")
    | some path =>
      changeFor d.name ("failed to copy " ++ path ++ " into " ++ output)
        (.copyContents path output)
  | cookiecutter => return
  | gitRepo => return

/-- A builder that is ready runs its command and delivers what comes of it. -/
theorem outcome_build_of_ready (h : Ready output s b s₁) :
    outcome (b.build d (b.encode settings) output) world s =
      outcome (runBuild d.name b.engine b.diagnostic (b.command d settings output) >>=
        fun stdout => b.deliver d output stdout) world s₁ := by
  cases h with
  | nix => rfl
  | cookiecutter => rfl
  | gitRepo h =>
    have hmade : outcome (changeFor d.name ("failed to create " ++ output)
        (.makeDirectories output)) world s = _ := outcome_changeFor_done h
    change outcome (changeFor d.name _ _ >>= fun _ => _) world s = _
    rw [outcome_bind, hmade]
    rfl

/-- A command that succeeded leaves the delivery to be done. -/
theorem outcome_build_of_success {o : Tool.Outcome} (hready : Ready output s b s₁)
    (hrun : Session.run (b.command d settings output) world s₁ = (.ok o, s₂))
    (hsucceeds : o.success = true) :
    outcome (b.build d (b.encode settings) output) world s =
      outcome (b.deliver d output o.stdout) world s₂ := by
  have hresult : resultOf d.name b.engine b.diagnostic (.ok o) = .ok o.stdout := if_pos hsucceeds
  rw [outcome_build_of_ready hready, outcome_bind, outcome_runBuild_eq hrun, hresult]

/-- A build whose output was delivered succeeds. -/
theorem outcome_deliver (h : Delivered output stdout s b s') :
    outcome (b.deliver d output stdout) world s = (.ok (), s') := by
  cases h with
  | nix hpath hcopy =>
    rw [deliver.eq_def, Nix.outputPath?_eq_some_iff.mpr hpath]
    exact outcome_changeFor_done (does_copy hcopy)
  | cookiecutter => rfl
  | gitRepo => rfl

/-- Building comes to what the way says. -/
theorem Way.outcome_build (h : Way d settings output world s b r s') :
    outcome (b.build d (b.encode settings) output) world s = (r, s') := by
  cases h with
  | unmade hmake =>
    have hstopped : outcome (changeFor d.name ("failed to create " ++ output)
        (.makeDirectories output)) world s = _ := outcome_changeFor_stopped hmake
    change outcome (changeFor d.name _ _ >>= fun _ => _) world s = _
    rw [outcome_bind, hstopped]
  | unstarted hready hrun =>
    rw [outcome_build_of_ready hready, outcome_bind, outcome_runBuild_eq hrun]
    rfl
  | @unsuccessful _ _ _ o hready hrun hfails =>
    have hresult : resultOf d.name b.engine b.diagnostic (.ok o) =
        .error (.build d.name (b.diagnostic o)) := if_neg (by simp [hfails])
    rw [outcome_build_of_ready hready, outcome_bind, outcome_runBuild_eq hrun, hresult]
  | unprinted hrun hsucceeds hblank =>
    rw [outcome_build_of_success .nix hrun hsucceeds, deliver.eq_def,
      Nix.outputPath?_eq_none_iff.mpr hblank]
    rfl
  | uncopied hrun hsucceeds hpath hcopy =>
    rw [outcome_build_of_success .nix hrun hsucceeds, deliver.eq_def,
      Nix.outputPath?_eq_some_iff.mpr hpath]
    exact outcome_changeFor_stopped (stops_copy hcopy)
  | built hready hrun hsucceeds hdelivered =>
    rw [outcome_build_of_success hready hrun hsucceeds]
    exact outcome_deliver hdelivered

/-- From where a builder is ready there is always a way. -/
theorem Ready.exists_way (h : Ready output s b s₁) (d : Template.Descriptor) (settings : Settings)
    (world : World) : ∃ r s', Way d settings output world s b r s' := by
  rcases hrun : Session.run (b.command d settings output) world s₁ with ⟨e | o, s₂⟩
  · exact ⟨_, _, .unstarted h hrun⟩
  cases hsuccess : o.success with
  | false => exact ⟨_, _, .unsuccessful h hrun hsuccess⟩
  | true =>
    cases h with
    | cookiecutter => exact ⟨_, _, .built .cookiecutter hrun hsuccess .cookiecutter⟩
    | gitRepo h => exact ⟨_, _, .built (.gitRepo h) hrun hsuccess .gitRepo⟩
    | nix =>
      cases hpath : Nix.outputPath? o.stdout with
      | none =>
        rw [Nix.outputPath?_eq_none_iff] at hpath
        exact ⟨_, _, .unprinted hrun hsuccess hpath⟩
      | some path =>
        rw [Nix.outputPath?_eq_some_iff] at hpath
        rcases hcopy : (Files.copyContents path output).run.run s₂.files with ⟨e | n, files⟩
        · exact ⟨_, _, .uncopied hrun hsuccess hpath hcopy⟩
        · exact ⟨_, _, .built .nix hrun hsuccess (.nix hpath hcopy)⟩

/-- Every build goes one of the ways. -/
theorem way_outcome (b : Builder) (d : Template.Descriptor) (settings : Settings) (output : String)
    (world : World) (s : Session) :
    Way d settings output world s b (outcome (b.build d (b.encode settings) output) world s).1
      (outcome (b.build d (b.encode settings) output) world s).2 := by
  have hway : ∃ r s', Way d settings output world s b r s' := by
    cases b with
    | nix => exact Ready.nix.exists_way d settings world
    | cookiecutter => exact Ready.cookiecutter.exists_way d settings world
    | gitRepo =>
      rcases hmake : (Files.makeDirectories output).run.run s.files with ⟨e | ⟨⟩, files⟩
      · exact ⟨_, _, .unmade hmake⟩
      · exact (Ready.gitRepo hmake).exists_way d settings world
  obtain ⟨r, s', h⟩ := hway
  rw [h.outcome_build]
  exact h

/-! ## Reports -/

/-- A text that says something still does so with more behind it. -/
theorem not_isBlankText_append {front : String} (h : Text.isBlankText front = false) (rest : String) :
    Text.isBlankText (front ++ rest) = false := by
  rw [Text.isBlankText_append, h, Bool.false_and]

/-- A text holds what stands at its end. -/
theorem isIn_append (front part : String) : Text.IsIn part (front ++ part) := by
  rw [Text.IsIn, String.toList_append]
  exact (List.suffix_append _ _).isInfix

/-- The diagnostic of an outcome tells all there is to tell of it. -/
theorem tells_diagnostic (o : Tool.Outcome) : o.Tells o.diagnostic := by
  unfold Tool.Outcome.diagnostic
  cases hstderr : Text.isBlankText o.stderr with
  | false => exact .errors hstderr (Text.trimmed_iff_trim.mpr rfl)
  | true =>
    cases hstdout : Text.isBlankText o.stdout with
    | false => exact .output hstderr hstdout (Text.trimmed_iff_trim.mpr rfl)
    | true =>
      change o.Tells o.ending
      unfold Tool.Outcome.ending
      split
      · next hcode => exact .status hstderr hstdout hcode
      · next hcode => exact .signal hstderr hstdout hcode

/-- What tells of an outcome is not blank. -/
theorem not_isBlankText_of_tells {o : Tool.Outcome} {text : String} (h : o.Tells text) :
    Text.isBlankText text = false := by
  cases h with
  | errors h htext => rw [← Text.trimmed_iff_trim.mp htext, Text.isBlankText_trim, h]
  | output _ h htext => rw [← Text.trimmed_iff_trim.mp htext, Text.isBlankText_trim, h]
  | status => exact not_isBlankText_append (by decide) _
  | signal => decide

/-- Whichever builder it is, a failure shows what is to be told of the command and is not blank. Nix shows
the errors of its command as they are, blanks around them included. -/
theorem diagnostic_tells (b : Builder) (o : Tool.Outcome) :
    (∃ text, o.Tells text ∧ Text.IsIn text (b.diagnostic o)) ∧
      Text.isBlankText (b.diagnostic o) = false := by
  have hplain : (∃ text, o.Tells text ∧ Text.IsIn text o.diagnostic) ∧
      Text.isBlankText o.diagnostic = false :=
    ⟨⟨_, tells_diagnostic o, List.infix_refl _⟩, not_isBlankText_of_tells (tells_diagnostic o)⟩
  cases b with
  | nix =>
    change (∃ text, o.Tells text ∧ Text.IsIn text (Nix.buildDiagnostic o)) ∧
      Text.isBlankText (Nix.buildDiagnostic o) = false
    unfold Nix.buildDiagnostic
    split
    · exact hplain
    · next hstderr =>
      rw [Bool.not_eq_true] at hstderr
      have htrimmed : Text.IsIn (Text.trim o.stderr) o.stderr := by
        rw [Text.IsIn, Text.trim, String.toList_ofList]
        exact Text.trimChars_infix _
      exact ⟨⟨_, .errors hstderr (Text.trimmed_iff_trim.mpr rfl), htrimmed⟩, hstderr⟩
  | cookiecutter => exact hplain
  | gitRepo => exact hplain

/-- A way that ends with a failure ends with one of the build, which names the template and says
something. -/
theorem Way.failure {f : Failure} (h : Way d settings output world s b (.error f) s') :
    ∃ diagnostic, f = .build d.name diagnostic ∧ Text.isBlankText diagnostic = false := by
  have hfront : ∀ {front : String}, Text.isBlankText front = false → ∀ a c e : String,
      Text.isBlankText (front ++ a ++ c ++ e) = false := fun h a c e =>
    not_isBlankText_append (not_isBlankText_append (not_isBlankText_append h a) c) e
  cases h with
  | unmade => exact ⟨_, rfl, hfront (by decide) _ _ _⟩
  | unstarted => exact ⟨_, rfl, hfront (by decide) _ _ _⟩
  | unsuccessful => exact ⟨_, rfl, (diagnostic_tells b _).2⟩
  | unprinted => exact ⟨_, rfl, by decide⟩
  | uncopied =>
    exact ⟨_, rfl, not_isBlankText_append (not_isBlankText_append (hfront (by decide) _ _ _) _) _⟩

/-- What a build reports, from one session to another. -/
structure Reported (b : Builder) (d : Template.Descriptor) (settings : Settings) (output : String)
    (world : World) (s : Session) (r : Except Failure Unit) (s' : Session) : Prop where
  /-- A build succeeds exactly if its command was started and succeeded and, for Nix, the path in the
  first line that says something was copied. -/
  succeeds_iff : r = .ok () ↔ ∃ s₁ o s₂, Ready output s b s₁ ∧
    Session.run (b.command d settings output) world s₁ = (.ok o, s₂) ∧ o.success = true ∧
    Delivered output o.stdout s₂ b s'
  /-- Every failure is one of the build, names the template and says something. -/
  fails : ∀ f, r = .error f →
    ∃ diagnostic, f = .build d.name diagnostic ∧ Text.isBlankText diagnostic = false
  /-- A command that did not succeed is told of, and nothing is done after it. -/
  unsuccessful : ∀ s₁ o s₂, Ready output s b s₁ →
    Session.run (b.command d settings output) world s₁ = (.ok o, s₂) → o.success = false →
    (∃ diagnostic text, r = .error (.build d.name diagnostic) ∧ o.Tells text ∧
      Text.IsIn text diagnostic) ∧ s' = s₂
  /-- If the command could not be started, the error is kept, and nothing is done after it. -/
  unstarted : ∀ s₁ e s₂, Ready output s b s₁ →
    Session.run (b.command d settings output) world s₁ = (.error e, s₂) →
    (∃ diagnostic, r = .error (.build d.name diagnostic) ∧ Text.IsIn e.text diagnostic) ∧ s' = s₂
  /-- If the directory of a clone could not be made, the error is kept. -/
  unmade : b = gitRepo → ∀ e files, Files.Stops (Files.makeDirectories output) s.files e files →
    ∃ diagnostic, r = .error (.build d.name diagnostic) ∧ Text.IsIn e.text diagnostic
  /-- If the output of Nix could not be copied, the error is kept. -/
  uncopied : b = nix → ∀ o s₂ path e files,
    Session.run (b.command d settings output) world s = (.ok o, s₂) → o.success = true →
    Text.FirstLine o.stdout path →
    Files.Stops (Files.copyContents path output) s₂.files e files →
    ∃ diagnostic, r = .error (.build d.name diagnostic) ∧ Text.IsIn e.text diagnostic

/-- With the configuration that it makes of some settings, every builder reports what became of its
build, in every world and whatever the directory is. -/
theorem build_reported (b : Builder) (d : Template.Descriptor) (settings : Settings)
    (output : String) (world : World) (s : Session) :
    Reported b d settings output world s
      (outcome (b.build d (b.encode settings) output) world s).1
      (outcome (b.build d (b.encode settings) output) world s).2 := by
  have hway := way_outcome b d settings output world s
  have hunique : ∀ {r s'}, Way d settings output world s b r s' →
      outcome (b.build d (b.encode settings) output) world s = (r, s') := Way.outcome_build
  generalize outcome (b.build d (b.encode settings) output) world s = out at hway hunique
  obtain ⟨r, s'⟩ := out
  dsimp only at hway ⊢
  constructor
  case succeeds_iff =>
    constructor
    · rintro rfl
      cases hway with
      | built hready hrun hsucceeds hdelivered =>
        exact ⟨_, _, _, hready, hrun, hsucceeds, hdelivered⟩
    · rintro ⟨s₁, o, s₂, hready, hrun, hsucceeds, hdelivered⟩
      exact congrArg Prod.fst (hunique (.built hready hrun hsucceeds hdelivered))
  case fails =>
    rintro f rfl
    exact hway.failure
  case unsuccessful =>
    intro s₁ o s₂ hready hrun hfails
    cases hunique (.unsuccessful hready hrun hfails)
    obtain ⟨⟨text, htells, hin⟩, -⟩ := diagnostic_tells b o
    exact ⟨⟨_, text, rfl, htells, hin⟩, rfl⟩
  case unstarted =>
    intro s₁ e s₂ hready hrun
    cases hunique (.unstarted hready hrun)
    exact ⟨⟨_, rfl, isIn_append _ _⟩, rfl⟩
  case unmade =>
    rintro rfl e files hmake
    cases hunique (.unmade hmake)
    exact ⟨_, rfl, isIn_append _ _⟩
  case uncopied =>
    rintro rfl o s₂ path e files hrun hsucceeds hpath hcopy
    cases hunique (.uncopied hrun hsucceeds hpath hcopy)
    exact ⟨_, rfl, isIn_append _ _⟩

end Builder

end Scaffolding
