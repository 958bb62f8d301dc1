import Scaffolding.Proofs.Remote.Fetch
import Scaffolding.Proofs.Yaml.Record
import Scaffolding.Registry.Listing

/-!
# Every entry of a registry is accounted for

A listing is made in two passes, first over the entries that can be read and then over the kinds of
the templates in them, and what the passes leave out is joined in the end. Here each entry has a fate
of its own, told from its value and its position alone: it is malformed, or a template of an unknown
kind, or one that can be used. A listing puts the fates of all entries in order, and loading a
registry gives such a listing whenever its document is answered, is not blank and is a registry.

That a fate depends on nothing but its own entry is what keeps the entries apart: whatever is put in
the place of one of them, the others have the fates that they had.
-/

set_option autoImplicit false

namespace Scaffolding

/-! ## Words for builders -/

/-- The words for the ways in which a template is built. -/
def Builder.words : List (String × Builder) :=
  [("nix", .nix), ("cookiecutter", .cookiecutter), ("gitRepo", .gitRepo), ("git_repo", .gitRepo),
    ("git", .gitRepo)]

/-- A template has the builder that the word for its kind names, blanks around it aside. -/
theorem Builder.ofKind?_ofWord (word : String) :
    ofKind? (.ofWord word) = words.lookup (Text.trim word) := by
  unfold Template.Kind.ofWord
  split
  case h_6 hnix hcookiecutter hgitRepo hgit_repo hgit =>
    refine (List.lookup_eq_none_iff.mpr ?_).symm
    simpa [words] using ⟨hnix, hcookiecutter, hgitRepo, hgit_repo, hgit⟩
  all_goals
    next h => rw [h]; rfl

/-- Kinds with the same builder are the same kind. -/
theorem Builder.ofKind?_inj {k l : Template.Kind} {b : Builder} (hk : ofKind? k = some b)
    (hl : ofKind? l = some b) : k = l := by
  cases k <;> cases hk <;> cases l <;> cases hl <;> rfl

/-- A kind that nothing builds keeps its word as it is written. -/
theorem Template.Kind.word_ofWord {word : String} (h : Builder.ofKind? (.ofWord word) = none) :
    (ofWord word).word = word := by
  unfold ofWord at h ⊢
  split at h <;> first | rfl | cases h

namespace Registry

/-! ## Fates -/

/-- What becomes of an entry. -/
inductive Fate
  /-- It is left out since it cannot be read. -/
  | malformed (item : Listing.Skipped)
  /-- It is left out since nothing builds its kind. -/
  | unknown (item : Listing.Skipped)
  /-- It is a template that can be used. -/
  | usable (template : Template)

namespace Fate

def malformed? : Fate → Option Listing.Skipped
  | malformed item => some item
  | _ => none

def unknown? : Fate → Option Listing.Skipped
  | unknown item => some item
  | _ => none

def usable? : Fate → Option Template
  | usable t => some t
  | _ => none

/-- Every fate is of one of the three sorts. -/
theorem length_filterMap (fates : List Fate) :
    (fates.filterMap usable?).length +
      ((fates.filterMap malformed?).length + (fates.filterMap unknown?).length) =
        fates.length := by
  induction fates with
  | nil => rfl
  | cons fate fates ih =>
    cases fate <;> simp [List.filterMap_cons, usable?, malformed?, unknown?] <;> omega

end Fate

/-- What is given stands unless it is empty, and the standard stands in its place. -/
def FilledIn (given : Option String) (standard text : String) : Prop :=
  given = some text ∧ text ≠ "" ∨ (given = none ∨ given = some "") ∧ text = standard

/-- A descriptor says what an entry says, with the branch of the registry and the usual path of the
schema filled in. -/
structure Describes (registryBranch : String) (v : Yaml.Value) (d : Template.Descriptor) : Prop where
  name : v.textUnder? ["name"] = some d.name
  description : d.description = (v.textUnder? ["description"]).getD ""
  organization : v.textUnder? ["organization"] = some d.organization
  repository : v.textUnder? ["repository"] = some d.repository
  branch : FilledIn (v.textUnder? ["branch"]) registryBranch d.branch
  schemaPath : FilledIn (v.textUnder? ["configPath", "config_path"]) "config.yaml" d.schemaPath

/-- The label of an entry: its name if that is a text, or else its position. -/
inductive Labelled (position : Nat) (v : Yaml.Value) : String → Prop
  | name {value : Yaml.Value} {name : String} (hname : v.get? "name" = some value)
      (htext : value.untag = .string name) : Labelled position v name
  | position (hname : ∀ value, v.get? "name" = some value → ∀ name, value.untag ≠ .string name) :
      Labelled position v ("entry #" ++ toString position)

/-- The fate that is due to an entry at a position of a registry. -/
inductive Due (branch : String) (position : Nat) (v : Yaml.Value) : Fate → Prop
  | malformed {e : Yaml.Mismatch} {label : String} (hread : Entry.read v = .error e)
      (hlabel : Labelled position v label) :
      Due branch position v
        (.malformed ⟨label, .retrieval ("registry entry '" ++ label ++ "'") e.message⟩)
  | unknown {e : Entry} {name word : String} (hread : Entry.read v = .ok e)
      (hname : v.textUnder? ["name"] = some name) (hword : v.textUnder? ["type"] = some word)
      (hnone : Builder.words.lookup (Text.trim word) = none) :
      Due branch position v (.unknown ⟨name, .unknownKind name word⟩)
  | usable {e : Entry} {t : Template} {word : String} (hread : Entry.read v = .ok e)
      (hword : v.textUnder? ["type"] = some word)
      (hbuilder : Builder.words.lookup (Text.trim word) = some t.builder)
      (hkind : Builder.ofKind? t.descriptor.kind = some t.builder)
      (hdescribes : Describes branch v t.descriptor) : Due branch position v (.usable t)

/-- The fates of entries, each of which has the one that is due to it at its position. -/
def Accounts (branch : String) (values : List Yaml.Value) (fates : List Fate) : Prop :=
  fates.length = values.length ∧
    ∀ i v, values[i]? = some v → ∃ fate, fates[i]? = some fate ∧ Due branch (i + 1) v fate

/-- A listing that puts the fates of entries in order: the templates that can be used as they come,
and what is left out with the malformed entries first. -/
structure Accounted (branch : String) (values : List Yaml.Value) (listing : Listing)
    (fates : List Fate) : Prop where
  accounts : Accounts branch values fates
  /-- There is no other way to account for the entries. -/
  sole : ∀ others, Accounts branch values others → others = fates
  templates : listing.templates = fates.filterMap Fate.usable?
  skipped : listing.skipped = fates.filterMap Fate.malformed? ++ fates.filterMap Fate.unknown?
  /-- No entry is lost, and none is there twice. -/
  complete : listing.templates.length + listing.skipped.length = values.length

/-! ## What an entry says -/

/-- A text that is filled in is the one that the entry takes. -/
theorem filledIn_iff {given : Option String} {standard text : String} :
    FilledIn given standard text ↔ text = Entry.orElse given standard := by
  unfold FilledIn Entry.orElse
  rcases given with - | s
  · simp
  · by_cases hs : s = ""
    · simp [hs, Option.filter]
    · simp only [Option.some.injEq, reduceCtorEq, hs, false_and, or_false]
      rw [Option.filter_some, if_pos (by simpa using hs), Option.getD_some, eq_comm]
      exact and_iff_left_of_imp fun h => h ▸ hs

/-- The label that is due is the one that the entry gets. -/
theorem labelled_iff {position : Nat} {v : Yaml.Value} {label : String} :
    Labelled position v label ↔ label = Manifest.label position v := by
  unfold Manifest.label
  constructor
  · rintro (⟨hname, htext⟩ | hname)
    · simp [hname, htext, Yaml.Value.text?]
    · split
      · next name hfound =>
        obtain ⟨value, hvalue, htext⟩ := Option.bind_eq_some_iff.mp hfound
        exact absurd (Yaml.Value.text?_eq_some_iff.mp htext) (hname value hvalue name)
      · rfl
  · rintro rfl
    split
    · next name hfound =>
      obtain ⟨value, hvalue, htext⟩ := Option.bind_eq_some_iff.mp hfound
      exact .name hvalue (Yaml.Value.text?_eq_some_iff.mp htext)
    · next hfound =>
      refine .position fun value hvalue name htext => ?_
      simp [hvalue, htext, Yaml.Value.text?] at hfound

namespace Entry

variable {v : Yaml.Value} {e : Entry} {r : Yaml.Record}

/-- No two fields of an entry share a name. -/
theorem distinct_recordType : recordType.Distinct := by
  decide

/-- An entry that was read is the one of its record. -/
theorem read_cases (h : read v = .ok e) : ∃ r, recordType.read v = .ok r ∧ e = ofRecord r := by
  unfold read at h
  cases hr : recordType.read v with
  | error m =>
    rw [hr] at h
    cases h
  | ok r =>
    rw [hr] at h
    cases h
    exact ⟨r, rfl, rfl⟩

/-- A required field of an entry that was read is a text of its value. -/
theorem textUnder?_required {name : String} (hf : ⟨name, [], .text, true⟩ ∈ recordType.fields)
    (h : recordType.read v = .ok r) : v.textUnder? [name] = some ((r.text? name).getD "") := by
  obtain ⟨s, hs⟩ := Yaml.RecordType.exists_text?_read distinct_recordType hf rfl rfl h
  have hheld := Yaml.RecordType.text?_read distinct_recordType hf (.inl rfl) h
  rw [hheld]
  exact hs.trans (by rw [hs]; rfl)

/-- The descriptor of an entry has its name. -/
theorem name_descriptor (branch : String) (e : Entry) : (e.descriptor branch).name = e.name :=
  rfl

/-- The descriptor of an entry says what the value of the entry says. -/
theorem describes_descriptor (h : read v = .ok e) (branch : String) :
    Describes branch v (e.descriptor branch) := by
  obtain ⟨r, hr, rfl⟩ := read_cases h
  have htext : ∀ f ∈ recordType.fields, f.IsText → r.text? f.name = v.textUnder? f.names :=
    fun f hf hftext => Yaml.RecordType.text?_read distinct_recordType hf hftext hr
  refine ⟨textUnder?_required (by simp [recordType]) hr, ?_,
    textUnder?_required (by simp [recordType]) hr, textUnder?_required (by simp [recordType]) hr,
    ?_, ?_⟩
  · exact congrArg (Option.getD · "")
      (htext ⟨"description", [], .text, false⟩ (by simp [recordType]) (.inl rfl))
  · rw [filledIn_iff]
    exact congrArg (orElse · branch)
      (htext ⟨"branch", [], .optionalText, false⟩ (by simp [recordType]) (.inr rfl))
  · rw [filledIn_iff]
    exact congrArg (orElse · standardSchemaPath)
      (htext ⟨"configPath", ["config_path"], .optionalText, false⟩ (by simp [recordType])
        (.inr rfl))

/-- The kind of an entry is the one that its word names. -/
theorem kind_of_read (h : read v = .ok e) :
    ∃ word, v.textUnder? ["type"] = some word ∧ e.kind = .ofWord word := by
  obtain ⟨r, hr, rfl⟩ := read_cases h
  refine ⟨_, textUnder?_required (by simp [recordType]) hr, ?_⟩
  simp only [ofRecord]

end Entry

/-! ## The fate of an entry -/

/-- What becomes of an entry as it was read. -/
def fateOf (branch : String) : Except (String × Yaml.Mismatch) Entry → Fate
  | .error (label, e) =>
    .malformed ⟨label, .retrieval ("registry entry '" ++ label ++ "'") e.message⟩
  | .ok e =>
    match Template.ofDescriptor (e.descriptor branch) with
    | .ok t => .usable t
    | .error f => .unknown ⟨e.name, f⟩

/-- An entry of a kind that nothing builds is unknown. -/
theorem fateOf_unknown {branch : String} {e : Entry} (h : Builder.ofKind? e.kind = none) :
    fateOf branch (.ok e) = .unknown ⟨e.name, .unknownKind e.name e.kind.word⟩ := by
  simp [fateOf, Template.ofDescriptor, Entry.descriptor, h]

/-- An entry of a kind with a builder can be used. -/
theorem fateOf_usable {branch : String} {e : Entry} {b : Builder}
    (h : Builder.ofKind? e.kind = some b) :
    fateOf branch (.ok e) = .usable ⟨e.descriptor branch, b⟩ := by
  simp [fateOf, Template.ofDescriptor, Entry.descriptor, h]

/-- The fate of an entry is one that is due to it. -/
theorem due_fateOf (branch : String) (position : Nat) (v : Yaml.Value) :
    Due branch position v (fateOf branch (Manifest.readEntry position v)) := by
  unfold Manifest.readEntry
  cases hread : Entry.read v with
  | error e => exact .malformed hread (labelled_iff.mpr rfl)
  | ok e =>
    obtain ⟨word, hword, hkind⟩ := Entry.kind_of_read hread
    have hdescribes := Entry.describes_descriptor hread branch
    have hbuilder : Builder.ofKind? e.kind = Builder.words.lookup (Text.trim word) := by
      rw [hkind, Builder.ofKind?_ofWord]
    cases hof : Builder.ofKind? e.kind with
    | none =>
      have hwritten : e.kind.word = word := by
        rw [hkind] at hof ⊢
        exact Template.Kind.word_ofWord hof
      rw [fateOf_unknown hof, hwritten]
      exact .unknown hread hdescribes.name hword (hbuilder.symm.trans hof)
    | some b =>
      rw [fateOf_usable hof]
      exact .usable hread hword (hbuilder.symm.trans hof) hof hdescribes

/-- Two descriptors of one kind that say what a value says are the same. -/
theorem Describes.eq {branch : String} {v : Yaml.Value} {d d' : Template.Descriptor}
    (h : Describes branch v d) (h' : Describes branch v d') (hkind : d.kind = d'.kind) :
    d = d' := by
  have hname := Option.some.inj (h.name.symm.trans h'.name)
  have hdescription := h.description.trans h'.description.symm
  have horganization := Option.some.inj (h.organization.symm.trans h'.organization)
  have hrepository := Option.some.inj (h.repository.symm.trans h'.repository)
  have hbranch := (filledIn_iff.mp h.branch).trans (filledIn_iff.mp h'.branch).symm
  have hschema := (filledIn_iff.mp h.schemaPath).trans (filledIn_iff.mp h'.schemaPath).symm
  cases d
  cases d'
  simp_all only

/-- No other fate is due to an entry. -/
theorem Due.eq_fateOf {branch : String} {position : Nat} {v : Yaml.Value} {fate : Fate}
    (h : Due branch position v fate) : fate = fateOf branch (Manifest.readEntry position v) := by
  unfold Manifest.readEntry
  cases h with
  | malformed hread hlabel =>
    rw [hread, labelled_iff.mp hlabel]
    rfl
  | @unknown e name word hread hname hword hnone =>
    obtain ⟨word', hword', hkind⟩ := Entry.kind_of_read hread
    cases hword.symm.trans hword'
    -- the kind that was read is the one that this word names, so it has no builder
    have hof : Builder.ofKind? (.ofWord word) = none := by
      rw [Builder.ofKind?_ofWord, hnone]
    have hsame : e.name = name :=
      Option.some.inj ((Entry.describes_descriptor hread branch).name.symm.trans hname)
    rw [hread]
    dsimp only
    rw [fateOf_unknown (hkind ▸ hof), hsame, hkind, Template.Kind.word_ofWord hof]
  | @usable e t word hread hword hbuilder hkind hdescribes =>
    obtain ⟨word', hword', hkind'⟩ := Entry.kind_of_read hread
    cases hword.symm.trans hword'
    have hof : Builder.ofKind? e.kind = some t.builder := by
      rw [hkind', Builder.ofKind?_ofWord, hbuilder]
    have hsame : t.descriptor = e.descriptor branch :=
      hdescribes.eq (Entry.describes_descriptor hread branch) (Builder.ofKind?_inj hkind hof)
    rw [hread]
    dsimp only
    rw [fateOf_usable hof, ← hsame]

/-! ## The fates of all entries -/

/-- The fates of entries at their positions. -/
def fatesOf (branch : String) (values : List Yaml.Value) : List Fate :=
  values.mapIdx fun i v => fateOf branch (Manifest.readEntry (i + 1) v)

/-- The fates of entries account for them. -/
theorem accounts_fatesOf (branch : String) (values : List Yaml.Value) :
    Accounts branch values (fatesOf branch values) := by
  refine ⟨List.length_mapIdx, fun i v hv => ⟨_, ?_, due_fateOf branch (i + 1) v⟩⟩
  simp [fatesOf, hv]

/-- Nothing else accounts for them. -/
theorem Accounts.eq_fatesOf {branch : String} {values : List Yaml.Value} {fates : List Fate}
    (h : Accounts branch values fates) : fates = fatesOf branch values := by
  obtain ⟨hlength, hdue⟩ := h
  -- the lengths agree, so beyond the last entry there is no fate either
  refine List.ext_getElem? fun i => ?_
  cases hv : values[i]? with
  | none =>
    have hfates : fates[i]? = none := by
      rw [List.getElem?_eq_none_iff] at hv ⊢
      omega
    simp [fatesOf, hv, hfates]
  | some v =>
    obtain ⟨fate, hfate, hdue⟩ := hdue i v hv
    simp [fatesOf, hv, hfate, hdue.eq_fateOf]

/-- Another value at one place leaves the fates at all other places as they are. -/
theorem fatesOf_set (branch : String) (values : List Yaml.Value) (i : Nat) (v : Yaml.Value)
    {j : Nat} (hj : j ≠ i) : (fatesOf branch (values.set i v))[j]? = (fatesOf branch values)[j]? := by
  unfold fatesOf
  rw [List.getElem?_mapIdx, List.getElem?_mapIdx, List.getElem?_set_ne (Ne.symm hj)]

/-! ## Listings -/

/-- The pass that reads an entry and the pass that builds its template find its fate between them. -/
theorem usable?_fateOf (branch : String) (x : Except (String × Yaml.Mismatch) Entry) :
    (fateOf branch x).usable? = (Listing.descriptor? branch x).bind Listing.template? := by
  cases x with
  | error e => rfl
  | ok e =>
    change (fateOf branch (.ok e)).usable? = Listing.template? (e.descriptor branch)
    cases h : Template.ofDescriptor (e.descriptor branch) <;>
      simp [fateOf, Listing.template?, h, Fate.usable?, Except.toOption]

/-- What is left out by the second pass are the unknown entries. -/
theorem unknown?_fateOf (branch : String) (x : Except (String × Yaml.Mismatch) Entry) :
    (fateOf branch x).unknown? = (Listing.descriptor? branch x).bind Listing.skipped? := by
  cases x with
  | error e => rfl
  | ok e =>
    change (fateOf branch (.ok e)).unknown? = Listing.skipped? (e.descriptor branch)
    cases h : Template.ofDescriptor (e.descriptor branch) <;>
      simp [fateOf, Listing.skipped?, h, Fate.unknown?, Entry.name_descriptor]

/-- What is left out by the first pass are the malformed entries. -/
theorem malformed?_fateOf (branch : String) (x : Except (String × Yaml.Mismatch) Entry) :
    (fateOf branch x).malformed? = Listing.malformed? x := by
  cases x with
  | error e => rfl
  | ok e =>
    cases h : Template.ofDescriptor (e.descriptor branch) <;>
      simp [fateOf, Listing.malformed?, h, Fate.malformed?]

/-- A listing puts the fates of the entries of its registry in order. -/
theorem accounted_ofManifest (branch : String) (m : Manifest) :
    Accounted branch m.templates (Listing.ofManifest branch m) (fatesOf branch m.templates) := by
  -- over the entries as they were read, every list of the listing is a filter, and so is the list
  -- of the fates of one sort
  have hfates : fatesOf branch m.templates = m.entries.map (fateOf branch) := by
    refine List.ext_getElem? fun i => ?_
    simp [fatesOf, Manifest.entries, Function.comp_def]
  have htemplates : (Listing.ofManifest branch m).templates =
      (fatesOf branch m.templates).filterMap Fate.usable? := by
    rw [hfates, List.filterMap_map]
    change (m.entries.filterMap (Listing.descriptor? branch)).filterMap Listing.template? = _
    rw [List.filterMap_filterMap, ← funext (usable?_fateOf branch)]
    rfl
  have hmalformed : m.entries.filterMap Listing.malformed? =
      (fatesOf branch m.templates).filterMap Fate.malformed? := by
    rw [hfates, List.filterMap_map, ← funext (malformed?_fateOf branch)]
    rfl
  have hunknown : (m.entries.filterMap (Listing.descriptor? branch)).filterMap Listing.skipped? =
      (fatesOf branch m.templates).filterMap Fate.unknown? := by
    rw [hfates, List.filterMap_map, List.filterMap_filterMap, ← funext (unknown?_fateOf branch)]
    rfl
  have hskipped : (Listing.ofManifest branch m).skipped =
      (fatesOf branch m.templates).filterMap Fate.malformed? ++
        (fatesOf branch m.templates).filterMap Fate.unknown? := by
    rw [← hmalformed, ← hunknown]
    rfl
  refine ⟨accounts_fatesOf branch m.templates, fun others h => h.eq_fatesOf, htemplates, hskipped, ?_⟩
  rw [htemplates, hskipped, List.length_append, Fate.length_filterMap]
  exact List.length_mapIdx

/-! ## Loading -/

/-- The registry of a source, at its address, is answered with a success and a text. -/
structure Answered (source : Source) (world : World) (s : Session) (url : Url) (text : String) :
    Prop where
  composed : source.documentUrl source.owner source.repository source.path source.branch = .ok url
  sendable : (Remote.Request.of source url).flaw? = none
  answered : ∃ status, 200 ≤ status ∧ status < 300 ∧
    world.send s.events (Remote.Request.of source url) = .answered status text

section

variable {source : Source} {world : World} {s : Session} {url : Url} {text : String} {m : Manifest}

/-- An answer without any text is no registry, though a blank text reads as one without entries. -/
theorem Answered.outcome_load_blank (h : Answered source world s url text)
    (hblank : Text.isBlankText text = true) :
    outcome (load source) world s =
      (.error (.retrieval url.text "empty response body"),
        s.record (.sent (Remote.Request.of source url))) := by
  obtain ⟨hurl, hflaw, status, hlow, hhigh, hanswer⟩ := h
  have hnone : Remote.statusFailure? url status source.token.isSome = none :=
    Remote.statusFailure?_eq_none_iff.mpr (Remote.isSuccess_iff.mpr ⟨hlow, hhigh⟩)
  unfold load
  rw [outcome_bind, Remote.outcome_fetch_sent hurl hflaw, hanswer]
  simp [Remote.documentOf, hnone, hblank]

/-- An answer that says something is listed as it reads. -/
theorem Answered.outcome_load_listed (h : Answered source world s url text)
    (htold : Text.isBlankText text = false) (hread : Manifest.read text = .ok m) :
    outcome (load source) world s =
      (.ok (Listing.ofManifest source.branch m),
        s.record (.sent (Remote.Request.of source url))) := by
  obtain ⟨hurl, hflaw, status, hlow, hhigh, hanswer⟩ := h
  have hfetch := Remote.outcome_fetch_eq_ok_iff.mpr
    ⟨url, status, hurl, hflaw, hanswer, Remote.isSuccess_iff.mpr ⟨hlow, hhigh⟩, htold, rfl⟩
  unfold load
  rw [outcome_bind, hfetch]
  dsimp only
  unfold manifestOf
  rw [hread]
  rfl

/-- A registry that is answered with a document accounts for every entry of it, and whatever value
takes the place of one entry, the fates of all others are what they were. Loading it gives this
listing unless the document is blank: such a document has no entries, and loading it fails. -/
theorem load_accounts (hanswer : Answered source world s url text)
    (hread : Manifest.read text = .ok m) :
    outcome (load source) world s =
        (if Text.isBlankText text then .error (.retrieval url.text "empty response body")
          else .ok (Listing.ofManifest source.branch m),
          s.record (.sent (Remote.Request.of source url))) ∧
      (Text.isBlankText text = true → m.templates = []) ∧
      ∃ fates, Accounted source.branch m.templates (Listing.ofManifest source.branch m) fates ∧
        ∀ i v, ∃ changed,
          Accounted source.branch (m.templates.set i v)
            (Listing.ofManifest source.branch { m with templates := m.templates.set i v })
            changed ∧
          ∀ j, j ≠ i → changed[j]? = fates[j]? := by
  refine ⟨?_, ?_, ?_⟩
  · split
    · next hblank => exact hanswer.outcome_load_blank hblank
    · next htold => exact hanswer.outcome_load_listed (by simpa using htold) hread
  · intro hblank
    unfold Manifest.read at hread
    rw [if_pos hblank] at hread
    cases hread
    rfl
  · refine ⟨fatesOf source.branch m.templates, accounted_ofManifest source.branch m, ?_⟩
    intro i v
    refine ⟨fatesOf source.branch (m.templates.set i v),
      accounted_ofManifest source.branch { m with templates := m.templates.set i v }, ?_⟩
    intro j hj
    exact fatesOf_set source.branch m.templates i v hj

end

/-- A source with short names. -/
def nearby : Source where
  api := ⟨['h', 't', 't', 'p'], [], none, some (.domain ['a']), none, .segments [[]], none, none⟩
  owner := "o"
  repository := "r"
  branch := "main"
  path := "t"
  token := none
  agent := "b"

/-- Whatever text is answered everywhere, it is an answer for the registry of the nearby source. -/
theorem exists_answered_nearby (text : String) : ∃ url,
    Answered nearby (.steady text fun _ => none) ⟨[], default⟩ url text := by
  have hsendable : (nearby.documentUrl nearby.owner nearby.repository nearby.path
      nearby.branch).toOption.map (fun url => (Remote.Request.of nearby url).flaw?) =
        some none := by
    decide +kernel
  obtain ⟨url, hurl, hflaw⟩ := Option.map_eq_some_iff.mp hsendable
  exact ⟨url, toOption_eq_some_iff.mp hurl, hflaw, 200, by decide, by decide, rfl⟩

/-- The empty document reads as a registry without entries, but loading it gives no listing. -/
theorem load_empty : ∃ url,
    Answered nearby (.steady "" fun _ => none) ⟨[], default⟩ url "" ∧
    Manifest.read "" = .ok .empty ∧
    (outcome (load nearby) (.steady "" fun _ => none) ⟨[], default⟩).1 =
      .error (.retrieval url.text "empty response body") := by
  obtain ⟨url, hanswer⟩ := exists_answered_nearby ""
  have hblank : Text.isBlankText "" = true := by
    decide
  refine ⟨url, hanswer, ?_, congrArg Prod.fst (hanswer.outcome_load_blank hblank)⟩
  unfold Manifest.read
  rw [if_pos hblank]

/-- A registry with an entry that is a number, one of an unknown kind and one that can be used. -/
def mixed : String :=
  "templates:\n- 7\n- \x7bname: a, type: x, organization: o, repository: r\x7d\n" ++
    "- \x7bname: b, type: git, organization: o, repository: r, branch: ''\x7d"

/-- What the mixed registry is listed as. -/
def mixedListing : Listing where
  templates := [⟨⟨"b", "", .gitRepo, "o", "r", "main", "config.yaml"⟩, .gitRepo⟩]
  skipped := [⟨"entry #1", .retrieval "registry entry 'entry #1'"
      "invalid type: integer \x607\x60, expected struct RegistryEntry"⟩,
    ⟨"a", .unknownKind "a" "x"⟩]
  notice := none

/-- The mixed registry is answered, read, listed and accounted for. -/
theorem load_accounts_mixed : ∃ url m fates,
    Answered nearby (.steady mixed fun _ => none) ⟨[], default⟩ url mixed ∧
    Manifest.read mixed = .ok m ∧
    (outcome (load nearby) (.steady mixed fun _ => none) ⟨[], default⟩).1 = .ok mixedListing ∧
    Accounted nearby.branch m.templates mixedListing fates := by
  have hlisting : (Manifest.read mixed).toOption.map (Listing.ofManifest nearby.branch) =
      some mixedListing := by
    decide +kernel
  obtain ⟨m, hm, hlisted⟩ := Option.map_eq_some_iff.mp hlisting
  have hread := toOption_eq_some_iff.mp hm
  obtain ⟨url, hanswer⟩ := exists_answered_nearby mixed
  have htold : Text.isBlankText mixed = false := by
    decide +kernel
  obtain ⟨hload, -, fates, haccounted, -⟩ := load_accounts hanswer hread
  rw [htold, hlisted] at hload
  rw [hlisted] at haccounted
  exact ⟨url, m, fates, hanswer, hread, congrArg Prod.fst hload, haccounted⟩

end Registry

end Scaffolding
