import Scaffolding.CommandLine.Report
import Scaffolding.Proofs.Registry.Account
import Scaffolding.Proofs.Yaml.JsonText

/-!
# Published descriptors read back

A descriptor is written with the names that an entry of a registry has for its fields, one text for
each field. So it is read as an entry that gives every text and leaves nothing to a default, as long as
the branch and the path of the schema are not empty. The word that is written for a kind names this
kind, also where it stands for another word or is unknown.
-/

set_option autoImplicit false

namespace Scaffolding

namespace Template

/-- The word for a kind that a word names, names this kind. -/
theorem Kind.ofWord_word_ofWord (word : String) : ofWord (ofWord word).word = ofWord word := by
  cases hkind : ofWord word with
  | unknown other =>
    have hnone : Builder.ofKind? (ofWord word) = none := by
      rw [hkind]
      rfl
    have hword := word_ofWord hnone
    rw [hkind] at hword
    rw [hword, hkind]
  | _ => decide

namespace Descriptor

/-- The texts of a descriptor, in the order of the fields of an entry. -/
def texts (d : Descriptor) : List String :=
  [d.name, d.description, d.kind.word, d.organization, d.repository, d.branch, d.schemaPath]

/-- Every text of a descriptor is given back by a quoted scalar of a YAML text. -/
def Restored (d : Descriptor) : Prop :=
  ∀ s ∈ d.texts, Yaml.Restored s.toList

/-- The object of a descriptor has the texts of the descriptor under the names of the fields. -/
theorem toJson_eq (d : Descriptor) :
    d.toJson = .object ((Registry.Entry.recordType.fields.zip d.texts).map fun p =>
      (p.1.name, .string p.2)) :=
  rfl

/-- Names of fields are short, so the object is one that a YAML text can hold. -/
theorem Restored.textual_toJson {d : Descriptor} (h : d.Restored) : Yaml.Textual 1 d.toJson := by
  have hnames : ∀ f ∈ Registry.Entry.recordType.fields,
      (f.name.toList.all fun c => decide (Yaml.Carried c)) = true ∧
        (Json.quoteChars f.name).length ≤ 1024 := by
    decide
  rw [toJson_eq]
  refine .object ?_ ?_ ?_ ?_
  · have hkeys : Members.keys ((Registry.Entry.recordType.fields.zip d.texts).map fun p =>
        (p.1.name, Json.string p.2)) = Registry.Entry.recordType.fields.map (·.name) := rfl
    rw [hkeys]
    exact Registry.Entry.distinct_recordType.nodup_names
  all_goals
    intro m hm
    obtain ⟨p, hp, rfl⟩ := List.mem_map.mp hm
    obtain ⟨hfield, htext⟩ := List.of_mem_zip hp
  · exact fun c hc => of_decide_eq_true (List.all_eq_true.mp (hnames p.1 hfield).1 c hc)
  · exact (hnames p.1 hfield).2
  · exact .string (h p.2 htext)

end Descriptor

end Template

namespace Registry

/-- Read as YAML, the object of a descriptor is a mapping of texts. -/
theorem ofJson_toJson (d : Template.Descriptor) :
    Yaml.ofJson d.toJson =
      .mapping ((Entry.recordType.fields.zip d.texts).map fun p =>
        (.string p.1.name, .string p.2)) :=
  rfl

/-- Every field of an entry is a text. -/
theorem Entry.isText_of_mem_fields : ∀ f ∈ recordType.fields, f.IsText := by
  simp [recordType, Yaml.Field.IsText]

/-- An entry keeps every text of the descriptor from which it was written. -/
theorem Entry.read_toJson (d : Template.Descriptor) :
    read (Yaml.ofJson d.toJson) =
      .ok ⟨d.name, d.description, .ofWord d.kind.word, d.organization, d.repository, some d.branch,
        some d.schemaPath⟩ := by
  have hfields : (recordType.fields.zip d.texts).map Prod.fst = recordType.fields := rfl
  obtain ⟨r, hread, htexts⟩ := 
    Yaml.RecordType.read_texts distinct_recordType isText_of_mem_fields hfields
  simp only [recordType, Template.Descriptor.texts, List.zip_cons_cons, List.forall_mem_cons]
    at htexts
  obtain ⟨hname, hdescription, hkind, horganization, hrepository, hbranch, hpath, -⟩ := htexts
  rw [read, ofJson_toJson, hread]
  simp [Except.map, ofRecord, hname, hdescription, hkind, horganization, hrepository, hbranch, hpath]

/-- A text that is not empty leaves nothing to the standard. -/
theorem Entry.orElse_some {text : String} (h : text ≠ "") (standard : String) :
    orElse (some text) standard = text :=
  (filledIn_iff.mp (.inl ⟨rfl, h⟩)).symm

/-- A printed listing is the indented text of its objects, and a new line. -/
theorem toList_listJson (l : Listing) : (CommandLine.listJson l).toList =
    Json.indentedChars 0 (.array (l.templates.map fun t => t.descriptor.toJson)) ++ ['\n'] := by
  simp [CommandLine.listJson, Json.renderIndented]

/-- A printed listing is a YAML text of the descriptors, if their texts are given back. -/
theorem parse_listJson {l : Listing} (h : ∀ t ∈ l.templates, t.descriptor.Restored) :
    Yaml.parse (CommandLine.listJson l) =
      .ok (.sequence (l.templates.map fun t => Yaml.ofJson t.descriptor.toJson)) := by
  have htextual : Yaml.Textual 2 (.array (l.templates.map fun t => t.descriptor.toJson)) := by
    refine .array fun v hv => ?_
    obtain ⟨t, ht, rfl⟩ := List.mem_map.mp hv
    exact (h t ht).textual_toJson
  rw [Yaml.parse_textual htextual (by decide) (.line 0) (toList_listJson l), Yaml.ofJson,
    Yaml.ofItems_eq_map, List.map_map]
  rfl

/-- Words for kinds name what they were written from. A descriptor that leaves nothing to a default is
what its object says, and a printed listing holds these objects, as long as each of their texts is given
back by a quoted scalar. -/
theorem published_reads_back :
    (∀ word, Template.Kind.ofWord (Template.Kind.ofWord word).word = .ofWord word) ∧
      (∀ (d : Template.Descriptor) (word : String), d.kind = .ofWord word → d.branch ≠ "" →
        d.schemaPath ≠ "" → ∃ e, Entry.read (Yaml.ofJson d.toJson) = .ok e ∧
          ∀ branch, e.descriptor branch = d) ∧
      ∀ l : Listing, (∀ t ∈ l.templates, t.descriptor.Restored) →
        Yaml.parse (CommandLine.listJson l) =
          .ok (.sequence (l.templates.map fun t => Yaml.ofJson t.descriptor.toJson)) := by
  refine ⟨Template.Kind.ofWord_word_ofWord, ?_, fun l => parse_listJson⟩
  intro d word hkind hbranch hpath
  refine ⟨_, Entry.read_toJson d, ?_⟩
  intro branch
  have hword : Template.Kind.ofWord d.kind.word = d.kind := by
    rw [hkind, Template.Kind.ofWord_word_ofWord]
  rw [Entry.descriptor, Entry.orElse_some hbranch, Entry.orElse_some hpath]
  dsimp only
  rw [hword]

/-- A template of an unknown kind, with blanks around its word. -/
def peculiar : Template.Descriptor where
  name := "t"
  description := ""
  kind := .ofWord " make "
  organization := "o"
  repository := "r"
  branch := "main"
  schemaPath := "schema.yaml"

/-- A listing of one template with a description. -/
def describedAs (description : String) : Listing where
  templates := [⟨⟨"c", description, .ofWord "cookiecutter", "o", "r", "main", "s.yaml"⟩,
    .cookiecutter⟩]
  skipped := []
  notice := none

/-- An unusual descriptor is read back, and so is a listing with quotes and spaces in a text. -/
theorem published_reads_back_peculiar :
    (peculiar.kind = .ofWord " make " ∧ peculiar.branch ≠ "" ∧ peculiar.schemaPath ≠ "" ∧
      ∃ e, Entry.read (Yaml.ofJson peculiar.toJson) = .ok e ∧
        ∀ branch, e.descriptor branch = peculiar) ∧
      (∀ t ∈ (describedAs "a \"quoted\" word").templates, t.descriptor.Restored) ∧
        Yaml.parse (CommandLine.listJson (describedAs "a \"quoted\" word")) =
          .ok (.sequence ((describedAs "a \"quoted\" word").templates.map fun t =>
            Yaml.ofJson t.descriptor.toJson)) := by
  have hcarried : ((describedAs "a \"quoted\" word").templates.all fun t =>
      t.descriptor.texts.all fun s => s.toList.all fun c => decide (Yaml.Carried c)) = true := by
    decide
  have hrestored : ∀ t ∈ (describedAs "a \"quoted\" word").templates, t.descriptor.Restored := by
    intro t ht s hs
    refine Yaml.restored_of_carried fun c hc => of_decide_eq_true ?_
    exact List.all_eq_true.mp (List.all_eq_true.mp (List.all_eq_true.mp hcarried t ht) s hs) c hc
  exact ⟨⟨rfl, by decide, by decide,
    published_reads_back.2.1 peculiar " make " rfl (by decide) (by decide)⟩, hrestored,
    published_reads_back.2.2 _ hrestored⟩

/-- The description in the first entry of a listing that was read. -/
def firstDescription? : Yaml.Value → Option String
  | .sequence (v :: _) => v.textUnder? ["description"]
  | _ => none

/-- Each condition on the texts is needed. A character that no YAML text may hold and a mark of a
document behind a separator are errors; a next line becomes a space, and a space beside a separator is
lost. -/
theorem published_spoiled :
    Yaml.parse (CommandLine.listJson (describedAs "a\u007Fb")) = .error .controlCharacter ∧
      Yaml.parse (CommandLine.listJson (describedAs "a\u2028--- b")) = .error .unterminatedQuote ∧
      (Yaml.parse (CommandLine.listJson (describedAs "a\u0085b"))).toOption.bind firstDescription? =
        some "a b" ∧
      (Yaml.parse (CommandLine.listJson (describedAs "a \u2028b"))).toOption.bind firstDescription? =
        some "a\u2028b" := by
  have herror : ∀ {l : Listing} {e : Yaml.Error}, Yaml.tokens (CommandLine.listJson l) = .error e →
      Yaml.parse (CommandLine.listJson l) = .error e := by
    intro l e h
    rw [Yaml.parse, Yaml.Document.parse, h]
    rfl
  refine ⟨herror ?_, herror ?_, ?_, ?_⟩
  · rw [Yaml.tokens, toList_listJson]
    decide +kernel
  · rw [Yaml.tokens, toList_listJson]
    decide +kernel
  · rw [Yaml.parse, Yaml.Document.parse, Yaml.tokens, toList_listJson]
    decide +kernel
  · rw [Yaml.parse, Yaml.Document.parse, Yaml.tokens, toList_listJson]
    decide +kernel

end Registry

end Scaffolding
