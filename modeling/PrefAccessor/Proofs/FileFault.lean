import PrefAccessor.Proofs.LayerPrecedence
import PrefAccessor.Proofs.LongNumeral
import PrefAccessor.Reference

/-!
# Files that stop the run

A file of documents or of settings is read, or it is refused for a cause of its own. Neither comes of
a path that is too long to be looked up, of bytes that are no text, and of an integer of too many
digits; and in settings besides of a value for the language that is no object, while there are names
to be put into it.
-/

namespace PrefAccessor

set_option autoImplicit false

variable {tree : FileTree} {path : Path} {k : Fault}

namespace FileTree

/-- Why a file is neither read as a value nor refused. -/
inductive Stops (tree : FileTree) (path : Path) : Fault → Prop
  | overlong (hpath : pathFault? path = none) (h : tree.lookUp path = .error .nameTooLong) :
    Stops tree path .system
  | undecodable {content : ByteArray} (hpath : pathFault? path = none)
    (h : tree.lookUp path = .ok (.file content)) (hbytes : ¬ content.IsValidUTF8) :
    Stops tree path .undecodable
  | numeral {content : ByteArray} {text : String} (hpath : pathFault? path = none)
    (h : tree.lookUp path = .ok (.file content)) (htext : String.fromUTF8? content = some text)
    (hread : Json.read text = .error .numeralTooLong) : Stops tree path .badValue

theorem exists?_eq_error :
    tree.exists? path = .error k ↔
      k = .system ∧ pathFault? path = none ∧ tree.lookUp path = .error .nameTooLong := by
  unfold exists? find?
  cases pathFault? path with
  | some k => simp [Except.map]
  | none =>
    cases tree.lookUp path with
    | ok e => simp [Except.map]
    | error kind => cases kind <;> simp [Except.map, eq_comm]

theorem exists?_eq_true :
    tree.exists? path = .ok true ↔ pathFault? path = none ∧ ∃ e, tree.lookUp path = .ok e := by
  unfold exists? find?
  cases pathFault? path with
  | some k => simp [Except.map]
  | none =>
    cases tree.lookUp path with
    | ok e => simp [Except.map]
    | error kind => cases kind <;> simp [Except.map]

theorem readText_eq_fault :
    tree.readText path = .error (.fault k) ↔
      k = .undecodable ∧ ∃ content, tree.lookUp path = .ok (.file content) ∧
        ¬ content.IsValidUTF8 := by
  unfold readText
  cases tree.lookUp path with
  | error kind => simp [Attempt.refuse]
  | ok e =>
    cases e with
    | directory => simp [Attempt.refuse]
    | file content =>
      by_cases h : content.IsValidUTF8
      · simp [String.fromUTF8?, h]
      · simp [String.fromUTF8?, h, Attempt.stop, eq_comm]

theorem readText_eq_ok_iff {text : Text} :
    tree.readText path = .ok text ↔
      ∃ content s, tree.lookUp path = .ok (.file content) ∧
        String.fromUTF8? content = some s ∧ text = .plain s := by
  unfold readText
  cases tree.lookUp path with
  | error kind => simp [Attempt.refuse]
  | ok e =>
    cases e with
    | directory => simp [Attempt.refuse]
    | file content => cases h : String.fromUTF8? content <;> simp [Attempt.stop, h, eq_comm]

/-- Of a file that is there and begins to be read a text is made, or its bytes are none. -/
theorem bind_readText_eq_fault {ε α : Type} {f : OsError → ε} {next : Text → Attempt ε α} :
    Attempt.mapRefusal f (tree.readText path) >>= next = .error (.fault k) ↔
      (k = .undecodable ∧ ∃ content, tree.lookUp path = .ok (.file content) ∧
          ¬ content.IsValidUTF8) ∨
        ∃ content text, tree.lookUp path = .ok (.file content) ∧
          String.fromUTF8? content = some text ∧ next (.plain text) = .error (.fault k) := by
  rw [Attempt.bind_eq_error, Attempt.mapRefusal_eq_fault, readText_eq_fault]
  simp only [Attempt.mapRefusal_eq_ok, readText_eq_ok_iff]
  apply or_congr_right
  constructor
  · rintro ⟨_, ⟨content, text, h, htext, rfl⟩, hnext⟩
    exact ⟨content, text, h, htext, hnext⟩
  · rintro ⟨content, text, h, htext, hnext⟩
    exact ⟨_, ⟨content, text, h, htext, rfl⟩, hnext⟩

/-- What is done with a file that is there, where one that is missing is refused. -/
theorem bind_exists?_eq_fault {ε α : Type} {missing : ε} {next : Attempt ε α} :
    (Attempt.ofFaults (tree.exists? path) >>= fun found =>
        if found then next else Attempt.refuse missing) = .error (.fault k) ↔
      (k = .system ∧ pathFault? path = none ∧ tree.lookUp path = .error .nameTooLong) ∨
        tree.exists? path = .ok true ∧ next = .error (.fault k) := by
  rw [Attempt.bind_eq_error, Attempt.ofFaults_eq_fault, exists?_eq_error]
  simp only [Attempt.ofFaults_eq_ok]
  apply or_congr_right
  constructor
  · rintro ⟨found, hfound, h⟩
    cases found with
    | true => exact ⟨hfound, h⟩
    | false => cases h
  · rintro ⟨hfound, h⟩
    exact ⟨true, hfound, h⟩

/-- A file that is there stops its reading for want of a text or because of an integer in it, if
nothing else can stop what is done with the text. -/
theorem stops_iff {ε α : Type} (missing : ε) (f : OsError → ε) {next : Text → Attempt ε α}
    (hnext : ∀ text k, next text = .error (.fault k) ↔
      k = .badValue ∧ Json.read text = .error .numeralTooLong) :
    (Attempt.ofFaults (tree.exists? path) >>= fun found =>
        if found then Attempt.mapRefusal f (tree.readText path) >>= next
        else Attempt.refuse missing) = .error (.fault k) ↔ tree.Stops path k := by
  rw [bind_exists?_eq_fault, bind_readText_eq_fault, exists?_eq_true]
  simp only [hnext]
  constructor
  · rintro (⟨rfl, hpath, h⟩ | ⟨⟨hpath, -⟩, hfile⟩)
    · exact .overlong hpath h
    · rcases hfile with ⟨rfl, content, h, hbytes⟩ | ⟨content, text, h, htext, rfl, hread⟩
      · exact .undecodable hpath h hbytes
      · exact .numeral hpath h htext hread
  · intro h
    cases h with
    | overlong hpath h => exact Or.inl ⟨rfl, hpath, h⟩
    | undecodable hpath h hbytes => exact Or.inr ⟨⟨hpath, _, h⟩, Or.inl ⟨rfl, _, h, hbytes⟩⟩
    | numeral hpath h htext hread =>
      exact Or.inr ⟨⟨hpath, _, h⟩, Or.inr ⟨_, _, h, htext, rfl, hread⟩⟩

/-- Of a text too long an integer is to blame, whatever else stands in it. -/
theorem Stops.holdsLongNumeral (h : tree.Stops path .badValue) :
    ∃ content text, tree.lookUp path = .ok (.file content) ∧
      String.fromUTF8? content = some text ∧ Json.HoldsLongNumeral (text : Text).toList := by
  cases h with
  | numeral _ h htext hread => exact ⟨_, _, h, htext, Json.holdsLongNumeral_of_read hread⟩

end FileTree

namespace Document

theorem ofValue_ne_fault {shown : Text} {value : Json} :
    ofValue shown value ≠ .error (.fault k) := by
  unfold ofValue
  split
  · nofun
  · split
    · nofun
    · split
      · split <;> nofun
      · nofun
  · nofun

theorem load_eq_fault : load tree path = .error (.fault k) ↔ tree.Stops path k := by
  have hload : ∃ next : Text → Attempt Refusal (List Json),
      (load tree path = Attempt.ofFaults (tree.exists? path) >>= fun found =>
        if found then
          Attempt.mapRefusal (fun e => Refusal.malformed none (.fileUnreadable path.toString e))
            (tree.readText path) >>= next
        else Attempt.refuse (Refusal.malformed none (.fileNotFound path.toString))) ∧
      ∀ text k, next text = .error (.fault k) ↔
        k = .badValue ∧ Json.read text = .error .numeralTooLong := by
    unfold load
    apply Exists.intro
    constructor
    · apply bind_congr
      intro found
      cases found with
      | false => rfl
      | true => rfl
    · intro text k
      cases Json.read text with
      | ok value => simp [ofValue_ne_fault]
      | error e => cases e <;> simp [Attempt.refuse, Attempt.stop, eq_comm]
  obtain ⟨next, hload, hnext⟩ := hload
  rw [hload, FileTree.stops_iff _ _ hnext]

end Document

namespace Settings

open Entries

theorem readFile_eq_fault_of_json (hjson : Text.lowercase path.extension = ".json") :
    readFile tree path = .error (.fault k) ↔ tree.Stops path k := by
  have hread : ∃ next : Text → Attempt FileProblem (Entries Text Json),
      (readFile tree path = Attempt.ofFaults (tree.exists? path) >>= fun found =>
        if found then Attempt.mapRefusal (.unreadable path.toString) (tree.readText path) >>= next
        else Attempt.refuse (.notFound path.toString)) ∧
      ∀ text k, next text = .error (.fault k) ↔
        k = .badValue ∧ Json.read text = .error .numeralTooLong := by
    unfold readFile
    simp only [hjson]
    apply Exists.intro
    constructor
    · apply bind_congr
      intro found
      cases found with
      | false => rfl
      | true => rfl
    · intro text k
      cases Json.read text with
      | ok value => cases value <;> simp [Attempt.refuse]
      | error e => cases e <;> simp [Attempt.refuse, Attempt.stop, eq_comm]
  obtain ⟨next, hread, hnext⟩ := hread
  rw [hread, FileTree.stops_iff _ _ hnext]

/-- A file whose name does not end as that of such a file is refused before it is read. -/
theorem readFile_eq_fault :
    readFile tree path = .error (.fault k) ↔
      tree.Stops path k ∧ (k = .system ∨ Text.lowercase path.extension = ".json") := by
  by_cases hjson : Text.lowercase path.extension = ".json"
  · simp only [readFile_eq_fault_of_json hjson, hjson, or_true, and_true]
  · have hread : readFile tree path = Attempt.ofFaults (tree.exists? path) >>= fun found =>
        if found then Attempt.refuse (.notJson path.toString)
        else Attempt.refuse (.notFound path.toString) := by
      unfold readFile
      apply bind_congr
      intro found
      cases found with
      | false => rfl
      | true =>
        simp only [hjson, bne_iff_ne, ne_eq, not_false_eq_true, if_true]
        rfl
    rw [hread, FileTree.bind_exists?_eq_fault]
    simp only [hjson, or_false]
    constructor
    · rintro (⟨rfl, hpath, h⟩ | ⟨-, h⟩)
      · exact ⟨.overlong hpath h, rfl⟩
      · cases h
    · rintro ⟨h, rfl⟩
      cases h with
      | overlong hpath h => exact Or.inl ⟨rfl, hpath, h⟩

/-- Without an object to be merged, a layer only replaces. -/
theorem mergeLayer_eq_merge {layer : Entries Text Json}
    (h : ∀ members, (languageConfigName, .object members) ∉ layer) (base : Entries Text Json) :
    mergeLayer base layer = .ok (merge base layer) := by
  induction layer generalizing base with
  | nil => rfl
  | cons e layer ih =>
    obtain ⟨name, value⟩ := e
    have hput : override base name value = .ok (put base name value) := by
      unfold override
      split
      · rename_i members
        rw [if_neg]
        rintro rfl
        exact h members List.mem_cons_self
      · rfl
    simp only [mergeLayer, hput]
    exact ih (fun members hm => h members (List.mem_cons_of_mem _ hm)) _

/-- A layer as a file gives it is always merged. Only what is no object replaces the object for the
language. -/
theorem mergeLayer_eq_ok {layer base : Entries Text Json}
    (hlayer : (Json.object layer).HasDistinctNames)
    (hbase : ∃ members, find? base languageConfigName = some (.object members)) :
    ∃ merged, mergeLayer base layer = .ok merged ∧
      (∀ k, k ≠ languageConfigName → find? merged k = (find? layer k).or (find? base k)) ∧
      ((NestsObject layer ∧ ∃ members, find? merged languageConfigName = some (.object members)) ∨
        ∃ v, find? layer languageConfigName = some v ∧
          find? merged languageConfigName = some v) := by
  by_cases hnests : NestsObject layer
  · obtain ⟨merged, hmerged, hover⟩ := mergeLayer_overlays hlayer hnests hbase
    exact ⟨merged, hmerged, hover.other, Or.inl ⟨hnests, hover.object⟩⟩
  · have hnames := hlayer.nodup_keys
    have hreplaces : ∃ v, find? layer languageConfigName = some v ∧
        ∀ members, v ≠ .object members := by
      simpa [NestsObject] using hnests
    obtain ⟨v, hv, hobject⟩ := hreplaces
    refine ⟨merge base layer, mergeLayer_eq_merge ?_ base, ?_, Or.inr ⟨v, hv, ?_⟩⟩
    · intro members hmem
      have hfind := find?_of_mem hnames hmem
      rw [hv] at hfind
      exact hobject members (Option.some.inj hfind)
    · exact fun k _ => find?_merge_of_nodup base hnames k
    · rw [find?_merge_of_nodup base hnames, hv, Option.some_or]

/-- Names that are no setting's need an object, or what can stand for one. -/
theorem ofLayer_eq_error {layer : Entries Text Json} :
    ofLayer layer = .error k ↔ (∃ name ∈ keys layer, name ∉ names) ∧
      membersOf ((find? layer languageConfigName).getD (.object [])) = .error k := by
  have hothers : (layer.filter fun m => !names.contains m.1) = [] ↔
      ¬ ∃ name ∈ keys layer, name ∉ names := by
    simp [keys, List.filter_eq_nil_iff]
  unfold ofLayer
  simp only
  split
  · rename_i hnil
    simp [hothers.mp hnil]
  · rename_i hcons
    rw [hothers, not_not] at hcons
    cases membersOf ((find? layer languageConfigName).getD (.object [])) with
    | ok members => simp
    | error e => simpa using fun _ => hcons

/-- Why settings are neither made of a file nor refused. -/
inductive FileStops (tree : FileTree) (path : Path) : Fault → Prop
  | unread {k : Fault} (h : tree.Stops path k)
    (hjson : k = .system ∨ Text.lowercase path.extension = ".json") : FileStops tree path k
  | languageConfig {members : Entries Text Json} {name : Text} {v : Json} {k : Fault}
    (hread : readFile tree path = .ok members) (hname : name ∈ keys members) (hother : name ∉ names)
    (hfind : find? members languageConfigName = some v) (hv : membersOf v = .error k) :
    FileStops tree path k

/-- The members of a file stop the run only together with what the file says of the language. -/
theorem resolve_file_eq_error {language overrides : Json} {name : Text}
    {file : Entries Text Json} (hlanguage : languageNamed language = .ok name)
    (hnone : overridesOf overrides = .ok []) (hfile : (Json.object file).HasDistinctNames) :
    resolve language file overrides = .error k ↔ (∃ other ∈ keys file, other ∉ names) ∧
      ∃ v, find? file languageConfigName = some v ∧ membersOf v = .error k := by
  obtain ⟨merged, hmerged, hother, hconfig⟩ := mergeLayer_eq_ok hfile (defaultsOf_object name)
  have hresolve : resolve language file overrides = ofLayer merged := by
    simp only [resolve, hlanguage, hmerged, hnone, mergeLayer, bind, Except.bind]
  have hkeys (other : Text) (h : other ∉ names) : other ∈ keys merged ↔ other ∈ keys file := by
    have hne : other ≠ languageConfigName := by
      rintro rfl
      exact h (by decide)
    have hdefault : find? (defaultsOf name) other = none := by
      simpa only [outer?, if_neg h] using outer?_defaultsOf name other
    rw [← not_iff_not, ← find?_eq_none, ← find?_eq_none, hother other hne, hdefault, Option.or_none]
  have hnames : (∃ other ∈ keys merged, other ∉ names) ↔ ∃ other ∈ keys file, other ∉ names :=
    exists_congr fun other => and_congr_left (hkeys other)
  rw [hresolve, ofLayer_eq_error, hnames]
  apply and_congr_right'
  rcases hconfig with ⟨hnests, members, hobject⟩ | ⟨v, hv, hmerged⟩
  · rw [hobject, Option.getD_some]
    constructor
    · intro herror
      cases herror
    · rintro ⟨v, hv, herror⟩
      obtain ⟨members, rfl⟩ := hnests v hv
      cases herror
  · simp [hv, hmerged]

theorem load_file_eq_fault {language overrides : Json} {name path : Text}
    (hlanguage : languageNamed language = .ok name) (hnone : overridesOf overrides = .ok []) :
    load tree language overrides (.string path) = .error (.fault k) ↔
      path ≠ "" ∧ FileStops tree (Path.ofString path) k := by
  by_cases hpath : path = ""
  · subst hpath
    have hload : load tree language overrides (.string "") =
        Attempt.ofFaults (resolve language [] overrides) := by
      simp only [load, hlanguage, filePath, Attempt.ofFaults, bind, Except.bind]
    rw [hload, Attempt.ofFaults_eq_fault, resolve_file_eq_error hlanguage hnone
      Json.hasDistinctNames_empty]
    simp [keys]
  · have hload : load tree language overrides (.string path) =
        readFile tree (Path.ofString path) >>= fun file =>
          Attempt.ofFaults (resolve language file overrides) := by
      simp only [load, hlanguage, filePath_string hpath, Attempt.ofFaults, bind, Except.bind]
    rw [hload, Attempt.bind_eq_error]
    simp only [Attempt.ofFaults_eq_fault]
    constructor
    · rintro (h | ⟨file, hread, h⟩)
      · obtain ⟨hstops, hjson⟩ := readFile_eq_fault.mp h
        exact ⟨hpath, .unread hstops hjson⟩
      · obtain ⟨⟨other, hmem, hother⟩, v, hfind, hv⟩ :=
          (resolve_file_eq_error hlanguage hnone (readFile_hasDistinctNames hread)).mp h
        exact ⟨hpath, .languageConfig hread hmem hother hfind hv⟩
    · rintro ⟨-, h⟩
      cases h with
      | unread hstops hjson => exact Or.inl (readFile_eq_fault.mpr ⟨hstops, hjson⟩)
      | languageConfig hread hname hother hfind hv =>
        exact Or.inr ⟨_, hread, (resolve_file_eq_error hlanguage hnone
          (readFile_hasDistinctNames hread)).mpr ⟨⟨_, hname, hother⟩, _, hfind, hv⟩⟩

end Settings

theorem Reference.loadFile_outcome {path : Text} :
    (loadFile tree path).outcome =
      (Attempt.mapRefusal ReferenceProblem.file (Document.load tree (Path.ofString path))).map
        (List.map Source.document) := by
  unfold loadFile
  rcases Document.load tree (Path.ofString path) with (r | k) | documents <;> rfl

theorem Attempt.of_ne_fault {ε α : Type} {a : Attempt ε α} (h : ∀ k, a ≠ .error (.fault k)) :
    (∃ x, a = .ok x) ∨ ∃ e, a = .error (.refused e) := by
  rcases a with (e | k) | x
  · exact Or.inr ⟨e, rfl⟩
  · exact absurd rfl (h k)
  · exact Or.inl ⟨x, rfl⟩

/-- From a file documents and settings are loaded, or it is refused, unless the file stops the run.
A bad value that does so in the reading is an integer of too many digits. -/
theorem file_loaded_or_refused {language overrides : Json} {name path : Text}
    (hlanguage : Settings.languageNamed language = .ok name)
    (hnone : Settings.overridesOf overrides = .ok []) :
    (∀ k, (Reference.loadFile tree path).outcome = .error (.fault k) ↔
        tree.Stops (Path.ofString path) k) ∧
      ((∀ k, ¬ tree.Stops (Path.ofString path) k) →
        (∃ documents, Document.load tree (Path.ofString path) = .ok documents ∧
          (Reference.loadFile tree path).outcome = .ok (documents.map .document)) ∨
        ∃ r, (Reference.loadFile tree path).outcome = .error (.refused (.file r))) ∧
      (∀ k, Settings.load tree language overrides (.string path) = .error (.fault k) ↔
        path ≠ "" ∧ Settings.FileStops tree (Path.ofString path) k) ∧
      ((∀ k, ¬ Settings.FileStops tree (Path.ofString path) k) →
        (∃ s, Settings.load tree language overrides (.string path) = .ok s) ∨
        ∃ p, Settings.load tree language overrides (.string path) = .error (.refused p)) ∧
      (tree.Stops (Path.ofString path) .badValue →
        ∃ content text, tree.lookUp (Path.ofString path) = .ok (.file content) ∧
          String.fromUTF8? content = some text ∧ Json.HoldsLongNumeral (text : Text).toList) := by
  have hsettings (k : Fault) :
      Settings.load tree language overrides (.string path) = .error (.fault k) ↔
        path ≠ "" ∧ Settings.FileStops tree (Path.ofString path) k :=
    Settings.load_file_eq_fault hlanguage hnone
  refine ⟨?_, ?_, hsettings, ?_, FileTree.Stops.holdsLongNumeral⟩
  · intro k
    rw [Reference.loadFile_outcome, ← Document.load_eq_fault]
    rcases Document.load tree (Path.ofString path) with (r | k') | documents <;>
      simp [Attempt.mapRefusal, Failure.map, Except.map]
  · intro h
    have hload := Attempt.of_ne_fault fun k hk => h k (Document.load_eq_fault.mp hk)
    rw [Reference.loadFile_outcome]
    rcases hload with ⟨documents, hload⟩ | ⟨r, hload⟩
    · exact Or.inl ⟨documents, hload, by rw [hload]; rfl⟩
    · exact Or.inr ⟨r, by rw [hload]; rfl⟩
  · intro h
    exact Attempt.of_ne_fault fun k hk => h k ((hsettings k).mp hk).2

def numberedLanguage : FileTree :=
  [(["d.json"], .file "\x7b\"language_config\": 5, \"dispatcher\": \"IO\"\x7d".toUTF8)]

/-- The same file is a document, but no settings are made of it. -/
theorem numberedLanguage_stops :
    Settings.languageNamed (.string "kotlin") = .ok "kotlin" ∧
      Settings.overridesOf .null = .ok [] ∧
      (Reference.loadFile numberedLanguage "d.json").outcome =
        .ok [.document (.object [("language_config", .int 5), ("dispatcher", .string "IO")])] ∧
      Settings.load numberedLanguage (.string "kotlin") .null (.string "d.json") =
        .error (.fault .wrongKind) := by
  have hread : Settings.readFile numberedLanguage (Path.ofString "d.json") =
      .ok [("language_config", .int 5), ("dispatcher", .string "IO")] := by decide +kernel
  have hdocument : Document.load numberedLanguage (Path.ofString "d.json") =
      .ok [.object [("language_config", .int 5), ("dispatcher", .string "IO")]] := by decide +kernel
  have hgoes (k : Fault) : ¬ numberedLanguage.Stops (Path.ofString "d.json") k := by
    rw [← Document.load_eq_fault, hdocument]
    nofun
  have hstops : Settings.FileStops numberedLanguage (Path.ofString "d.json") .wrongKind :=
    .languageConfig hread (show ("dispatcher" : Text) ∈ _ by decide) (by decide) rfl rfl
  have hlanguage : Settings.languageNamed (.string "kotlin") = .ok "kotlin" := rfl
  have hnone : Settings.overridesOf .null = .ok [] := rfl
  obtain ⟨-, hloaded, hfault, -⟩ :=
    @file_loaded_or_refused numberedLanguage _ _ _ "d.json" hlanguage hnone
  refine ⟨hlanguage, hnone, ?_, (hfault .wrongKind).mpr ⟨by decide, hstops⟩⟩
  rcases hloaded hgoes with ⟨documents, hload, houtcome⟩ | ⟨r, hrefused⟩
  · rw [houtcome, Except.ok.inj (hload.symm.trans hdocument)]
    rfl
  · rw [Reference.loadFile_outcome, hdocument] at hrefused
    cases hrefused

def strayByte : FileTree :=
  [(["p.json"], .file ⟨#[0xff]⟩)]

theorem strayByte_stops :
    (Reference.loadFile strayByte "p.json").outcome = .error (.fault .undecodable) ∧
      Settings.load strayByte (.string "kotlin") .null (.string "p.json") =
        .error (.fault .undecodable) := by
  have hdocuments : Document.load strayByte (Path.ofString "p.json") =
      .error (.fault .undecodable) := by decide +kernel
  refine ⟨?_, by decide +kernel⟩
  rw [Reference.loadFile_outcome, hdocuments]
  rfl

end PrefAccessor
