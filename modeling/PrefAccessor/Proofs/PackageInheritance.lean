import Mathlib.Data.List.Forall2
import PrefAccessor.Proofs.DocumentForm
import PrefAccessor.Proofs.ObjectNames

/-!
# Packages of a file and of its documents

The package of a file reaches a document on two ways: as a member put in front of the document's own,
and as the package that is used where the document gives none. Both read the same schema, or fail
with the same refusal, unless the package of the document is null. Put in front, the package of the
file is then replaced by null, and the schema ends in the empty package.
-/

namespace PrefAccessor

set_option autoImplicit false

universe u v

namespace Attempt

variable {ε : Type u} {α β γ : Type v}

theorem map_bind (f : β → γ) (a : Attempt ε α) (g : α → Attempt ε β) :
    (a >>= g).map f = a >>= fun x => (g x).map f := by
  cases a with
  | ok x => rfl
  | error e => rfl

theorem bind_map (f : α → β) (a : Attempt ε α) (g : β → Attempt ε γ) :
    a.map f >>= g = a >>= fun x => g (f x) := by
  cases a with
  | ok x => rfl
  | error e => rfl

end Attempt

namespace Schema

theorem documentName_congr {members members' : List (Text × Json)}
    (h : Entries.find? members' "name" = Entries.find? members "name") :
    documentName (.object members') = documentName (.object members) := by
  simp only [documentName, Json.member?, h]

/-- Reading hands the package through to the end and looks at it nowhere else. -/
theorem ofDocument_of_package {members members' : List (Text × Json)} {package package' : Json}
    {f : Text → Text}
    (hmembers : ∀ k : Text, k ≠ "package" → Entries.find? members' k = Entries.find? members k)
    (hpackage : ∀ name, documentPackage name package' (Entries.find? members' "package") =
      (documentPackage name package (Entries.find? members "package")).map f) :
    ofDocument (.object members') package' =
      (ofDocument (.object members) package).map fun s => { s with package := f s.package } := by
  unfold ofDocument
  rw [documentName_congr (hmembers "name" (by decide)), Attempt.map_bind]
  simp only [Json.member?, hmembers "store" (by decide), hmembers "description" (by decide),
    hmembers "fields" (by decide), hpackage, Attempt.bind_map]
  refine bind_congr fun name => ?_
  rw [Attempt.map_bind]
  refine bind_congr fun store => ?_
  rw [Attempt.map_bind]
  refine bind_congr fun own => ?_
  rw [Attempt.map_bind]
  refine bind_congr fun description => ?_
  rw [Attempt.map_bind]
  refine bind_congr fun raws => ?_
  rw [Attempt.map_bind]
  refine bind_congr fun fields => ?_
  by_cases hfields : fields = []
  · simp only [hfields, if_true]
    rfl
  · simp only [hfields, if_false]
    rfl

/-- The package of a schema is that of its document, or the other one where it gives none. -/
theorem package_of_ofDocument {data : Json} {package : Text} {s : Schema}
    (h : ofDocument data (.string package) = .ok s) :
    data.member? "package" = some (.string s.package) ∨
      (data.member? "package" = none ∨ data.member? "package" = some .null) ∧ s.package = package := by
  have hs : s.IsDeclaredBy data (some package) := ofDocument_eq_ok_iff.mp h
  exact hs.package.symm

theorem find?_front {members : List (Text × Json)} (h : (Entries.keys members).Nodup)
    (package : Json) (k : Text) :
    Entries.find? (Entries.merge [(.plain "package", package)] members) k =
      (Entries.find? members k).or (if k = "package" then some package else none) := by
  rw [Entries.find?_merge_of_nodup _ h]
  simp only [Entries.find?, eq_comm]

/-- A document that does not give null as its package is read alike on both ways. -/
theorem ofDocument_inherit {members : List (Text × Json)} (h : (Entries.keys members).Nodup)
    {package : Text} (hnull : Entries.find? members "package" ≠ some .null) :
    ofDocument (Document.inheritPackage (.string package) (.object members)) .null =
      ofDocument (.object members) (.string package) := by
  have hfront := find?_front h (.string package)
  have hpackage (name : Text) :
      documentPackage name .null
          (Entries.find? (Entries.merge [(.plain "package", .string package)] members) "package") =
        (documentPackage name (.string package) (Entries.find? members "package")).map id := by
    rw [hfront, if_pos rfl, Except.map_id, id]
    cases hmember : Entries.find? members "package" with
    | none => rfl
    | some v =>
      cases v with
      | null => exact absurd hmember hnull
      | _ => rfl
  have hread := ofDocument_of_package
    (fun k hk => by rw [hfront, if_neg hk, Option.or_none]) hpackage
  exact hread.trans (congrFun Except.map_id _)

/-- One that does is read in the empty package instead. -/
theorem ofDocument_inherit_null {members : List (Text × Json)} (h : (Entries.keys members).Nodup)
    {package : Text} (hnull : Entries.find? members "package" = some .null) :
    ofDocument (Document.inheritPackage (.string package) (.object members)) .null =
      (ofDocument (.object members) (.string package)).map fun s => { s with package := "" } := by
  have hfront := find?_front h (.string package)
  refine ofDocument_of_package (f := fun _ => "")
    (fun k hk => by rw [hfront, if_neg hk, Option.or_none]) (fun name => ?_)
  rw [hfront, if_pos rfl, hnull]
  rfl

end Schema

namespace Document

/-- The document is accepted and gives null as its package. -/
def LosesPackage (d : Json) (package : Text) : Prop :=
  d.member? "package" = some .null ∧ ∃ s, Schema.ofDocument d (.string package) = .ok s

theorem ofDocument_inherit_iff {members : List (Text × Json)} (h : (Entries.keys members).Nodup)
    {package : Text} (hpackage : package ≠ "") :
    Schema.ofDocument (inheritPackage (.string package) (.object members)) .null =
        Schema.ofDocument (.object members) (.string package) ↔
      ¬ LosesPackage (.object members) package := by
  by_cases hnull : Entries.find? members "package" = some .null
  · rw [Schema.ofDocument_inherit_null h hnull]
    constructor
    · rintro heq ⟨-, s, hs⟩
      rw [hs] at heq
      have hempty : s.package = "" := (congrArg Schema.package (Except.ok.inj heq)).symm
      rcases Schema.package_of_ofDocument hs with hown | ⟨-, hs⟩
      · rw [Json.member?, hnull] at hown
        cases hown
      · exact hpackage (hs.symm.trans hempty)
    · intro hkeeps
      cases hd : Schema.ofDocument (.object members) (.string package) with
      | ok s => exact absurd ⟨hnull, s, hd⟩ hkeeps
      | error e => rfl
  · exact ⟨fun _ hloses => hnull hloses.1, fun _ => Schema.ofDocument_inherit h hnull⟩

theorem package_of_inherit {members : List (Text × Json)} (h : (Entries.keys members).Nodup)
    {package : Text} {s : Schema}
    (hs : Schema.ofDocument (inheritPackage (.string package) (.object members)) .null = .ok s) :
    Entries.find? members "package" = none ∧ s.package = package ∨
      Entries.find? members "package" = some (.string s.package) ∨
      Entries.find? members "package" = some .null ∧ s.package = "" := by
  by_cases hnull : Entries.find? members "package" = some .null
  · rw [Schema.ofDocument_inherit_null h hnull] at hs
    refine Or.inr (Or.inr ⟨hnull, ?_⟩)
    cases hd : Schema.ofDocument (.object members) (.string package) with
    | error e =>
      rw [hd] at hs
      cases hs
    | ok t =>
      rw [hd] at hs
      cases hs
      rfl
  · rw [Schema.ofDocument_inherit h hnull] at hs
    rcases Schema.package_of_ofDocument hs with hown | ⟨hnone | hnull', hs⟩
    · exact Or.inr (Or.inl hown)
    · exact Or.inl ⟨hnone, hs⟩
    · exact absurd hnull' hnull

theorem readText_eq_ok {tree : FileTree} {path : Path} {content : ByteArray} {text : String}
    (hfile : tree.find? path = .ok (some (.file content)))
    (htext : String.fromUTF8? content = some text) : tree.readText path = .ok (.plain text) := by
  have hentry : tree.lookUp path = .ok (.file content) := by
    unfold FileTree.find? at hfile
    split at hfile
    · cases hfile
    · split at hfile
      · rename_i hlook
        rw [hlook]
        cases hfile
        rfl
      · cases hfile
      · cases hfile
  simp only [FileTree.readText, hentry, htext]

theorem firstOther_eq_none {path : Text} {items : List Json}
    (h : ∀ d ∈ items, ∃ members, d = .object members) (position : Nat) :
    firstOther path position items = none := by
  induction items generalizing position with
  | nil => rfl
  | cons d items ih =>
    obtain ⟨members, rfl⟩ := h d List.mem_cons_self
    exact ih (fun d' hd' => h d' (List.mem_cons_of_mem _ hd')) (position + 1)

theorem load_eq_ok {tree : FileTree} {path : Path} {content : ByteArray} {text : String}
    {package : Text} {members : List (Text × Json)} {items : List Json}
    (hfile : tree.find? path = .ok (some (.file content)))
    (htext : String.fromUTF8? content = some text) (hread : Json.read text = .ok (.object members))
    (hpackage : Entries.find? members "package" = some (.string package)) (hne : package ≠ "")
    (haggregates : Entries.find? members "aggregates" = some (.array items))
    (hobjects : ∀ d ∈ items, ∃ members, d = .object members) :
    load tree path = .ok (items.map (inheritPackage (.string package))) := by
  have hset : (Json.string package).isSet = true := by simpa [Json.isSet] using hne
  have hvalue : ofValue path.toString (.object members) =
      .ok (items.map (inheritPackage (.string package))) := by
    simp only [ofValue, Json.member?, haggregates, firstOther_eq_none hobjects, hpackage, hset,
      if_true]
  have hexists : tree.exists? path = .ok true := by
    simp only [FileTree.exists?, hfile, Except.map, Option.isSome]
  simp only [load, hexists, readText_eq_ok hfile htext, hread, hvalue, Attempt.ofFaults,
    Attempt.mapRefusal, bind, Except.bind]
  rfl

theorem load_inherits_iff {tree : FileTree} {path : Path} {content : ByteArray}
    {text : String} {package : Text} {members : List (Text × Json)} {items : List Json}
    (hfile : tree.find? path = .ok (some (.file content)))
    (htext : String.fromUTF8? content = some text) (hread : Json.read text = .ok (.object members))
    (hpackage : Entries.find? members "package" = some (.string package)) (hne : package ≠ "")
    (haggregates : Entries.find? members "aggregates" = some (.array items))
    (hobjects : ∀ d ∈ items, ∃ members, d = .object members) :
    ∃ documents, load tree path = .ok documents ∧
      List.Forall₂ (fun d d' =>
        (Schema.ofDocument d' .null = Schema.ofDocument d (.string package) ↔
          ¬ LosesPackage d package) ∧
        ∀ s, Schema.ofDocument d' .null = .ok s →
          d.member? "package" = none ∧ s.package = package ∨
            d.member? "package" = some (.string s.package) ∨
            d.member? "package" = some .null ∧ s.package = "") items documents := by
  refine ⟨_, load_eq_ok hfile htext hread hpackage hne haggregates hobjects, ?_⟩
  have hdistinct : ∀ d ∈ items, d.HasDistinctNames := by
    cases (Json.read_hasDistinctNames hread).find? haggregates
    assumption
  rw [List.forall₂_map_right_iff, List.forall₂_same]
  intro d hd
  obtain ⟨ms, rfl⟩ := hobjects d hd
  have hnodup : (Entries.keys ms).Nodup := by
    cases hdistinct _ hd
    assumption
  exact ⟨ofDocument_inherit_iff hnodup hne, fun s hs => package_of_inherit hnodup hs⟩

/-- A file of one document, with what the document says about its package. -/
def prefsText (own : String) : String :=
  "\x7b\"package\": \"com.example\", \"aggregates\": [\x7b\"name\": \"Theme\"" ++ own ++
    ", \"fields\": [\x7b\"key\": \"theme\"\x7d]\x7d]\x7d"

def prefsTree (own : String) : FileTree :=
  [(["prefs.json"], .file (prefsText own).toUTF8)]

def themeIn (package : List (Text × Json)) : Json :=
  .object ((.plain "name", .string "Theme") :: package ++
    [(.plain "fields", .array [.object [("key", .string "theme")]])])

/-- A document whose package is null does not get the package of its file. -/
theorem null_package_not_inherited :
    Json.read (prefsText ", \"package\": null") = .ok (.object [("package", .string "com.example"),
        ("aggregates", .array [themeIn [("package", .null)]])]) ∧
      ((load (prefsTree ", \"package\": null") (Path.ofString "prefs.json")).map fun documents =>
          documents.map fun d => (Schema.ofDocument d .null).map Schema.package) = .ok [.ok ""] ∧
      (Schema.ofDocument (themeIn [("package", .null)]) (.string "com.example")).map Schema.package =
        .ok "com.example" :=
  ⟨by decide +kernel, by decide +kernel, by decide +kernel⟩

theorem absent_package_inherited :
    ∃ d, load (prefsTree "") (Path.ofString "prefs.json") = .ok [d] ∧
      Schema.ofDocument d .null = Schema.ofDocument (themeIn []) (.string "com.example") := by
  have hfile : (prefsTree "").find? (Path.ofString "prefs.json") =
      .ok (some (.file (prefsText "").toUTF8)) := rfl
  have htext : String.fromUTF8? (prefsText "").toUTF8 = some (prefsText "") := by
    decide +kernel
  have hread : Json.read (prefsText "") = .ok (.object [("package", .string "com.example"),
      ("aggregates", .array [themeIn []])]) := by decide +kernel
  obtain ⟨documents, hload, hall⟩ := load_inherits_iff hfile htext hread rfl (by decide) rfl
    (fun d hd => ⟨_, List.mem_singleton.mp hd⟩)
  cases hall with
  | cons h hrest =>
    cases hrest
    refine ⟨_, hload, h.1.mpr ?_⟩
    rintro ⟨hnull, -⟩
    exact absurd hnull (by decide +kernel)

end Document

end PrefAccessor
