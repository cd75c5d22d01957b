import PrefAccessor.Proofs.EntryForm

/-!
# The form of a document

Which documents declare a schema, and which schema; and the class of the failure of every other
document. The members of the head fail in one class only, and only then are the entries looked at.
-/

namespace PrefAccessor

set_option autoImplicit false

namespace Schema

variable {name : Text} {data : Json} {package : Option Text}

/-- The package to fall back on, as it is passed. -/
def fallbackPackage (package : Option Text) : Json :=
  package.elim .null .string

theorem packageText_fallbackPackage :
    packageText name (fallbackPackage package) = .ok (package.getD "") := by
  cases package <;> rfl

theorem documentName_isFormCheck (data : Json) : IsFormCheck (documentName data) := by
  unfold documentName
  split
  · split
    · split
      · exact isFormCheck_malformed
      · exact isFormCheck_ok
    · exact isFormCheck_malformed
  · exact isFormCheck_malformed

theorem documentStore_isFormCheck (v : Option Json) : IsFormCheck (documentStore name v) := by
  unfold documentStore
  split
  · exact isFormCheck_ok
  · split
    · exact isFormCheck_malformed
    · exact isFormCheck_ok
  · exact isFormCheck_malformed

theorem packageText_isFormCheck (v : Json) : IsFormCheck (packageText name v) := by
  unfold packageText
  split
  · exact isFormCheck_ok
  · exact isFormCheck_ok
  · exact isFormCheck_malformed

theorem documentPackage_isFormCheck (fallback : Json) (v : Option Json) :
    IsFormCheck (documentPackage name fallback v) := by
  unfold documentPackage
  split <;> exact packageText_isFormCheck _

theorem documentDescription_isFormCheck (v : Option Json) :
    IsFormCheck (documentDescription name v) := by
  unfold documentDescription
  split
  · exact isFormCheck_ok
  · exact isFormCheck_ok
  · exact isFormCheck_ok
  · exact isFormCheck_malformed

theorem documentFields_isFormCheck (v : Option Json) : IsFormCheck (documentFields name v) := by
  unfold documentFields
  split
  · exact isFormCheck_ok
  · exact isFormCheck_ok
  · exact isFormCheck_malformed

theorem documentStore_eq_ok {v : Option Json} {store : Text} :
    documentStore name v = .ok store ↔
      v = none ∧ store = name ∨ v = some (.string store) ∧ store ≠ "" := by
  unfold documentStore
  split
  · simp [eq_comm]
  · rename_i text
    by_cases ht : text = ""
    · simp only [ht, if_true, Attempt.refuse, reduceCtorEq, Option.some.injEq, Json.string.injEq,
        false_and, false_or, false_iff, not_and, not_not]
      exact Eq.symm
    · simp only [ht, if_false, Except.ok.injEq, reduceCtorEq, Option.some.injEq, Json.string.injEq,
        false_and, false_or]
      exact ⟨fun h => ⟨h, h ▸ ht⟩, And.left⟩
  · rename_i htext
    simp only [Attempt.refuse, reduceCtorEq, Option.some.injEq, false_and, false_or, false_iff,
      not_and]
    exact fun h => absurd h (htext store)

theorem documentPackage_eq_ok {v : Option Json} {text : Text} :
    documentPackage name (fallbackPackage package) v = .ok text ↔
      (v = none ∨ v = some .null) ∧ text = package.getD "" ∨ v = some (.string text) := by
  unfold documentPackage
  split
  · simp [packageText_fallbackPackage, eq_comm]
  · simp [packageText_fallbackPackage, eq_comm]
  · rename_i v hnull
    cases v with
    | null => exact absurd rfl hnull
    | string s => simp [packageText]
    | _ => simp [packageText, Attempt.refuse]

theorem documentDescription_eq_ok {v : Option Json} {description : Option Text} :
    documentDescription name v = .ok description ↔
      (v = none ∨ v = some .null) ∧ description = none ∨
        ∃ text, v = some (.string text) ∧ description = some text := by
  unfold documentDescription
  split
  · simp [eq_comm]
  · simp [eq_comm]
  · simp [eq_comm]
  · rename_i hnull htext
    simp only [Attempt.refuse, reduceCtorEq, Option.some.injEq, false_or, false_iff, not_or, not_and,
      not_exists]
    exact ⟨fun h => absurd h hnull, fun text h => absurd h (htext text)⟩

/-- The schema of a document whose head is in order, once its entries are read. -/
theorem ofDocument_of_isHead {raws : List Json} (h : IsHead data name raws) :
    ∃ store text description, ofDocument data (fallbackPackage package) =
      Field.ofDocuments name raws >>= fun fields =>
        if fields = [] then Attempt.refuse ⟨.empty name, some name⟩
        else .ok ⟨name, text, store, fields, description⟩ := by
  have hn : documentName data = .ok name := documentName_eq_ok.mpr h.name
  obtain ⟨store, hs⟩ : ∃ store, documentStore name (data.member? "store") = .ok store :=
    documentStore_ok_iff.mpr h.store
  obtain ⟨text, hp⟩ : ∃ text,
      documentPackage name (fallbackPackage package) (data.member? "package") = .ok text :=
    (documentPackage_ok_iff packageText_fallbackPackage).mpr h.package
  obtain ⟨description, hd⟩ :
      ∃ text, documentDescription name (data.member? "description") = .ok text :=
    documentDescription_ok_iff.mpr h.description
  have hf : documentFields name (data.member? "fields") = .ok raws := documentFields_eq_ok.mpr h.fields
  refine ⟨store, text, description, ?_⟩
  simp only [ofDocument, hn, hs, hp, hd, hf, Attempt.ok_bind]

theorem ofDocument_of_not_isHead (h : ¬ ∃ name raws, IsHead data name raws) :
    FailsAs (ofDocument data (fallbackPackage package)) .malformed := by
  unfold ofDocument
  refine (documentName_isFormCheck data).bind fun name hn => ?_
  refine (documentStore_isFormCheck _).bind fun store hs => ?_
  refine (documentPackage_isFormCheck _ _).bind fun text hp => ?_
  refine (documentDescription_isFormCheck _).bind fun description hd => ?_
  refine (documentFields_isFormCheck _).bind fun raws hf => ?_
  exact absurd ⟨name, raws, documentName_eq_ok.mp hn, documentStore_ok_iff.mp ⟨store, hs⟩,
    (documentPackage_ok_iff packageText_fallbackPackage).mp ⟨text, hp⟩,
    documentDescription_ok_iff.mp ⟨description, hd⟩, documentFields_eq_ok.mp hf⟩ h

/-- A document that declares a schema: its head is in order, its entries are, and one has a key. -/
def IsWellFormed (data : Json) : Prop :=
  ∃ name raws, IsHead data name raws ∧ (∀ raw ∈ raws, Field.IsSound raw) ∧
    ∃ raw ∈ raws, raw.member? "key" ≠ none

/-- The schema says what the document says, in the package `package` if that sets none. -/
structure IsDeclaredBy (s : Schema) (data : Json) (package : Option Text) : Prop where
  name : data.member? "name" = some (.string s.name) ∧ s.name ≠ ""
  store : data.member? "store" = none ∧ s.storeName = s.name ∨
    data.member? "store" = some (.string s.storeName) ∧ s.storeName ≠ ""
  package : (data.member? "package" = none ∨ data.member? "package" = some .null) ∧
      s.package = package.getD "" ∨
    data.member? "package" = some (.string s.package)
  description : (data.member? "description" = none ∨ data.member? "description" = some .null) ∧
      s.description = none ∨
    ∃ text, data.member? "description" = some (.string text) ∧ s.description = some text
  fields : ∃ raws, data.member? "fields" = some (.array raws) ∧ Field.AreDeclaredBy s.fields raws
  nonempty : s.fields ≠ []

theorem ofDocument_eq_ok_iff {s : Schema} :
    ofDocument data (fallbackPackage package) = .ok s ↔ s.IsDeclaredBy data package := by
  simp only [ofDocument, Attempt.bind_eq_ok, documentName_eq_ok, documentStore_eq_ok,
    documentPackage_eq_ok, documentDescription_eq_ok, documentFields_eq_ok, Field.ofDocuments_eq_ok]
  constructor
  · rintro ⟨name, hname, store, hstore, text, hpackage, description, hdescription, raws, hraws,
      fields, hfields, h⟩
    split at h
    · cases h
    · rename_i hne
      cases h
      refine ⟨hname, hstore, hpackage, hdescription, ?_, hne⟩
      -- A document without a list of fields has none to declare, and was refused above.
      rcases hraws with ⟨-, rfl⟩ | hraws
      · cases hfields.fields
        exact absurd rfl hne
      · exact ⟨raws, hraws, hfields⟩
  · intro h
    obtain ⟨raws, hraws, hfields⟩ := h.fields
    exact ⟨s.name, h.name, s.storeName, h.store, s.package, h.package, s.description, h.description,
      raws, Or.inr hraws, s.fields, hfields, if_neg h.nonempty⟩

theorem failsAs_ofDocument_of_isHead {raws : List Json} {c : FailureClass}
    (h : IsHead data name raws) :
    FailsAs (ofDocument data (fallbackPackage package)) c ↔
      Field.FirstBad raws (Field.EntryFails · c) ∨
        c = .empty ∧ ∀ raw ∈ raws, Field.IsKeyless raw := by
  obtain ⟨store, text, description, hread⟩ := ofDocument_of_isHead h
  rw [hread, failsAs_bind, Field.failsAs_ofDocuments]
  apply or_congr_right
  constructor
  · rintro ⟨fields, hfields, hempty⟩
    have hdeclared := Field.ofDocuments_eq_ok.mp hfields
    split at hempty
    · rename_i hnil
      refine ⟨(failsAs_refuse.mp hempty).symm, fun raw hraw => ⟨hdeclared.objects raw hraw, ?_⟩⟩
      exact hdeclared.eq_nil_iff.mp hnil raw hraw
    · exact absurd hempty not_failsAs_ok
  · rintro ⟨rfl, hkeyless⟩
    obtain ⟨fields, hfields⟩ :=
      Field.ofDocuments_ok_iff.mpr fun raw hraw => Or.inl (hkeyless raw hraw)
    have hnil : fields = [] := (Field.ofDocuments_eq_ok.mp hfields).eq_nil_iff.mpr
      fun raw hraw => (hkeyless raw hraw).2
    refine ⟨fields, hfields, ?_⟩
    rw [if_pos hnil]
    exact failsAs_refuse.mpr rfl

/-- A document fails for its head, or for its first entry that reading does not get past, or because
no entry has a key. -/
theorem failsAs_ofDocument {c : FailureClass} :
    FailsAs (ofDocument data (fallbackPackage package)) c ↔
      (c = .malformed ∧ ¬ ∃ name raws, IsHead data name raws) ∨
      ∃ name raws, IsHead data name raws ∧
        (Field.FirstBad raws (Field.EntryFails · c) ∨
          c = .empty ∧ ∀ raw ∈ raws, Field.IsKeyless raw) := by
  constructor
  · intro hfails
    by_cases hhead : ∃ name raws, IsHead data name raws
    · obtain ⟨name, raws, h⟩ := hhead
      exact Or.inr ⟨name, raws, h, (failsAs_ofDocument_of_isHead h).mp hfails⟩
    · exact Or.inl ⟨hfails.unique (ofDocument_of_not_isHead hhead), hhead⟩
  · rintro (⟨rfl, hhead⟩ | ⟨name, raws, h, hfails⟩)
    · exact ofDocument_of_not_isHead hhead
    · exact (failsAs_ofDocument_of_isHead h).mpr hfails

theorem ofDocument_ok_iff :
    (∃ s, ofDocument data (fallbackPackage package) = .ok s) ↔ IsWellFormed data := by
  constructor
  · rintro ⟨s, hs⟩
    obtain ⟨name, raws, h⟩ : ∃ name raws, IsHead data name raws := by
      by_contra hhead
      have hfails : FailsAs (ofDocument data (fallbackPackage package)) .malformed :=
        ofDocument_of_not_isHead hhead
      rw [hs] at hfails
      exact not_failsAs_ok hfails
    obtain ⟨store, text, description, hread⟩ := ofDocument_of_isHead h
    rw [hread, Attempt.bind_eq_ok] at hs
    obtain ⟨fields, hfields, hs⟩ := hs
    refine ⟨name, raws, h, Field.ofDocuments_ok_iff.mp ⟨fields, hfields⟩, ?_⟩
    by_contra hnone
    push Not at hnone
    rw [if_pos ((Field.ofDocuments_eq_ok.mp hfields).eq_nil_iff.mpr hnone)] at hs
    cases hs
  · rintro ⟨name, raws, h, hsound, raw, hraw, hkey⟩
    obtain ⟨store, text, description, hread⟩ := ofDocument_of_isHead h
    obtain ⟨fields, hfields⟩ : ∃ fields, Field.ofDocuments name raws = .ok fields :=
      Field.ofDocuments_ok_iff.mpr hsound
    have hne : fields ≠ [] := fun hnil =>
      hkey ((Field.ofDocuments_eq_ok.mp hfields).eq_nil_iff.mp hnil raw hraw)
    refine ⟨⟨name, text, store, fields, description⟩, ?_⟩
    rw [hread, Attempt.bind_eq_ok]
    exact ⟨fields, hfields, if_neg hne⟩

/-- A document without a name fails for that, and its failure is laid to no aggregate. -/
theorem ofDocument_of_nameless {r : Refusal} (hname : ∀ name, documentName data ≠ .ok name)
    (h : ofDocument data (fallbackPackage package) = .error (.refused r)) : r.aggregate = none := by
  rw [ofDocument, Attempt.bind_eq_error] at h
  rcases h with h | ⟨name, hok, -⟩
  · unfold documentName at h
    split at h
    · split at h
      · split at h
        · cases h
          rfl
        · cases h
      · cases h
        rfl
    · cases h
      rfl
  · exact absurd hok (hname name)

/-- A document declares a schema exactly if it is well formed, namely the one that it says; the
failure of any other document is of the class of what is first wrong with it, and is laid to its
name. -/
theorem ofDocument_decided (data : Json) (package : Option Text) :
    ((∃ s, ofDocument data (fallbackPackage package) = .ok s) ↔ IsWellFormed data) ∧
    (∀ s, ofDocument data (fallbackPackage package) = .ok s ↔ s.IsDeclaredBy data package) ∧
    (∀ s, ofDocument data (fallbackPackage package) = .ok s →
      ∀ f ∈ s.fields, ∃ v, f.defaultValue = .ok v) ∧
    (FailsAs (ofDocument data (fallbackPackage package)) .empty ↔
      ∃ name raws, IsHead data name raws ∧ ∀ raw ∈ raws, Field.IsKeyless raw) ∧
    (FailsAs (ofDocument data (fallbackPackage package)) .unsupportedType ↔
      ∃ name raws, IsHead data name raws ∧ Field.FirstBad raws Field.HasUnsupportedType) ∧
    (FailsAs (ofDocument data (fallbackPackage package)) .invalidDefault ↔
      ∃ name raws, IsHead data name raws ∧ Field.FirstBad raws Field.HasInvalidDefault) ∧
    (FailsAs (ofDocument data (fallbackPackage package)) (.fault .badValue) ↔
      ∃ name raws, IsHead data name raws ∧ Field.FirstBad raws Field.EntryStops) ∧
    (FailsAs (ofDocument data (fallbackPackage package)) .malformed ↔
      (¬ ∃ name raws, IsHead data name raws) ∨
        ∃ name raws, IsHead data name raws ∧ Field.FirstBad raws Field.IsMalformed) ∧
    (∀ e, ofDocument data (fallbackPackage package) = .error e → e.failureClass ∈
      [.empty, .unsupportedType, .invalidDefault, .fault .badValue, .malformed]) ∧
    (∀ r, ofDocument data (fallbackPackage package) = .error (.refused r) →
      (∀ name, data.member? "name" = some (.string name) ∧ name ≠ "" → r.aggregate = some name) ∧
        ((¬ ∃ name, data.member? "name" = some (.string name) ∧ name ≠ "") →
          r.aggregate = none)) := by
  refine ⟨ofDocument_ok_iff, fun s => ofDocument_eq_ok_iff, ?_, ?_, ?_, ?_, ?_, ?_, ?_, ?_⟩
  · intro s hs f hf
    obtain ⟨raws, -, hfields⟩ := (ofDocument_eq_ok_iff.mp hs).fields
    obtain ⟨raw, hraw⟩ := hfields.exists_entry hf
    exact hraw.value
  · simp [failsAs_ofDocument, Field.entryFails_iff, Field.FirstBad]
  · simp [failsAs_ofDocument, Field.entryFails_iff]
  · simp [failsAs_ofDocument, Field.entryFails_iff]
  · simp [failsAs_ofDocument, Field.entryFails_iff]
  · simp [failsAs_ofDocument, Field.entryFails_iff]
  · intro e he
    rcases failsAs_ofDocument.mp ⟨e, he, rfl⟩ with ⟨h, -⟩ | ⟨_, _, -, ⟨_, raw, -, -, h⟩ | ⟨h, -⟩⟩
    · simp [h]
    · exact h.mem_classes
    · simp [h]
  · intro r hr
    constructor
    · rintro name ⟨hmember, hne⟩
      exact ofDocument_laidTo hmember hne _ r hr
    · intro hname
      exact ofDocument_of_nameless (fun name h => hname ⟨name, documentName_eq_ok.mp h⟩) hr

def settingsDocument (fields : List Json) : Json :=
  .object [("name", .string "Settings"), ("fields", .array fields)]

def themeEntry : Json :=
  .object [("key", .string "theme"), ("default", .string "light")]

def mapEntry : Json :=
  .object [("key", .string "sizes"), ("type", .string "map<string>")]

theorem settings_decided :
    (∃ s, ofDocument (settingsDocument [themeEntry]) (fallbackPackage (some "app")) = .ok s ∧
      ∀ f ∈ s.fields, ∃ v, f.defaultValue = .ok v) ∧
    ∃ r, ofDocument (settingsDocument [themeEntry, mapEntry]) (fallbackPackage none) =
      .error (.refused r) ∧ r.aggregate = some ("Settings" : Text) := by
  constructor
  · have hread : ofDocument (settingsDocument [themeEntry]) (fallbackPackage (some "app")) =
        .ok ⟨"Settings", "app", "Settings", [⟨"theme", "theme", .string, some "light", false⟩],
          none⟩ := by decide +kernel
    exact ⟨_, hread, (ofDocument_decided _ (some "app")).2.2.1 _ hread⟩
  · have hread :
        ofDocument (settingsDocument [themeEntry, mapEntry]) (fallbackPackage none) =
          .error (.refused ⟨.unsupportedType "sizes" "map<string>", some "Settings"⟩) := by
      decide +kernel
    obtain ⟨-, -, -, -, -, -, -, -, -, hlaid⟩ :=
      ofDocument_decided (settingsDocument [themeEntry, mapEntry]) none
    exact ⟨_, hread, (hlaid _ hread).1 "Settings" ⟨rfl, by decide⟩⟩

end Schema

end PrefAccessor
