import PrefAccessor.Proofs.DefaultFault
import PrefAccessor.Proofs.Extraction

/-!
# What stops the reading of a document

A document is read member by member. Every member but a default is either accepted or refused, so
reading stops exactly at the first entry whose default runs out of digits while its other members
have the forms that they need.
-/

namespace PrefAccessor

set_option autoImplicit false

theorem Field.declare_eq_fault {aggregate name key : Text}
    {resolved : Except Fault (Option PrefType)} {typeLabel : Except Fault Text}
    {default : Option Text} {isAsync : Bool} {k : Fault} :
    declare aggregate name key resolved typeLabel default isAsync = .error (.fault k) ↔
      resolved = .error k ∨ (resolved = .ok none ∧ typeLabel = .error k) ∨
        ∃ type, resolved = .ok (some type) ∧ type.IsOverlong default ∧ k = .badValue := by
  unfold declare
  split
  · simp [Attempt.stop]
  · split
    · simp [Attempt.stop]
    · simp [Attempt.refuse]
  · rename_i type
    simp only [reduceCtorEq, false_and, false_or, Except.ok.injEq, Option.some.injEq,
      exists_eq_left']
    rw [and_comm, ← PrefType.defaultValue_eq_fault]
    split
    · rename_i h
      simp [Attempt.mapRefusal_eq_ok.mp h]
    · rename_i h
      rw [Except.error.injEq]
      constructor
      · rintro rfl
        exact Attempt.mapRefusal_eq_fault.mp h
      · intro hk
        rw [hk] at h
        exact (Except.error.inj h).symm

/-- A schema is refused for its lack of fields, and for nothing else. -/
theorem Schema.unless_empty_ne_fault {name package store : Text} {fields : List Field}
    {description : Option Text} {k : Fault} :
    (if fields = [] then Attempt.refuse ⟨.empty name, some name⟩
      else .ok ⟨name, package, store, fields, description⟩ : Attempt Refusal Schema) ≠
        .error (.fault k) := by
  split <;> simp [Attempt.refuse]

/-- A text, null or nothing. -/
def Json.IsOptionalText (v : Option Json) : Prop :=
  v = none ∨ v = some .null ∨ ∃ text, v = some (.string text)

namespace Field

variable {aggregate name key : Text} {position : Nat} {k : Fault}

@[simp] theorem documentKey_ne_fault {v : Json} :
    documentKey aggregate position v ≠ .error (.fault k) := by
  unfold documentKey
  split
  · split <;> simp [Refusal.malformed, Attempt.refuse]
  · simp [Attempt.refuse]

theorem documentKey_eq_ok {v : Json} :
    documentKey aggregate position v = .ok key ↔ v = .string key ∧ key ≠ "" := by
  unfold documentKey
  split
  · rename_i text
    by_cases ht : text = ""
    · simp only [ht, if_true, Attempt.refuse, reduceCtorEq, Json.string.injEq, false_iff, not_and,
        not_not]
      exact Eq.symm
    · simp only [ht, if_false, Except.ok.injEq, Json.string.injEq]
      exact ⟨fun h => ⟨h, h ▸ ht⟩, And.left⟩
  · rename_i hv
    simp only [Attempt.refuse, reduceCtorEq, false_iff, not_and]
    exact fun h => absurd h (hv key)

@[simp] theorem documentName_ne_fault {v : Option Json} :
    documentName aggregate position key v ≠ .error (.fault k) := by
  unfold documentName
  split
  · simp
  · simp
  · split <;> simp [Attempt.refuse]
  · simp [Attempt.refuse]

@[simp] theorem documentType_ne_fault {v : Option Json} :
    documentType aggregate name v ≠ .error (.fault k) := by
  unfold documentType
  split <;> simp [Attempt.refuse]

@[simp] theorem documentAsync_ne_fault {v : Option Json} :
    documentAsync aggregate name v ≠ .error (.fault k) := by
  unfold documentAsync
  split <;> simp [Attempt.refuse]

theorem documentDefault_eq_fault {v : Option Json} :
    documentDefault aggregate name v = .error (.fault k) ↔
      k = .badValue ∧ ∃ d, v = some d ∧ d.IsScalar ∧ d.isWritable = false := by
  unfold documentDefault
  split
  · simp
  · simp [Json.IsScalar]
  · simp [Json.IsScalar, Attempt.refuse]
  · simp [Json.IsScalar, Attempt.refuse]
  · rename_i d hnull harray hobject
    have hscalar : d.IsScalar := by cases d <;> simp_all [Json.IsScalar]
    simp [map_literalOf_eq_error, hscalar]

theorem documentName_ok_iff {v : Option Json} :
    (∃ name, documentName aggregate position key v = .ok name) ↔
      v = none ∨ v = some .null ∨ ∃ text, v = some (.string text) ∧ text ≠ "" := by
  unfold documentName
  split
  · simp
  · simp
  · rename_i text
    by_cases ht : text = "" <;> simp [ht, Attempt.refuse]
  · rename_i hnull htext
    simp only [Attempt.refuse, reduceCtorEq, exists_false, Option.some.injEq, false_or, false_iff,
      not_or, not_exists, not_and]
    exact ⟨hnull, fun text h => absurd h (htext text)⟩

theorem documentType_eq_ok {v : Option Json} {declared : Text} :
    documentType aggregate name v = .ok declared ↔
      (v = none ∧ declared = "string") ∨ v = some (.string declared) := by
  unfold documentType
  split
  · simp [eq_comm]
  · simp
  · rename_i htext
    simp only [Attempt.refuse, reduceCtorEq, Option.some.injEq, false_and, false_or, false_iff]
    exact htext declared

theorem documentAsync_ok_iff {v : Option Json} :
    (∃ b, documentAsync aggregate name v = .ok b) ↔ v = none ∨ ∃ b, v = some (.bool b) := by
  unfold documentAsync
  split
  · simp
  · simp
  · rename_i hbool
    simp only [Attempt.refuse, reduceCtorEq, exists_false, Option.some.injEq, false_or, false_iff,
      not_exists]
    exact hbool

theorem documentDefault_eq_some {v : Option Json} {literal : Text} :
    documentDefault aggregate name v = .ok (some literal) ↔
      ∃ d, v = some d ∧ d.IsScalar ∧ literalOf d = .ok literal := by
  unfold documentDefault
  split
  · simp
  · simp [Json.IsScalar]
  · simp [Json.IsScalar, Attempt.refuse]
  · simp [Json.IsScalar, Attempt.refuse]
  · rename_i d hnull harray hobject
    have hscalar : d.IsScalar := by cases d <;> simp_all [Json.IsScalar]
    cases hl : literalOf d <;> simp [Except.map, hl, hscalar]

/-- An entry of a list of fields whose members have the forms that they need, its default apart. -/
structure IsEntry (raw : Json) (declared : Text) : Prop where
  key : ∃ key, raw.member? "key" = some (.string key) ∧ key ≠ ""
  name : raw.member? "name" = none ∨ raw.member? "name" = some .null ∨
    ∃ text, raw.member? "name" = some (.string text) ∧ text ≠ ""
  type : (raw.member? "type" = none ∧ declared = "string") ∨
    raw.member? "type" = some (.string declared)
  async : raw.member? "async" = none ∨ ∃ b, raw.member? "async" = some (.bool b)

/-- The default of an entry is an integer, or the numeral of one, of too many digits. -/
def EntryStops (raw : Json) : Prop :=
  ∃ declared d, IsEntry raw declared ∧ raw.member? "default" = some d ∧ d.IsScalar ∧
    (d.isWritable = false ∨ ∃ type literal, typeNamed? declared = some type ∧
      literalOf d = .ok literal ∧ type.IsOverlong (some literal))

theorem isEntry_of_eq_ok {raw v : Json} {declared : Text} {isAsync : Bool}
    (hraw : raw.member? "key" = some v) (hkey : documentKey aggregate position v = .ok key)
    (hname : documentName aggregate position key (raw.member? "name") = .ok name)
    (htype : documentType aggregate name (raw.member? "type") = .ok declared)
    (hasync : documentAsync aggregate name (raw.member? "async") = .ok isAsync) :
    IsEntry raw declared := by
  obtain ⟨rfl, hne⟩ := documentKey_eq_ok.mp hkey
  exact ⟨⟨key, hraw, hne⟩, documentName_ok_iff.mp ⟨name, hname⟩, documentType_eq_ok.mp htype,
    documentAsync_ok_iff.mp ⟨isAsync, hasync⟩⟩

theorem ofDocument_eq_fault {raw v : Json} (hraw : raw.member? "key" = some v) :
    ofDocument aggregate position raw v = .error (.fault k) ↔ k = .badValue ∧ EntryStops raw := by
  simp only [ofDocument, Attempt.bind_eq_error, documentKey_ne_fault, documentName_ne_fault,
    documentType_ne_fault, documentAsync_ne_fault, documentDefault_eq_fault, declare_eq_fault,
    false_or, reduceCtorEq, Except.ok.injEq, and_false]
  constructor
  · rintro ⟨key, hkey, name, hname, declared, htype, isAsync, hasync, h⟩
    have hentry := isEntry_of_eq_ok hraw hkey hname htype hasync
    rcases h with ⟨rfl, d, hd, hscalar, hw⟩ | ⟨default, hdefault, type, ht, hover, rfl⟩
    · exact ⟨rfl, declared, d, hentry, hd, hscalar, Or.inl hw⟩
    · obtain ⟨literal, cs, rfl, -, -⟩ := id hover
      obtain ⟨d, hd, hscalar, hl⟩ := documentDefault_eq_some.mp hdefault
      exact ⟨rfl, declared, d, hentry, hd, hscalar, Or.inr ⟨type, literal, ht, hl, hover⟩⟩
  · rintro ⟨rfl, declared, d, hentry, hd, hscalar, h⟩
    obtain ⟨key, hkey, hne⟩ := hentry.key
    obtain rfl : v = .string key := Option.some.inj (hraw.symm.trans hkey)
    obtain ⟨name, hname⟩ :
        ∃ name, documentName aggregate position key (raw.member? "name") = .ok name :=
      documentName_ok_iff.mpr hentry.name
    obtain ⟨isAsync, hasync⟩ :
        ∃ isAsync, documentAsync aggregate name (raw.member? "async") = .ok isAsync :=
      documentAsync_ok_iff.mpr hentry.async
    refine ⟨key, documentKey_eq_ok.mpr ⟨rfl, hne⟩, name, hname, declared,
      documentType_eq_ok.mpr hentry.type, isAsync, hasync, ?_⟩
    rcases h with hw | ⟨type, literal, ht, hl, hover⟩
    · exact Or.inl ⟨rfl, d, hd, hscalar, hw⟩
    · exact Or.inr ⟨some literal, documentDefault_eq_some.mpr ⟨d, hd, hscalar, hl⟩, type, ht, hover,
        rfl⟩

theorem ofEntry_eq_fault {raw : Json} :
    ofEntry aggregate position raw = .error (.fault k) ↔ k = .badValue ∧ EntryStops raw := by
  unfold ofEntry
  split
  · split
    · rename_i hkey
      simp only [reduceCtorEq, false_iff, not_and]
      rintro - ⟨_, _, ⟨⟨key, hkey', -⟩, -, -, -⟩, -⟩
      rw [hkey] at hkey'
      cases hkey'
    · rename_i hkey
      simp only [Attempt.bind_eq_error, ofDocument_eq_fault hkey, reduceCtorEq, and_false,
        exists_false, or_false]
  · rename_i hraw
    simp only [Attempt.refuse, Except.error.injEq, reduceCtorEq, false_iff, not_and]
    rintro - ⟨_, _, ⟨⟨key, hkey, -⟩, -, -, -⟩, -⟩
    cases raw with
    | object members => exact hraw members rfl
    | _ => cases hkey

end Field

theorem take_zipIdx {α : Type} (l : List α) (n : Nat) : l.zipIdx.take n = (l.take n).zipIdx := by
  apply List.ext_getElem?
  intro i
  simp only [List.getElem?_take, List.getElem?_zipIdx]
  split <;> rfl

theorem Field.ofDocuments_eq_fault {aggregate : Text} {raws : List Json} {k : Fault} :
    ofDocuments aggregate raws = .error (.fault k) ↔
      k = .badValue ∧ ∃ n raw fields, raws[n]? = some raw ∧
        ofDocuments aggregate (raws.take n) = .ok fields ∧ EntryStops raw := by
  simp only [ofDocuments, Attempt.collect_eq_error, List.getElem?_zipIdx, Option.map_eq_some_iff,
    ofEntry_eq_fault, take_zipIdx]
  constructor
  · rintro ⟨n, e, fields, ⟨raw, hn, rfl⟩, hfields, rfl, hraw⟩
    exact ⟨rfl, n, raw, fields, hn, hfields, hraw⟩
  · rintro ⟨rfl, n, raw, fields, hn, hfields, hraw⟩
    exact ⟨n, _, fields, ⟨raw, hn, rfl⟩, hfields, rfl, hraw⟩

namespace Schema

variable {name : Text} {k : Fault}

@[simp] theorem documentName_ne_fault {data : Json} :
    documentName data ≠ .error (.fault k) := by
  unfold documentName
  split
  · split
    · split <;> simp [Attempt.refuse]
    · simp [Attempt.refuse]
  · simp [Attempt.refuse]

@[simp] theorem documentStore_ne_fault {v : Option Json} :
    documentStore name v ≠ .error (.fault k) := by
  unfold documentStore
  split
  · simp
  · split <;> simp [Attempt.refuse]
  · simp [Attempt.refuse]

theorem documentStore_ok_iff {v : Option Json} :
    (∃ store, documentStore name v = .ok store) ↔
      v = none ∨ ∃ text, v = some (.string text) ∧ text ≠ "" := by
  unfold documentStore
  split
  · simp
  · rename_i text
    by_cases ht : text = "" <;> simp [ht, Attempt.refuse]
  · rename_i htext
    simp only [Attempt.refuse, reduceCtorEq, exists_false, Option.some.injEq, false_or, false_iff,
      not_exists, not_and]
    exact fun text h => absurd h (htext text)

theorem packageText_ok_iff {v : Json} :
    (∃ package, packageText name v = .ok package) ↔ Json.IsOptionalText (some v) := by
  cases v <;> simp [packageText, Json.IsOptionalText, Attempt.refuse]

@[simp] theorem packageText_ne_fault {v : Json} : packageText name v ≠ .error (.fault k) := by
  cases v <;> simp [packageText, Attempt.refuse]

theorem documentPackage_ok_iff {fallback : Json} {text : Text}
    (h : packageText name fallback = .ok text) {v : Option Json} :
    (∃ package, documentPackage name fallback v = .ok package) ↔ Json.IsOptionalText v := by
  unfold documentPackage
  split
  · simp [h, Json.IsOptionalText]
  · simp [h, Json.IsOptionalText]
  · exact packageText_ok_iff

@[simp] theorem documentPackage_ne_fault {package : Json} {v : Option Json} :
    documentPackage name package v ≠ .error (.fault k) := by
  unfold documentPackage
  split <;> exact packageText_ne_fault

theorem documentDescription_ok_iff {v : Option Json} :
    (∃ text, documentDescription name v = .ok text) ↔ Json.IsOptionalText v := by
  unfold documentDescription
  split
  · simp [Json.IsOptionalText]
  · simp [Json.IsOptionalText]
  · simp [Json.IsOptionalText]
  · rename_i hnull htext
    simp only [Attempt.refuse, Json.IsOptionalText, reduceCtorEq, exists_false, Option.some.injEq,
      false_or, false_iff, not_or, not_exists]
    exact ⟨hnull, htext⟩

@[simp] theorem documentDescription_ne_fault {v : Option Json} :
    documentDescription name v ≠ .error (.fault k) := by
  unfold documentDescription
  split <;> simp [Attempt.refuse]

theorem documentFields_eq_ok {v : Option Json} {raws : List Json} :
    documentFields name v = .ok raws ↔ (v = none ∧ raws = []) ∨ v = some (.array raws) := by
  unfold documentFields
  split
  · simp [eq_comm]
  · simp
  · rename_i harray
    simp only [Attempt.refuse, reduceCtorEq, Option.some.injEq, false_and, false_or, false_iff]
    exact harray raws

@[simp] theorem documentFields_ne_fault {v : Option Json} :
    documentFields name v ≠ .error (.fault k) := by
  unfold documentFields
  split <;> simp [Attempt.refuse]

/-- A document whose members have the forms that they need, its list of fields apart. -/
structure IsHead (data : Json) (name : Text) (raws : List Json) : Prop where
  name : data.member? "name" = some (.string name) ∧ name ≠ ""
  store : data.member? "store" = none ∨ ∃ text, data.member? "store" = some (.string text) ∧ text ≠ ""
  package : Json.IsOptionalText (data.member? "package")
  description : Json.IsOptionalText (data.member? "description")
  fields : (data.member? "fields" = none ∧ raws = []) ∨ data.member? "fields" = some (.array raws)

theorem ofDocument_eq_fault {data : Json} :
    ofDocument data .null = .error (.fault k) ↔
      k = .badValue ∧ ∃ name raws n raw fields, IsHead data name raws ∧ raws[n]? = some raw ∧
        Field.ofDocuments name (raws.take n) = .ok fields ∧ Field.EntryStops raw := by
  simp only [ofDocument, Attempt.bind_eq_error, documentName_ne_fault, documentStore_ne_fault,
    documentPackage_ne_fault, documentDescription_ne_fault, documentFields_ne_fault,
    Field.ofDocuments_eq_fault, unless_empty_ne_fault, false_or, and_false, exists_false, or_false]
  constructor
  · rintro ⟨name, hname, store, hstore, package, hpackage, text, htext, raws, hraws, rfl, n, raw,
      fields, hn, hfields, hraw⟩
    exact ⟨rfl, name, raws, n, raw, fields,
      ⟨documentName_eq_ok.mp hname, documentStore_ok_iff.mp ⟨store, hstore⟩,
        (documentPackage_ok_iff rfl).mp ⟨package, hpackage⟩, documentDescription_ok_iff.mp ⟨text, htext⟩,
        documentFields_eq_ok.mp hraws⟩, hn, hfields, hraw⟩
  · rintro ⟨rfl, name, raws, n, raw, fields, hhead, hn, hfields, hraw⟩
    obtain ⟨store, hstore⟩ : ∃ store, documentStore name (data.member? "store") = .ok store :=
      documentStore_ok_iff.mpr hhead.store
    obtain ⟨package, hpackage⟩ :
        ∃ package, documentPackage name .null (data.member? "package") = .ok package :=
      (documentPackage_ok_iff rfl).mpr hhead.package
    obtain ⟨text, htext⟩ :
        ∃ text, documentDescription name (data.member? "description") = .ok text :=
      documentDescription_ok_iff.mpr hhead.description
    exact ⟨name, documentName_eq_ok.mpr hhead.name, store, hstore, package, hpackage, text, htext,
      raws, documentFields_eq_ok.mpr hhead.fields, rfl, n, raw, fields, hn, hfields, hraw⟩

end Schema

end PrefAccessor
