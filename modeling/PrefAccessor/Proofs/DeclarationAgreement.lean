import PrefAccessor.Proofs.DocumentForm
import PrefAccessor.Proofs.ObjectNames
import PrefAccessor.Proofs.ResolutionOrder

/-!
# A class and a document that declare the same

An aggregate can be declared by a class or by a document. Whatever it is, both are accepted with the
same fields under the same names, or both are refused for the first of its preferences that is not
sound. The two check an attribute and an entry by different steps; each is reduced to one reading of
the preference that they stand for.
-/

namespace PrefAccessor

set_option autoImplicit false

/-- A preference before its key and its default are checked. -/
structure Preference where
  name : Text
  key : Text
  type : PrefType
  default : Option Json
  isAsync : Bool
  name_ne : name ≠ ""
  default_isScalar : ∀ v ∈ default, v.IsScalar

/-- The type is one way to write the preference type as the type of an attribute, where its texts have
this meaning. -/
def Annotation.Spells (meaning : Annotation.Meaning) (a : Annotation) (type : PrefType) : Prop :=
  ∃ read, a.readTexts meaning = .ok read ∧
    (∀ inner metadata, read.normalize ≠ .annotated inner metadata) ∧
    read.normalize.resolve = .ok (some type)

namespace Preference

variable {aggregate : Text} {position : Nat} {meaning : Annotation.Meaning}

def field (p : Preference) (aggregate : Text) : Attempt Refusal Field := do
  let literal ← Attempt.ofFaults (Field.literal? p.default)
  let _ ← Attempt.mapRefusal (fun problem => Refusal.mk (.invalidDefault problem) (some aggregate))
    (p.type.defaultValue literal)
  .ok ⟨p.name, p.key, p.type, literal, p.isAsync⟩

/-- The field of the preference, whose empty key is refused with the given problem. -/
def read (p : Preference) (aggregate : Text) (problem : SchemaProblem) :
    Attempt Refusal (List Field) :=
  if p.key = "" then Attempt.refuse (Refusal.malformed (some aggregate) problem)
  else do
    let f ← p.field aggregate
    .ok [f]

/-- A preference that has a key, and a default that its type accepts. -/
def IsSound (p : Preference) : Prop :=
  p.key ≠ "" ∧ ∃ literal v, Field.literal? p.default = .ok literal ∧
    p.type.defaultValue literal = .ok v

/-- How the two declarations of a preference fail, the attribute and the entry at `position`. -/
inductive Fails (p : Preference) (aggregate : Text) (position : Nat) :
    Failure Refusal → Failure Refusal → Prop
  | key (h : p.key = "") :
    Fails p aggregate position
      (.refused (Refusal.malformed (some aggregate) (.keyOfAttribute aggregate p.name)))
      (.refused (Refusal.malformed (some aggregate) (.keyOfField position aggregate)))
  | default {e : Failure Refusal} (hkey : p.key ≠ "") (h : p.field aggregate = .error e) :
    Fails p aggregate position e e

/-- An attribute of a class that declares the preference. -/
def IsAttribute (meaning : Annotation.Meaning) (p : Preference) (entry : Text × Annotation) : Prop :=
  entry.1 = p.name ∧ ∃ declared metadata, entry.2 = .annotated declared metadata ∧
    declared.Spells meaning p.type ∧
    ClassDeclaration.keyMarker? metadata = some (.string p.key, .bool p.isAsync) ∧
    ClassDeclaration.defaultMarker? metadata = p.default

/-- An entry of a document that declares the preference. -/
structure IsEntry (p : Preference) (raw : Json) : Prop where
  key : raw.member? "key" = some (.string p.key)
  name : (raw.member? "name" = none ∨ raw.member? "name" = some .null) ∧ p.name = p.key ∨
    raw.member? "name" = some (.string p.name)
  type : ∃ declared, typeNamed? declared = some p.type ∧
    (raw.member? "type" = none ∧ declared = "string" ∨
      raw.member? "type" = some (.string declared))
  async : raw.member? "async" = none ∧ p.isAsync = false ∨
    raw.member? "async" = some (.bool p.isAsync)
  default : Field.GivesDefault raw p.default

theorem declare_eq_field (p : Preference) (label : Except Fault Text) :
    (Attempt.ofFaults (Field.literal? p.default) >>= fun literal =>
      Field.declare aggregate p.name p.key (.ok (some p.type)) label literal p.isAsync) =
      p.field aggregate := by
  unfold field
  congr 1
  funext literal
  simp only [Field.declare]
  generalize Attempt.mapRefusal _ (p.type.defaultValue literal) = checked
  cases checked <;> rfl

theorem field_laidTo (p : Preference) : LaidTo aggregate (p.field aggregate) := by
  rw [← p.declare_eq_field (.ok "")]
  exact .bind (.ofFaults _) fun _ => Field.declare_laidTo

theorem ofEntry_eq_read {p : Preference} {raw : Json} (h : p.IsEntry raw) :
    Field.ofEntry aggregate position raw = p.read aggregate (.keyOfField position aggregate) := by
  rw [Field.ofEntry_of_key h.key]
  unfold read
  by_cases hkey : p.key = ""
  · rw [if_pos hkey]
    simp only [Field.ofDocument, Field.documentKey, hkey, if_true]
    rfl
  · obtain ⟨declared, ht, htype⟩ := h.type
    have hk : Field.documentKey aggregate position (.string p.key) = .ok p.key :=
      Field.documentKey_eq_ok.mpr ⟨rfl, hkey⟩
    have hn : Field.documentName aggregate position p.key (raw.member? "name") = .ok p.name :=
      Field.documentName_eq_ok.mpr (h.name.imp_right fun hname => ⟨hname, p.name_ne⟩)
    have hd : Field.documentType aggregate p.name (raw.member? "type") = .ok declared :=
      Field.documentType_eq_ok.mpr htype
    have ha : Field.documentAsync aggregate p.name (raw.member? "async") = .ok p.isAsync :=
      Field.documentAsync_eq_ok.mpr h.async
    rw [if_neg hkey, ← p.declare_eq_field (.ok declared)]
    simp only [Field.ofDocument, hk, hn, hd, ha, ht, Field.documentDefault_of_gives h.default,
      Attempt.ok_bind]

theorem attributeField_eq_read {p : Preference} {declared : Annotation} {metadata : List Marker}
    (htype : declared.resolve = .ok (some p.type))
    (hkey : ClassDeclaration.keyMarker? metadata = some (.string p.key, .bool p.isAsync))
    (hdefault : ClassDeclaration.defaultMarker? metadata = p.default) :
    ClassDeclaration.attributeField aggregate p.name (.annotated declared metadata) =
      p.read aggregate (.keyOfAttribute aggregate p.name) := by
  have hliteral : ClassDeclaration.defaultLiteral metadata = Field.literal? p.default := by
    rw [ClassDeclaration.defaultLiteral, hdefault]
    cases p.default <;> rfl
  simp only [ClassDeclaration.attributeField, hkey, read, hliteral, htype,
    ← p.declare_eq_field declared.label?, bind_assoc]

theorem IsAttribute.read_eq {p : Preference} {entry : Text × Annotation}
    (h : p.IsAttribute meaning entry) :
    ∃ type, entry.2.readTexts meaning = .ok type ∧
      ∀ aggregate, ClassDeclaration.attributeField aggregate p.name type.normalize =
        p.read aggregate (.keyOfAttribute aggregate p.name) := by
  obtain ⟨-, declared, metadata, htype, ⟨inner, hinner, hplain, hresolve⟩, hkey, hdefault⟩ := h
  refine ⟨.annotated inner metadata, ?_, fun aggregate => ?_⟩
  · rw [htype, Annotation.readTexts, hinner]
    rfl
  · have hnormal : Annotation.normalize (.annotated inner metadata) =
        .annotated inner.normalize metadata := by
      rw [ Annotation.normalize]
      unfold Annotation.annotate
      split
      · rename_i heq
        exact absurd heq (hplain _ _)
      · rfl
    rw [hnormal]
    exact attributeField_eq_read hresolve hkey hdefault

theorem field_eq_ok {p : Preference} {f : Field} :
    p.field aggregate = .ok f ↔ ∃ literal v, Field.literal? p.default = .ok literal ∧
      p.type.defaultValue literal = .ok v ∧ f = ⟨p.name, p.key, p.type, literal, p.isAsync⟩ := by
  simp only [field, Attempt.bind_eq_ok, Attempt.ofFaults_eq_ok, Attempt.mapRefusal_eq_ok,
    Except.ok.injEq]
  constructor
  · rintro ⟨literal, hl, v, hv, rfl⟩
    exact ⟨literal, v, hl, hv, rfl⟩
  · rintro ⟨literal, v, hl, hv, rfl⟩
    exact ⟨literal, hl, v, hv, rfl⟩

/-- Of one preference, both declarations give its field or both fail. -/
theorem read_cases (p : Preference) (aggregate : Text) (position : Nat) :
    (p.IsSound ∧ ∃ f, p.field aggregate = .ok f ∧
      ∀ problem, p.read aggregate problem = .ok [f]) ∨
    ∃ e e', p.Fails aggregate position e e' ∧
      p.read aggregate (.keyOfAttribute aggregate p.name) = .error e ∧
      p.read aggregate (.keyOfField position aggregate) = .error e' := by
  by_cases hkey : p.key = ""
  · refine Or.inr ⟨_, _, .key hkey, ?_, ?_⟩
    · exact if_pos hkey
    · exact if_pos hkey
  · have hread (problem : SchemaProblem) : p.read aggregate problem =
        p.field aggregate >>= fun f => .ok [f] := if_neg hkey
    cases hf : p.field aggregate with
    | ok f =>
      obtain ⟨literal, v, hl, hv, -⟩ := field_eq_ok.mp hf
      refine Or.inl ⟨⟨hkey, literal, v, hl, hv⟩, f, rfl, fun problem => ?_⟩
      rw [hread, hf, Attempt.ok_bind]
    | error e =>
      refine Or.inr ⟨e, e, .default hkey hf, ?_, ?_⟩
      · rw [hread, hf]
        rfl
      · rw [hread, hf]
        rfl

def readAttributes (aggregate : Text) (ps : List Preference) : Attempt Refusal (List Field) :=
  Attempt.collect (fun p => p.read aggregate (.keyOfAttribute aggregate p.name)) ps

/-- The fields of the entries from `position` on. -/
def readEntries (aggregate : Text) (position : Nat) (ps : List Preference) :
    Attempt Refusal (List Field) :=
  Attempt.collect (fun e => e.1.read aggregate (.keyOfField e.2 aggregate)) (ps.zipIdx position)

/-- The first preference that is not sound is at `n`, and its declarations fail so. -/
def FirstFails (aggregate : Text) (ps : List Preference) (position : Nat)
    (e e' : Failure Refusal) : Prop :=
  ∃ n p, ps[n]? = some p ∧ (∀ q ∈ ps.take n, q.IsSound) ∧ p.Fails aggregate (position + n) e e'

theorem readAttributes_agrees (aggregate : Text) (ps : List Preference) (position : Nat) :
    (∃ fields, readAttributes aggregate ps = .ok fields ∧
      readEntries aggregate position ps = .ok fields ∧
      List.Forall₂ (fun p f => p.field aggregate = .ok f) ps fields) ∨
    ∃ e e', FirstFails aggregate ps position e e' ∧ readAttributes aggregate ps = .error e ∧
      readEntries aggregate position ps = .error e' := by
  -- The entries of the rest stand one position further on, which only their messages show.
  induction ps generalizing position with
  | nil => exact Or.inl ⟨[], rfl, rfl, .nil⟩
  | cons p ps ih =>
    have hattributes : readAttributes aggregate (p :: ps) =
        p.read aggregate (.keyOfAttribute aggregate p.name) >>= fun found =>
          readAttributes aggregate ps >>= fun rest => .ok (found ++ rest) := rfl
    have hentries : readEntries aggregate position (p :: ps) =
        p.read aggregate (.keyOfField position aggregate) >>= fun found =>
          readEntries aggregate (position + 1) ps >>= fun rest => .ok (found ++ rest) := rfl
    rcases p.read_cases aggregate position with ⟨hsound, f, hf, hread⟩ | ⟨e, e', hfails, he, he'⟩
    · rw [hattributes, hentries, hread, hread, Attempt.ok_bind, Attempt.ok_bind]
      rcases ih (position + 1) with ⟨fields, ha, hb, hall⟩ | ⟨e, e', ⟨n, q, hn, hall, hq⟩, ha, hb⟩
      · rw [ha, hb]
        exact Or.inl ⟨f :: fields, rfl, rfl, .cons hf hall⟩
      · rw [ha, hb]
        refine Or.inr ⟨e, e', ⟨n + 1, q, hn, ?_, ?_⟩, rfl, rfl⟩
        · rw [List.take_succ_cons]
          exact List.forall_mem_cons.mpr ⟨hsound, hall⟩
        · rwa [Nat.add_assoc, Nat.add_comm 1 n] at hq
    · rw [hattributes, hentries, he, he']
      refine Or.inr ⟨e, e', ⟨0, p, rfl, ?_, hfails⟩, rfl, rfl⟩
      intro q hq
      cases hq

end Preference

/-- An aggregate before the name of its store and its preferences are checked. -/
structure Aggregate where
  name : Text
  store : Text
  preferences : List Preference
  name_ne : name ≠ ""
  nodup_names : (preferences.map Preference.name).Nodup

namespace Aggregate

/-- A class that declares the aggregate. -/
structure IsClass (a : Aggregate) (c : ClassDeclaration) : Prop where
  name : c.name = a.name
  tag : c.tag = some (.string a.store)
  bases : c.bases = []
  attributes : List.Forall₂ (Preference.IsAttribute c.meaning) a.preferences c.attributes
  documentation : ∃ description, c.description = .ok description

/-- A document that declares the aggregate. -/
structure IsDocument (a : Aggregate) (data : Json) : Prop where
  name : data.member? "name" = some (.string a.name)
  store : data.member? "store" = none ∧ a.store = a.name ∨
    data.member? "store" = some (.string a.store)
  package : Json.IsOptionalText (data.member? "package")
  description : Json.IsOptionalText (data.member? "description")
  fields : ∃ raws, (data.member? "fields" = none ∧ raws = [] ∨
      data.member? "fields" = some (.array raws)) ∧
    List.Forall₂ Preference.IsEntry a.preferences raws

/-- How the class and the document fail: for the name of the store, for the first preference that is
not sound, or because there is none. -/
inductive Fails (a : Aggregate) : Failure Refusal → Failure Refusal → Prop
  | store (h : a.store = "") :
    Fails a (.refused (Refusal.malformed (some a.name) (.storeName a.name)))
      (.refused (Refusal.malformed (some a.name) (.storeName a.name)))
  | preference {e e' : Failure Refusal} (hstore : a.store ≠ "")
    (h : Preference.FirstFails a.name a.preferences 0 e e') : Fails a e e'
  | empty (hstore : a.store ≠ "") (h : a.preferences = []) :
    Fails a (.refused ⟨.empty a.name, some a.name⟩) (.refused ⟨.empty a.name, some a.name⟩)

variable {a : Aggregate} {c : ClassDeclaration} {data : Json} {meaning : Annotation.Meaning}

theorem Fails.failureClass_eq {e e' : Failure Refusal} (h : a.Fails e e') :
    e.failureClass = e'.failureClass := by
  cases h with
  | store => rfl
  | preference _ h =>
    obtain ⟨_, p, -, -, h⟩ := h
    cases h with
    | key => rfl
    | default => rfl
  | empty => rfl

theorem readAttributes_eq_ok {ps : List Preference} {entries : List (Text × Annotation)}
    (h : List.Forall₂ (Preference.IsAttribute meaning) ps entries) :
    ∃ types, ClassDeclaration.readAttributes meaning entries = .ok types ∧
      Entries.keys types = ps.map Preference.name ∧
      ∀ aggregate, ClassDeclaration.fieldsOf aggregate types =
        Preference.readAttributes aggregate ps := by
  induction h with
  | nil => exact ⟨[], rfl, rfl, fun _ => rfl⟩
  | @cons p entry ps entries hp _ ih =>
    obtain ⟨types, htypes, hkeys, hfields⟩ := ih
    obtain ⟨type, htype, hread⟩ := hp.read_eq
    refine ⟨(p.name, type.normalize) :: types, ?_, ?_, fun aggregate => ?_⟩
    · obtain ⟨name, annotation⟩ := entry
      obtain rfl : name = p.name := hp.1
      simp only [ClassDeclaration.readAttributes, htype, htypes, Except.map]
    · exact congrArg (p.name :: ·) hkeys
    · have hrest := hfields aggregate
      unfold ClassDeclaration.fieldsOf Preference.readAttributes at hrest ⊢
      simp only [Attempt.collect, hread, hrest]

theorem keys_of_attributes {ps : List Preference} {entries : List (Text × Annotation)}
    (h : List.Forall₂ (Preference.IsAttribute meaning) ps entries) :
    Entries.keys entries = ps.map Preference.name := by
  induction h with
  | nil => rfl
  | cons hp _ ih => exact congrArg₂ List.cons hp.1 ih

theorem IsClass.storeName_eq (h : a.IsClass c) (hstore : a.store ≠ "") :
    c.storeName = .ok a.store := by
  simp only [ClassDeclaration.storeName, h.tag, if_neg hstore]

theorem IsClass.fields_eq (h : a.IsClass c) (hstore : a.store ≠ "") :
    c.fields = Preference.readAttributes a.name a.preferences := by
  obtain ⟨types, htypes, hkeys, hfields⟩ := readAttributes_eq_ok h.attributes
  have hattributes : Entries.ofList c.attributes = c.attributes :=
    Entries.ofList_of_nodup (keys_of_attributes h.attributes ▸ a.nodup_names)
  have hannotations : c.annotations = .ok types := by
    simp only [ClassDeclaration.annotations, ClassDeclaration.hierarchy,
      ClassDeclaration.resolutionOrder?_of_bases_eq_nil h.bases, Option.getD_some,
      List.reverse_singleton, ClassDeclaration.readHierarchy, hattributes, htypes, Except.map,
      List.append_nil]
    rw [Entries.ofList_of_nodup (hkeys ▸ a.nodup_names)]
  simp only [ClassDeclaration.fields, h.storeName_eq hstore, hannotations, h.name, hfields,
    Attempt.ok_bind]

theorem Fails.laid {e e' : Failure Refusal} (h : a.Fails e e') :
    (∀ r, e = .refused r → r.aggregate = some a.name) ∧
      ∀ r, e' = .refused r → r.aggregate = some a.name := by
  have hsame {r : Refusal} (hr : r.aggregate = some a.name) :
      ∀ r', Failure.refused r = .refused r' → r'.aggregate = some a.name := by
    intro r' h
    cases h
    exact hr
  cases h with
  | store => exact ⟨hsame rfl, hsame rfl⟩
  | preference _ h =>
    obtain ⟨_, p, -, -, h⟩ := h
    cases h with
    | key => exact ⟨hsame rfl, hsame rfl⟩
    | default _ hfield =>
      have hlaid : ∀ r, e = .refused r → r.aggregate = some a.name := by
        rintro r rfl
        exact p.field_laidTo r hfield
      exact ⟨hlaid, hlaid⟩
  | empty => exact ⟨hsame rfl, hsame rfl⟩

theorem ofClass_of_store_eq (h : a.IsClass c) (hstore : a.store = "") (package : Option Text) :
    Schema.ofClass c package =
      .error (.refused (Refusal.malformed (some a.name) (.storeName a.name))) := by
  have hname : c.storeName =
      .error (.refused (Refusal.malformed (some a.name) (.storeName a.name))) := by
    simp only [ClassDeclaration.storeName, h.tag, hstore, h.name, if_true]
    rfl
  simp only [Schema.ofClass, ClassDeclaration.fields, hname]
  rfl

theorem ofClass_eq (h : a.IsClass c) (hstore : a.store ≠ "") (package : Option Text) :
    ∃ text description, Schema.ofClass c package =
      Preference.readAttributes a.name a.preferences >>= fun fields =>
        if fields = [] then Attempt.refuse ⟨.empty a.name, some a.name⟩
        else .ok ⟨a.name, text, a.store, fields, description⟩ := by
  obtain ⟨description, hdescription⟩ := h.documentation
  have hread : Attempt.ofFaults c.description = (.ok description : Attempt Refusal _) :=
    Attempt.ofFaults_eq_ok.mpr hdescription
  refine ⟨package.getD c.moduleName, description, ?_⟩
  simp only [Schema.ofClass, h.fields_eq hstore, h.storeName_eq hstore, hread, h.name,
    Attempt.ok_bind]

theorem ofDocuments_eq {ps : List Preference} {raws : List Json} {aggregate : Text}
    (h : List.Forall₂ Preference.IsEntry ps raws) :
    Field.ofDocuments aggregate raws = Preference.readEntries aggregate 0 ps := by
  unfold Field.ofDocuments Preference.readEntries
  generalize 0 = position
  induction h generalizing position with
  | nil => rfl
  | cons hp _ ih =>
    simp only [List.zipIdx_cons, Attempt.collect, Preference.ofEntry_eq_read hp, ih]

theorem ofDocument_of_store_eq (h : a.IsDocument data) (hstore : a.store = "") (package : Json) :
    Schema.ofDocument data package =
      .error (.refused (Refusal.malformed (some a.name) (.storeName a.name))) := by
  have hname : Schema.documentName data = .ok a.name :=
    Schema.documentName_eq_ok.mpr ⟨h.name, a.name_ne⟩
  have hgiven : data.member? "store" = some (.string "") := by
    rcases h.store with ⟨-, hsame⟩ | hgiven
    · exact absurd (hsame.symm.trans hstore) a.name_ne
    · rw [hgiven, hstore]
  simp only [Schema.ofDocument, hname, hgiven, Attempt.ok_bind]
  rfl

theorem IsDocument.isHead (h : a.IsDocument data) (hstore : a.store ≠ "") :
    ∃ raws, Schema.IsHead data a.name raws ∧
      List.Forall₂ Preference.IsEntry a.preferences raws := by
  obtain ⟨raws, hraws, hentries⟩ := h.fields
  have hgiven : data.member? "store" = none ∨
      ∃ text, data.member? "store" = some (.string text) ∧ text ≠ "" :=
    h.store.imp And.left fun hgiven => ⟨a.store, hgiven, hstore⟩
  exact ⟨raws, ⟨⟨h.name, a.name_ne⟩, hgiven, h.package, h.description, hraws⟩, hentries⟩

theorem IsDocument.storeName_eq (h : a.IsDocument data) {s : Schema} {package : Option Text}
    (hs : s.IsDeclaredBy data package) : s.name = a.name ∧ s.storeName = a.store := by
  have hname : s.name = a.name :=
    Json.string.inj (Option.some.inj (hs.name.1.symm.trans h.name))
  refine ⟨hname, ?_⟩
  rcases h.store with ⟨hnone, hsame⟩ | hgiven
  · rcases hs.store with ⟨-, hstore⟩ | ⟨hstore, -⟩
    · rw [hstore, hname, hsame]
    · rw [hnone] at hstore
      cases hstore
  · rcases hs.store with ⟨hnone, -⟩ | ⟨hstore, -⟩
    · rw [hgiven] at hnone
      cases hnone
    · exact Json.string.inj (Option.some.inj (hstore.symm.trans hgiven))

end Aggregate

/-- The plainest type of the attributes of a preference type. -/
def PrefType.annotation : PrefType → Annotation
  | .string => .basic .str
  | .int => .basic .int
  | .boolean => .basic .bool
  | .float => .basic .float
  | .long => .basic .long
  | .stringSet => .generic .set .builtin [.basic .str]

theorem PrefType.annotation_spells (meaning : Annotation.Meaning) (type : PrefType) :
    type.annotation.Spells meaning type := by
  cases type with
  | stringSet => exact ⟨_, rfl, by rintro _ _ ⟨⟩, by decide⟩
  | _ => exact ⟨_, rfl, by rintro _ _ ⟨⟩, by decide⟩

theorem PrefType.typeNamed?_name (type : PrefType) : typeNamed? type.name = some type := by
  cases type <;> decide

namespace Preference

def plainAttribute (p : Preference) : Text × Annotation :=
  (p.name, .annotated p.type.annotation
    (.key (.string p.key) (.bool p.isAsync) :: p.default.toList.map .default))

def plainEntry (p : Preference) : Json :=
  .object (([("name", .string p.name), ("key", .string p.key), ("type", .string p.type.name),
    ("async", .bool p.isAsync)] : List (Text × Json)) ++
      p.default.toList.map fun v => (.plain "default", v))

theorem plainAttribute_isAttribute (p : Preference) (meaning : Annotation.Meaning) :
    p.IsAttribute meaning p.plainAttribute := by
  refine ⟨rfl, _, _, rfl, p.type.annotation_spells meaning, rfl, ?_⟩
  cases p.default <;> rfl

theorem plainEntry_isEntry (p : Preference) : p.IsEntry p.plainEntry := by
  refine ⟨rfl, Or.inr rfl, ⟨_, p.type.typeNamed?_name, Or.inr rfl⟩, Or.inr rfl, ?_⟩
  cases h : p.default with
  | none =>
    refine Or.inl ⟨Or.inl ?_, rfl⟩
    rw [plainEntry, h]
    rfl
  | some v =>
    refine Or.inr ⟨v, ?_, p.default_isScalar v h, rfl⟩
    rw [plainEntry, h]
    rfl

end Preference

namespace Aggregate

def plainClass (a : Aggregate) (moduleName : Text) : ClassDeclaration where
  identity := 0
  name := a.name
  tag := some (.string a.store)
  documentation := none
  moduleName := moduleName
  bases := []
  attributes := a.preferences.map Preference.plainAttribute
  meaning := .error

def plainDocument (a : Aggregate) : Json :=
  .object [("name", .string a.name), ("store", .string a.store),
    ("fields", .array (a.preferences.map Preference.plainEntry))]

theorem plainClass_isClass (a : Aggregate) (moduleName : Text) :
    a.IsClass (a.plainClass moduleName) where
  name := rfl
  tag := rfl
  bases := rfl
  attributes := by
    rw [plainClass, List.forall₂_map_right_iff, List.forall₂_same]
    intro p _
    exact p.plainAttribute_isAttribute _
  documentation := ⟨none, rfl⟩

theorem plainDocument_isDocument (a : Aggregate) : a.IsDocument a.plainDocument where
  name := rfl
  store := Or.inr rfl
  package := Or.inl rfl
  description := Or.inl rfl
  fields := by
    refine ⟨_, Or.inr rfl, ?_⟩
    rw [List.forall₂_map_right_iff, List.forall₂_same]
    intro p _
    exact p.plainEntry_isEntry

/-- A class and a document that declare one aggregate give it the same name, store and fields, or
both fail, for the same reason. -/
theorem declarations_agree (a : Aggregate) {c : ClassDeclaration} {data : Json} (hc : a.IsClass c)
    (hd : a.IsDocument data) (package fallback : Option Text) :
    (∃ s s', Schema.ofClass c package = .ok s ∧
      Schema.ofDocument data (Schema.fallbackPackage fallback) = .ok s' ∧
      (s.name = a.name ∧ s'.name = a.name) ∧ (s.storeName = a.store ∧ s'.storeName = a.store) ∧
      s.fields = s'.fields ∧
      List.Forall₂ (fun p f => p.field a.name = .ok f) a.preferences s.fields) ∨
    ∃ e e', Schema.ofClass c package = .error e ∧
      Schema.ofDocument data (Schema.fallbackPackage fallback) = .error e' ∧
      a.Fails e e' ∧ e.failureClass = e'.failureClass ∧
      (∀ r, e = .refused r → r.aggregate = some a.name) ∧
      ∀ r, e' = .refused r → r.aggregate = some a.name := by
  by_cases hstore : a.store = ""
  · have hfails : a.Fails _ _ := .store hstore
    exact Or.inr ⟨_, _, ofClass_of_store_eq hc hstore package, ofDocument_of_store_eq hd hstore _,
      hfails, hfails.failureClass_eq, hfails.laid⟩
  obtain ⟨text, description, hclass⟩ := ofClass_eq hc hstore package
  obtain ⟨raws, hhead, hentries⟩ := hd.isHead hstore
  obtain ⟨store', text', description', hdocument⟩ :
      ∃ store text description, Schema.ofDocument data (Schema.fallbackPackage fallback) =
        Field.ofDocuments a.name raws >>= fun fields =>
          if fields = [] then Attempt.refuse ⟨.empty a.name, some a.name⟩
          else .ok ⟨a.name, text, store, fields, description⟩ := Schema.ofDocument_of_isHead hhead
  rw [ofDocuments_eq hentries] at hdocument
  rcases Preference.readAttributes_agrees a.name a.preferences 0 with
    ⟨fields, hattributes, hread, hall⟩ | ⟨e, e', hfirst, he, he'⟩
  · rw [hattributes, Attempt.ok_bind] at hclass
    rw [hread, Attempt.ok_bind] at hdocument
    by_cases hnil : fields = []
    · rw [if_pos hnil] at hclass hdocument
      have hnone : a.preferences = [] := by
        subst hnil
        cases h : a.preferences with
        | nil => rfl
        | cons p ps =>
          rw [h] at hall
          cases hall
      have hfails : a.Fails _ _ := .empty hstore hnone
      exact Or.inr ⟨_, _, hclass, hdocument, hfails, hfails.failureClass_eq, hfails.laid⟩
    · rw [if_neg hnil] at hclass hdocument
      have hnames := hd.storeName_eq (Schema.ofDocument_eq_ok_iff.mp hdocument)
      exact Or.inl ⟨_, _, hclass, hdocument, ⟨rfl, hnames.1⟩, ⟨rfl, hnames.2⟩, rfl, hall⟩
  · rw [he] at hclass
    rw [he'] at hdocument
    have hfails : a.Fails e e' := .preference hstore hfirst
    exact Or.inr ⟨e, e', hclass, hdocument, hfails, hfails.failureClass_eq, hfails.laid⟩

/-- Two preferences, the second of which has no key, and a default that its type does not take. -/
def themeAggregate : Aggregate where
  name := "Theme"
  store := "theme"
  preferences := [
    ⟨"shade", "shade", .string, some (.string "dark"), false, by decide, by rintro _ ⟨⟩; trivial⟩,
    ⟨"size", "", .int, some (.bool true), true, by decide, by rintro _ ⟨⟩; trivial⟩]
  name_ne := by decide
  nodup_names := by decide

theorem theme_refused_alike :
    ∃ e e', Schema.ofClass (themeAggregate.plainClass "app") none = .error e ∧
      Schema.ofDocument themeAggregate.plainDocument (Schema.fallbackPackage (some "app")) =
        .error e' ∧ themeAggregate.Fails e e' ∧ e.failureClass = e'.failureClass := by
  rcases declarations_agree themeAggregate (plainClass_isClass _ "app") (plainDocument_isDocument _)
    none (some "app") with ⟨s, _, hs, -⟩ | ⟨e, e', he, he', hfails, hclass, -⟩
  · have hrefused : Schema.ofClass (themeAggregate.plainClass "app") none = .error (.refused
        (Refusal.malformed (some "Theme") (.keyOfAttribute "Theme" "size"))) := by
      decide +kernel
    cases hrefused.symm.trans hs
  · exact ⟨e, e', he, he', hfails, hclass⟩

end Aggregate

end PrefAccessor
