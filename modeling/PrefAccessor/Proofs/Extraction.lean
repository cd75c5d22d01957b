import Mathlib.Data.List.Basic
import PrefAccessor.Schema.Source

/-!
# What reading a schema yields

A source that names its aggregate has every refusal laid to that name, and a schema that is read
has the name of its source and only defaults that can be read again. The lemmas follow the reading
step by step, from the members of one field up to whole sources.
-/

namespace PrefAccessor

set_option autoImplicit false

/-- Whatever the attempt refuses is laid to this aggregate. -/
def LaidTo {α : Type} (aggregate : Text) (a : Attempt Refusal α) : Prop :=
  ∀ r, a = .error (.refused r) → r.aggregate = some aggregate

namespace LaidTo

variable {α β : Type} {aggregate : Text}

theorem ok (x : α) : LaidTo aggregate (.ok x) := by
  intro r h
  cases h

theorem stop (k : Fault) : LaidTo (α := α) aggregate (Attempt.stop k) := by
  intro r h
  cases h

theorem refuse (cause : RefusalCause) :
    LaidTo (α := α) aggregate (Attempt.refuse ⟨cause, some aggregate⟩) := by
  intro r h
  cases h
  rfl

theorem malformed (problem : SchemaProblem) :
    LaidTo (α := α) aggregate (Attempt.refuse (Refusal.malformed (some aggregate) problem)) :=
  refuse _

theorem ofFaults (a : Except Fault α) : LaidTo aggregate (Attempt.ofFaults a) := by
  intro r h
  exact absurd h Attempt.ofFaults_ne_refused

theorem bind {a : Attempt Refusal α} {f : α → Attempt Refusal β} (ha : LaidTo aggregate a)
    (hf : ∀ x, LaidTo aggregate (f x)) : LaidTo aggregate (a >>= f) := by
  intro r h
  rcases Attempt.bind_eq_error.mp h with h | ⟨x, -, h⟩
  · exact ha r h
  · exact hf x r h

theorem collect {γ : Type} {f : γ → Attempt Refusal (List β)} (hf : ∀ x, LaidTo aggregate (f x))
    (xs : List γ) : LaidTo aggregate (Attempt.collect f xs) := by
  intro r h
  obtain ⟨-, x, -, -, -, hx⟩ := Attempt.collect_eq_error.mp h
  exact hf x r hx

end LaidTo

namespace Field

variable {aggregate name key : Text} {resolved : Except Fault (Option PrefType)}
  {typeLabel : Except Fault Text} {default : Option Text} {isAsync : Bool}

theorem declare_laidTo :
    LaidTo aggregate (declare aggregate name key resolved typeLabel default isAsync) := by
  unfold declare
  split
  · exact .stop _
  · split
    · exact .stop _
    · exact .refuse _
  · rename_i type
    split
    · exact .ok _
    · rename_i e he
      intro r h
      cases h
      obtain ⟨p, -, rfl⟩ := Attempt.mapRefusal_eq_refused.mp he
      rfl

theorem documentName_laidTo (position : Nat) (v : Option Json) :
    LaidTo aggregate (documentName aggregate position key v) := by
  unfold documentName
  split
  · exact .ok _
  · exact .ok _
  · split
    · exact .malformed _
    · exact .ok _
  · exact .malformed _

theorem documentDefault_laidTo (v : Option Json) :
    LaidTo aggregate (documentDefault aggregate name v) := by
  unfold documentDefault
  split
  · exact .ok _
  · exact .ok _
  · exact .malformed _
  · exact .malformed _
  · exact .ofFaults _

theorem documentKey_laidTo (position : Nat) (v : Json) :
    LaidTo aggregate (documentKey aggregate position v) := by
  unfold documentKey
  split
  · split
    · exact .malformed _
    · exact .ok _
  · exact .malformed _

theorem documentType_laidTo (v : Option Json) : LaidTo aggregate (documentType aggregate name v) := by
  unfold documentType
  split
  · exact .ok _
  · exact .ok _
  · exact .malformed _

theorem documentAsync_laidTo (v : Option Json) :
    LaidTo aggregate (documentAsync aggregate name v) := by
  unfold documentAsync
  split
  · exact .ok _
  · exact .ok _
  · exact .malformed _

theorem ofDocument_laidTo (position : Nat) (raw key : Json) :
    LaidTo aggregate (ofDocument aggregate position raw key) := by
  unfold ofDocument
  exact .bind (documentKey_laidTo _ _) fun key => .bind (documentName_laidTo _ _) fun name =>
    .bind (documentType_laidTo _) fun type => .bind (documentAsync_laidTo _) fun isAsync =>
    .bind (documentDefault_laidTo _) fun default => declare_laidTo

theorem ofEntry_laidTo (position : Nat) (raw : Json) :
    LaidTo aggregate (ofEntry aggregate position raw) := by
  unfold ofEntry
  split
  · split
    · exact .ok _
    · exact .bind (ofDocument_laidTo _ _ _) fun field => .ok _
  · exact .malformed _

theorem ofDocuments_laidTo (raws : List Json) :
    LaidTo aggregate (ofDocuments aggregate raws) := by
  unfold ofDocuments
  exact .collect (fun _ => ofEntry_laidTo _ _) _

end Field

namespace Schema

theorem documentStore_laidTo (name : Text) (v : Option Json) :
    LaidTo name (documentStore name v) := by
  unfold documentStore
  split
  · exact .ok _
  · split
    · exact .malformed _
    · exact .ok _
  · exact .malformed _

theorem packageText_laidTo (name : Text) (v : Json) : LaidTo name (packageText name v) := by
  unfold packageText
  split
  · exact .ok _
  · exact .ok _
  · exact .malformed _

theorem documentPackage_laidTo (name : Text) (fallback : Json) (v : Option Json) :
    LaidTo name (documentPackage name fallback v) := by
  unfold documentPackage
  split <;> exact packageText_laidTo _ _

theorem documentDescription_laidTo (name : Text) (v : Option Json) :
    LaidTo name (documentDescription name v) := by
  unfold documentDescription
  split
  · exact .ok _
  · exact .ok _
  · exact .ok _
  · exact .malformed _

theorem documentFields_laidTo (name : Text) (v : Option Json) :
    LaidTo name (documentFields name v) := by
  unfold documentFields
  split
  · exact .ok _
  · exact .ok _
  · exact .malformed _

/-- The name of a document is its member of that name, unless that is empty. -/
theorem documentName_eq_ok {data : Json} {name : Text} :
    documentName data = .ok name ↔ data.member? "name" = some (.string name) ∧ name ≠ "" := by
  unfold documentName
  split
  · split
    · rename_i text hm
      rw [hm]
      by_cases ht : text = ""
      · simp only [ht, if_true, Attempt.refuse, reduceCtorEq, Option.some.injEq, Json.string.injEq,
          false_iff, not_and, not_not]
        exact fun h => h.symm
      · simp only [ht, if_false, Except.ok.injEq, Option.some.injEq, Json.string.injEq]
        exact ⟨fun h => ⟨h, h ▸ ht⟩, fun h => h.1⟩
    · rename_i hm
      simp only [Attempt.refuse, reduceCtorEq, false_iff, not_and]
      exact fun h => absurd h (hm name)
  · rename_i hd
    cases data <;> simp [Attempt.refuse, Json.member?] at hd ⊢

/-- A document with a name lays all of its refusals to it. -/
theorem ofDocument_laidTo {data : Json} {name : Text}
    (hname : data.member? "name" = some (.string name)) (hne : name ≠ "") (package : Json) :
    LaidTo name (ofDocument data package) := by
  have hn : documentName data = .ok name := documentName_eq_ok.mpr ⟨hname, hne⟩
  simp only [ofDocument, hn]
  change LaidTo name (documentStore name (data.member? "store") >>= _)
  refine .bind (documentStore_laidTo _ _) fun store => .bind (documentPackage_laidTo _ _ _) fun p =>
    .bind (documentDescription_laidTo _ _) fun description => .bind (documentFields_laidTo _ _)
    fun raws => .bind (Field.ofDocuments_laidTo _) fun fields => ?_
  split
  · exact .refuse _
  · exact .ok _

end Schema

namespace ClassDeclaration

theorem storeName_laidTo (c : ClassDeclaration) : LaidTo c.name c.storeName := by
  unfold storeName
  split
  · exact .malformed _
  · split
    · exact .malformed _
    · exact .ok _
  · exact .malformed _

theorem attributeField_laidTo (aggregate name : Text) (a : Annotation) :
    LaidTo aggregate (attributeField aggregate name a) := by
  unfold attributeField
  split
  · split
    · exact .ok _
    · split
      · exact .malformed _
      · split
        · exact .bind (.ofFaults _) fun default => .bind Field.declare_laidTo fun field => .ok _
        · exact .malformed _
    · exact .malformed _
  · exact .ok _

theorem fieldsOf_laidTo (aggregate : Text) (attributes : List (Text × Annotation)) :
    LaidTo aggregate (fieldsOf aggregate attributes) := by
  unfold fieldsOf
  exact .collect (fun _ => attributeField_laidTo _ _ _) _

theorem fields_laidTo (c : ClassDeclaration) : LaidTo c.name c.fields := by
  unfold fields
  refine .bind (storeName_laidTo c) fun _ => ?_
  split
  · exact .malformed _
  · exact fieldsOf_laidTo _ _

end ClassDeclaration

theorem Schema.ofClass_laidTo (c : ClassDeclaration) (package : Option Text) :
    LaidTo c.name (Schema.ofClass c package) := by
  unfold Schema.ofClass
  refine .bind c.fields_laidTo fun fields => .bind c.storeName_laidTo fun store =>
    .bind (.ofFaults _) fun description => ?_
  split
  · exact .refuse _
  · exact .ok _

/-- A refusal is laid to the name that the source gives, unless that is empty. -/
theorem Source.toSchema_laidTo {source : Source} {name : Text} (hlabel : source.label = some name)
    (hne : name ≠ "") : LaidTo name source.toSchema := by
  cases source with
  | schema s => exact .ok _
  | declaration c =>
    cases hlabel
    exact Schema.ofClass_laidTo c none
  | document d =>
    cases d with
    | object members =>
      refine Schema.ofDocument_laidTo ?_ hne .null
      simp only [Source.label] at hlabel
      split at hlabel
      · rename_i text htext
        cases hlabel
        exact htext
      · cases hlabel
    | _ => cases hlabel

/-- Every default of the schema can be read. -/
def Schema.HasDefaults (s : Schema) : Prop :=
  ∀ f ∈ s.fields, ∃ v, f.defaultValue = .ok v

namespace Field

theorem declare_eq_ok {aggregate name key : Text} {resolved : Except Fault (Option PrefType)}
    {typeLabel : Except Fault Text} {default : Option Text} {isAsync : Bool} {f : Field}
    (h : declare aggregate name key resolved typeLabel default isAsync = .ok f) :
    ∃ v, f.defaultValue = .ok v := by
  unfold declare at h
  split at h
  · cases h
  · split at h <;> cases h
  · split at h
    · rename_i v hv
      cases h
      exact ⟨v, Attempt.mapRefusal_eq_ok.mp hv⟩
    · cases h

theorem ofEntry_hasDefaults {aggregate : Text} {position : Nat} {raw : Json} {fields : List Field}
    (h : ofEntry aggregate position raw = .ok fields) {f : Field} (hf : f ∈ fields) :
    ∃ v, f.defaultValue = .ok v := by
  unfold ofEntry at h
  split at h
  · split at h
    · cases h
      cases hf
    · simp only [ofDocument, Attempt.bind_eq_ok] at h
      obtain ⟨field, ⟨_, -, _, -, _, -, _, -, _, -, hfield⟩, h⟩ := h
      cases h
      rw [List.mem_singleton.mp hf]
      exact declare_eq_ok hfield
  · cases h

end Field

theorem ClassDeclaration.attributeField_hasDefaults {aggregate name : Text} {a : Annotation}
    {fields : List Field} (h : attributeField aggregate name a = .ok fields) {f : Field}
    (hf : f ∈ fields) : ∃ v, f.defaultValue = .ok v := by
  unfold attributeField at h
  split at h
  · split at h
    · cases h
      cases hf
    · split at h
      · cases h
      · split at h
        · simp only [Attempt.bind_eq_ok] at h
          obtain ⟨_, -, field, hfield, h⟩ := h
          cases h
          rw [List.mem_singleton.mp hf]
          exact Field.declare_eq_ok hfield
        · cases h
    · cases h
  · cases h
    cases hf

namespace Schema

theorem ofDocument_eq_ok {data package : Json} {s : Schema} (h : ofDocument data package = .ok s) :
    data.member? "name" = some (.string s.name) ∧ s.fields ≠ [] ∧ s.HasDefaults := by
  simp only [ofDocument, Attempt.bind_eq_ok] at h
  obtain ⟨name, hname, _, -, _, -, _, -, raws, -, fields, hfields, h⟩ := h
  split at h
  · cases h
  · rename_i hne
    cases h
    refine ⟨(documentName_eq_ok.mp hname).1, hne, ?_⟩
    intro f hf
    obtain ⟨e, -, found, hfound, hf⟩ := Attempt.mem_collect hfields hf
    exact Field.ofEntry_hasDefaults hfound hf

theorem ofClass_eq_ok {c : ClassDeclaration} {package : Option Text} {s : Schema}
    (h : ofClass c package = .ok s) : s.name = c.name ∧ s.fields ≠ [] ∧ s.HasDefaults := by
  simp only [ofClass, Attempt.bind_eq_ok] at h
  obtain ⟨fields, hfields, _, -, _, -, h⟩ := h
  split at h
  · cases h
  · rename_i hne
    cases h
    refine ⟨rfl, hne, ?_⟩
    intro f hf
    simp only [ClassDeclaration.fields, Attempt.bind_eq_ok] at hfields
    obtain ⟨_, -, hfields⟩ := hfields
    split at hfields
    · cases hfields
    · obtain ⟨e, -, found, hfound, hf⟩ := Attempt.mem_collect hfields hf
      exact ClassDeclaration.attributeField_hasDefaults hfound hf

end Schema

theorem Source.toSchema_label {source : Source} {s : Schema} (h : source.toSchema = .ok s) :
    source.label = some s.name := by
  cases source with
  | schema s' =>
    cases h
    rfl
  | declaration c => exact congrArg some (Schema.ofClass_eq_ok h).1.symm
  | document d =>
    cases d with
    | object members => simp only [Source.label, (Schema.ofDocument_eq_ok h).1]
    | _ => cases h

end PrefAccessor
