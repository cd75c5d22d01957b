import PrefAccessor.Proofs.DocumentFault

/-!
# What stops a reading

Reading a schema is not always decided by a schema or a refusal. This module gives the exact
conditions under which it stops with a fault instead, in terms of what has been declared:
`Source.Stops` says so for whole sources, and `Source.toSchema_eq_fault` that nothing else does.
-/

namespace PrefAccessor

set_option autoImplicit false

/-- Why the type and the default of an attribute with a key make no field and no refusal. -/
inductive Annotation.Stops (declared : Annotation) (default : Option Text) : Fault → Prop
  | unhashable (h : declared.isHashable = false) : Stops declared default .wrongKind
  | unlabelled (h : declared.isHashable = true) (hnone : declared.resolve? = Option.none)
      (hlabel : declared.isWritable = false) : Stops declared default .badValue
  | overlong {type : PrefType} (h : declared.isHashable = true)
      (hsome : declared.resolve? = some type) (hdefault : type.IsOverlong default) :
      Stops declared default .badValue

theorem Annotation.stops_iff {declared : Annotation} {default : Option Text} {k : Fault}
    {aggregate name key : Text} {isAsync : Bool} :
    Field.declare aggregate name key declared.resolve declared.label? default isAsync =
      .error (.fault k) ↔ declared.Stops default k := by
  rw [Field.declare_eq_fault]
  simp only [resolve, label?]
  constructor
  · intro h
    cases hh : declared.isHashable with
    | false =>
      simp only [hh, Bool.false_eq_true, if_false, Except.error.injEq, reduceCtorEq, false_and,
        exists_false, or_false] at h
      exact h ▸ .unhashable hh
    | true =>
      simp only [hh, if_true, reduceCtorEq, Except.ok.injEq, false_or] at h
      rcases h with ⟨hnone, hlabel⟩ | ⟨type, hsome, hover, rfl⟩
      · split at hlabel
        · cases hlabel
        · rename_i hw
          cases hlabel
          exact .unlabelled hh hnone (Bool.eq_false_iff.mpr hw)
      · exact .overlong hh hsome hover
  · intro h
    cases h with
    | unhashable hh => simp [hh]
    | unlabelled hh hnone hlabel => simp [hh, hnone, hlabel]
    | overlong hh hsome hover => simp [hh, hsome, hover]

namespace ClassDeclaration

/-- Why an attribute makes no field and no refusal: its default cannot be written down, or its type
and its default do not go together with the key that it has. -/
def AttributeStops (a : Annotation) (k : Fault) : Prop :=
  ∃ declared metadata key isAsync, a = .annotated declared metadata ∧
    keyMarker? metadata = some (.string key, .bool isAsync) ∧ key ≠ "" ∧
    ((k = .badValue ∧ ∃ v, defaultMarker? metadata = some v ∧ v.isWritable = false) ∨
      ∃ default, defaultLiteral metadata = .ok default ∧ declared.Stops default k)

theorem defaultLiteral_eq_error {metadata : List Marker} {k : Fault} :
    defaultLiteral metadata = .error k ↔
      k = .badValue ∧ ∃ v, defaultMarker? metadata = some v ∧ v.isWritable = false := by
  unfold defaultLiteral
  split
  · rename_i h
    simp [h]
  · rename_i v h
    simp [map_literalOf_eq_error, h]

theorem attributeField_eq_fault {aggregate name : Text} {a : Annotation} {k : Fault} :
    attributeField aggregate name a = .error (.fault k) ↔ AttributeStops a k := by
  constructor
  · intro h
    unfold attributeField at h
    split at h
    · rename_i declared metadata
      split at h
      · cases h
      · rename_i key async hkey
        split at h
        · cases h
        · rename_i hne
          split at h
          · rename_i isAsync
            refine ⟨declared, metadata, key, isAsync, rfl, hkey, hne, ?_⟩
            simp only [Attempt.bind_eq_error, Attempt.ofFaults_eq_fault, Attempt.ofFaults_eq_ok,
              defaultLiteral_eq_error, Annotation.stops_iff, reduceCtorEq, and_false, exists_false,
              or_false] at h
            exact h
          · cases h
      · cases h
    · cases h
  · rintro ⟨declared, metadata, key, isAsync, rfl, hkey, hne, h⟩
    simp only [attributeField, hkey, hne, if_false, Attempt.bind_eq_error,
      Attempt.ofFaults_eq_fault, Attempt.ofFaults_eq_ok, defaultLiteral_eq_error,
      Annotation.stops_iff, reduceCtorEq, and_false, exists_false, or_false]
    exact h

@[simp] theorem storeName_ne_fault {c : ClassDeclaration} {k : Fault} :
    c.storeName ≠ .error (.fault k) := by
  unfold storeName
  split
  · simp [Attempt.refuse]
  · split <;> simp [Attempt.refuse]
  · simp [Attempt.refuse]

theorem fields_eq_fault {c : ClassDeclaration} {k : Fault} :
    c.fields = .error (.fault k) ↔
      ∃ store annotations n name a fields, c.storeName = .ok store ∧
        c.annotations = .ok annotations ∧ annotations[n]? = some (name, a) ∧
        fieldsOf c.name (annotations.take n) = .ok fields ∧ AttributeStops a k := by
  simp only [fields, Attempt.bind_eq_error, storeName_ne_fault, false_or]
  constructor
  · rintro ⟨store, hstore, h⟩
    split at h
    · cases h
    · rename_i annotations hannotations
      obtain ⟨n, ⟨name, a⟩, fields, hn, hfields, ha⟩ := Attempt.collect_eq_error.mp h
      exact ⟨store, annotations, n, name, a, fields, hstore, hannotations, hn, hfields,
        attributeField_eq_fault.mp ha⟩
  · rintro ⟨store, annotations, n, name, a, fields, hstore, hannotations, hn, hfields, ha⟩
    refine ⟨store, hstore, ?_⟩
    simp only [hannotations]
    exact Attempt.collect_eq_error.mpr
      ⟨n, (name, a), fields, hn, hfields, attributeField_eq_fault.mpr ha⟩

end ClassDeclaration

namespace Text

theorem trim_eq_nil {cs : List CodePoint} : trim cs = [] ↔ cs.all isBlank = true := by
  constructor
  · intro h
    rw [List.all_eq_true]
    intro c hc
    by_contra hblank
    have hmem : c ∈ trim cs := mem_trim hc (Bool.eq_false_iff.mpr hblank)
    rw [h] at hmem
    cases hmem
  · intro h
    have hdrop : cs.dropWhile isBlank = [] := List.dropWhile_eq_nil_iff.mpr (List.all_eq_true.mp h)
    rw [trim, trimWhile, hdrop, dropEndWhile_nil]

theorem linesFrom_eq_nil {started cs : List CodePoint} :
    linesFrom started cs = [] ↔ started = [] ∧ cs = [] := by
  fun_induction linesFrom started cs with
  | case1 => simp
  | case2 started h => simp [h]
  | case3 => simp
  | case4 => simp
  | case5 started c cs hne hc ih => simp [ih]

end Text

namespace ClassDeclaration

/-- The class is documented by blanks only. -/
def HasBlankDocumentation (c : ClassDeclaration) : Prop :=
  ∃ text, c.documentation = some text ∧ text ≠ "" ∧ text.toList.all Text.isBlank = true

/-- No text of blanks begins with the signature of a class, which holds a bracket. -/
theorem not_isPrefixOf_of_blank {name text : Text} (h : text.toList.all Text.isBlank = true) :
    ¬ (name ++ "(").toList.isPrefixOf text.toList = true := by
  intro hprefix
  rw [List.isPrefixOf_iff_prefix] at hprefix
  have hmem : char '(' ∈ text.toList := hprefix.subset (by simp)
  have hblank : Text.isBlank '(' = true := List.all_eq_true.mp h _ hmem
  exact absurd hblank (by decide)

theorem description_eq_error {c : ClassDeclaration} {k : Fault} :
    c.description = .error k ↔ k = .outOfBounds ∧ c.HasBlankDocumentation := by
  unfold description HasBlankDocumentation
  split
  · rename_i h
    simp [h]
  · rename_i text h
    split
    · rename_i hskip
      simp only [h, reduceCtorEq, Option.some.injEq, false_iff, not_and, not_exists]
      rintro - _ rfl hne hblank
      rcases hskip with rfl | hprefix
      · exact hne rfl
      · exact not_isPrefixOf_of_blank hblank hprefix
    · rename_i hskip
      rw [not_or] at hskip
      have hlines : Text.lines (Text.trim text.toList) = [] ↔ text.toList.all Text.isBlank = true := by
        rw [Text.lines, Text.linesFrom_eq_nil, Text.trim_eq_nil]
        exact and_iff_right rfl
      split
      · rename_i hnil
        constructor
        · intro hk
          exact ⟨(Except.error.inj hk).symm, text, h, hskip.1, hlines.mp hnil⟩
        · rintro ⟨rfl, -⟩
          rfl
      · rename_i line rest hcons
        have hblank : ¬ text.toList.all Text.isBlank = true := by
          rw [← hlines, hcons]
          exact List.cons_ne_nil _ _
        simp only [h, reduceCtorEq, Option.some.injEq, false_iff, not_and, not_exists]
        rintro - _ rfl -
        exact hblank

end ClassDeclaration

theorem Schema.ofClass_eq_fault {c : ClassDeclaration} {k : Fault} :
    Schema.ofClass c none = .error (.fault k) ↔
      c.fields = .error (.fault k) ∨
        (k = .outOfBounds ∧ (∃ fields, c.fields = .ok fields) ∧ c.HasBlankDocumentation) := by
  simp only [Schema.ofClass, Attempt.bind_eq_error, ClassDeclaration.storeName_ne_fault,
    Attempt.ofFaults_eq_fault, ClassDeclaration.description_eq_error,
    Schema.unless_empty_ne_fault, false_or, and_false, exists_false, or_false]
  constructor
  · rintro (h | ⟨fields, hfields, store, -, rfl, hblank⟩)
    · exact Or.inl h
    · exact Or.inr ⟨rfl, ⟨fields, hfields⟩, hblank⟩
  · rintro (h | ⟨rfl, ⟨fields, hfields⟩, hblank⟩)
    · exact Or.inl h
    · obtain ⟨store, hstore, -⟩ := Attempt.bind_eq_ok.mp hfields
      exact Or.inr ⟨fields, hfields, store, hstore, rfl, hblank⟩

/-- Why reading the schema of a source stops: an entry of a document or an attribute of a class,
behind others that are accepted, or the documentation of a class whose attributes are accepted. -/
inductive Source.Stops : Source → Fault → Prop
  | entry {members : List (Text × Json)} {name : Text} {raws : List Json} {n : Nat} {raw : Json}
      {fields : List Field} (hhead : Schema.IsHead (.object members) name raws)
      (hn : raws[n]? = some raw) (hfields : Field.ofDocuments name (raws.take n) = .ok fields)
      (hraw : Field.EntryStops raw) : Stops (.document (.object members)) .badValue
  | member {c : ClassDeclaration} {store name : Text} {annotations : Entries Text Annotation}
      {n : Nat} {a : Annotation} {fields : List Field} {k : Fault} (hstore : c.storeName = .ok store)
      (hannotations : c.annotations = .ok annotations) (hn : annotations[n]? = some (name, a))
      (hfields : ClassDeclaration.fieldsOf c.name (annotations.take n) = .ok fields)
      (ha : ClassDeclaration.AttributeStops a k) : Stops (.declaration c) k
  | documentation {c : ClassDeclaration} {fields : List Field} (hfields : c.fields = .ok fields)
      (hblank : c.HasBlankDocumentation) : Stops (.declaration c) .outOfBounds

theorem Source.toSchema_eq_fault {source : Source} {k : Fault} :
    source.toSchema = .error (.fault k) ↔ source.Stops k := by
  constructor
  · intro h
    cases source with
    | schema s => cases h
    | declaration c =>
      rcases Schema.ofClass_eq_fault.mp h with h | ⟨rfl, ⟨fields, hfields⟩, hblank⟩
      · obtain ⟨store, annotations, n, name, a, fields, hstore, hannotations, hn, hfields, ha⟩ :=
          ClassDeclaration.fields_eq_fault.mp h
        exact .member hstore hannotations hn hfields ha
      · exact .documentation hfields hblank
    | document d =>
      cases d with
      | object members =>
        obtain ⟨rfl, name, raws, n, raw, fields, hhead, hn, hfields, hraw⟩ :=
          Schema.ofDocument_eq_fault.mp h
        exact .entry hhead hn hfields hraw
      | _ => cases h
  · intro h
    cases h with
    | entry hhead hn hfields hraw =>
      exact Schema.ofDocument_eq_fault.mpr ⟨rfl, _, _, _, _, _, hhead, hn, hfields, hraw⟩
    | member hstore hannotations hn hfields ha =>
      exact Schema.ofClass_eq_fault.mpr (Or.inl (ClassDeclaration.fields_eq_fault.mpr
        ⟨_, _, _, _, _, _, hstore, hannotations, hn, hfields, ha⟩))
    | documentation hfields hblank =>
      exact Schema.ofClass_eq_fault.mpr (Or.inr ⟨rfl, ⟨_, hfields⟩, hblank⟩)

end PrefAccessor
