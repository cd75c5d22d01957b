import PrefAccessor.Proofs.EntryForm
import PrefAccessor.Proofs.ReadingFault
import PrefAccessor.Proofs.ResolvedType

/-!
# The field of an attribute

Which field an attribute declares by the metadata of its annotation, and why it declares none. Of the
keys and of the defaults that are attached the first one counts. An attribute with a key declares
exactly one field or fails.
-/

namespace PrefAccessor

set_option autoImplicit false

namespace Marker

variable {β : Type} {make : β → Marker} {metadata : List Marker}

/-- The first marker that is made this way is made of `b`. -/
def IsFirst (make : β → Marker) (b : β) (metadata : List Marker) : Prop :=
  ∃ before after, metadata = before ++ make b :: after ∧ ∀ m ∈ before, ∀ b', m ≠ make b'

theorem findSome?_eq_some_iff_isFirst {f : Marker → Option β} (hf : ∀ m b, f m = some b ↔ m = make b)
    {b : β} : metadata.findSome? f = some b ↔ IsFirst make b metadata := by
  rw [List.findSome?_eq_some_iff]
  constructor
  · rintro ⟨before, m, after, rfl, hm, hbefore⟩
    rw [(hf m b).mp hm]
    refine ⟨before, after, rfl, ?_⟩
    intro x hx b' heq
    have hnone := hbefore x hx
    rw [(hf x b').mpr heq] at hnone
    cases hnone
  · rintro ⟨before, after, rfl, hbefore⟩
    refine ⟨before, make b, after, rfl, (hf _ b).mpr rfl, ?_⟩
    intro x hx
    rw [Option.eq_none_iff_forall_ne_some]
    intro b' hb'
    exact hbefore x hx b' ((hf x b').mp hb')

theorem findSome?_eq_none_iff_forall_ne {f : Marker → Option β}
    (hf : ∀ m b, f m = some b ↔ m = make b) :
    metadata.findSome? f = none ↔ ∀ m ∈ metadata, ∀ b, m ≠ make b := by
  rw [List.findSome?_eq_none_iff]
  refine forall₂_congr fun m _ => ?_
  rw [Option.eq_none_iff_forall_ne_some]
  exact forall_congr' fun b => not_congr (hf m b)

end Marker

variable {aggregate name key : Text} {isAsync : Bool} {declared a : Annotation}
  {metadata : List Marker} {literal : Option Text}

/-- The first key that is attached, with its switch, can be used. -/
structure HasKey (metadata : List Marker) (key : Text) (isAsync : Bool) : Prop where
  first : Marker.IsFirst (Function.uncurry .key) (.string key, .bool isAsync) metadata
  ne : key ≠ ""

/-- The literal is that of the first default that is attached. -/
inductive HasDefault (metadata : List Marker) : Option Text → Prop
  | none (h : ∀ m ∈ metadata, ∀ value, m ≠ .default value) : HasDefault metadata none
  | some {value : Json} {text : Text} (h : Marker.IsFirst .default value metadata)
    (htext : literalOf value = .ok text) : HasDefault metadata (some text)

def Marker.isKey : Marker → Bool
  | .key .. => true
  | _ => false

def Annotation.isKeyed : Annotation → Bool
  | .annotated _ metadata => metadata.any Marker.isKey
  | _ => false

namespace ClassDeclaration

theorem keyMarker?_eq_some {k async : Json} :
    keyMarker? metadata = some (k, async) ↔
      Marker.IsFirst (Function.uncurry .key) (k, async) metadata := by
  apply Marker.findSome?_eq_some_iff_isFirst
  rintro m ⟨k, async⟩
  cases m <;> simp [Function.uncurry_apply_pair]

theorem isSome_keyMarker? (metadata : List Marker) :
    (keyMarker? metadata).isSome = metadata.any Marker.isKey := by
  rw [keyMarker?, List.isSome_findSome?]
  congr 1
  funext m
  cases m <;> rfl

theorem defaultMarker?_eq_some {value : Json} :
    defaultMarker? metadata = some value ↔ Marker.IsFirst .default value metadata := by
  apply Marker.findSome?_eq_some_iff_isFirst
  intro m b
  cases m <;> simp

theorem defaultMarker?_eq_none :
    defaultMarker? metadata = none ↔ ∀ m ∈ metadata, ∀ value, m ≠ .default value := by
  apply Marker.findSome?_eq_none_iff_forall_ne
  intro m b
  cases m <;> simp

theorem defaultLiteral_eq_ok : defaultLiteral metadata = .ok literal ↔ HasDefault metadata literal := by
  constructor
  · intro h
    unfold defaultLiteral at h
    split at h
    · rename_i hnone
      cases h
      exact .none (defaultMarker?_eq_none.mp hnone)
    · rename_i value hvalue
      cases htext : literalOf value with
      | error k =>
        rw [htext] at h
        cases h
      | ok text =>
        rw [htext] at h
        cases h
        exact .some (defaultMarker?_eq_some.mp hvalue) htext
  · intro h
    cases h with
    | none h => rw [defaultLiteral, defaultMarker?_eq_none.mpr h]
    | some h htext =>
      simp only [defaultLiteral, defaultMarker?_eq_some.mpr h, htext]
      rfl

end ClassDeclaration

/-- The field says what the annotation says first: its key and switch are those of the first key that
is attached, and its default, which the type can hold, is that of the first default. -/
inductive Field.IsTakenFrom (f : Field) : Annotation → Prop
  | annotated {declared : Annotation} {metadata : List Marker}
    (hkey : HasKey metadata f.key f.isAsync) (htype : declared.prefType f.name = .ok f.type)
    (hdefault : HasDefault metadata f.default) (hvalue : ∃ v, f.defaultValue = .ok v) :
    IsTakenFrom f (.annotated declared metadata)

/-- Why an attribute has a key and yet makes no field. -/
inductive AttributeFails (aggregate name : Text) : Annotation → Failure Refusal → Prop
  | key {declared : Annotation} {metadata : List Marker} {k async : Json}
    (h : Marker.IsFirst (Function.uncurry .key) (k, async) metadata)
    (hkey : ∀ text, k = .string text → text = "") :
    AttributeFails aggregate name (.annotated declared metadata)
      (.refused (.malformed (some aggregate) (.keyOfAttribute aggregate name)))
  | async {declared : Annotation} {metadata : List Marker} {key : Text} {async : Json}
    (h : Marker.IsFirst (Function.uncurry .key) (.string key, async) metadata) (hne : key ≠ "")
    (hasync : ∀ b, async ≠ .bool b) :
    AttributeFails aggregate name (.annotated declared metadata)
      (.refused (.malformed (some aggregate) (.asyncOfAttribute aggregate name)))
  | literal {declared : Annotation} {metadata : List Marker} {key : Text} {isAsync : Bool}
    {value : Json} {k : Fault} (h : HasKey metadata key isAsync)
    (hdefault : Marker.IsFirst .default value metadata) (hvalue : literalOf value = .error k) :
    AttributeFails aggregate name (.annotated declared metadata) (.fault k)
  | type {declared : Annotation} {metadata : List Marker} {key : Text} {isAsync : Bool}
    {literal : Option Text} {e : Failure RefusalCause} (h : HasKey metadata key isAsync)
    (hdefault : HasDefault metadata literal) (htype : declared.prefType name = .error e) :
    AttributeFails aggregate name (.annotated declared metadata)
      (e.map fun cause => ⟨cause, some aggregate⟩)
  | default {declared : Annotation} {metadata : List Marker} {key : Text} {isAsync : Bool}
    {literal : Option Text} {type : PrefType} {e : Failure DefaultProblem}
    (h : HasKey metadata key isAsync) (hdefault : HasDefault metadata literal)
    (htype : declared.prefType name = .ok type) (hvalue : type.defaultValue literal = .error e) :
    AttributeFails aggregate name (.annotated declared metadata)
      (e.map fun problem => ⟨.invalidDefault problem, some aggregate⟩)

namespace ClassDeclaration

theorem defaultLiteral_eq_error_iff {k : Fault} :
    defaultLiteral metadata = .error k ↔
      ∃ value, Marker.IsFirst .default value metadata ∧ literalOf value = .error k := by
  unfold defaultLiteral
  simp only [← defaultMarker?_eq_some]
  cases defaultMarker? metadata with
  | none => simp
  | some value => cases h : literalOf value <;> simp [Except.map, h]

theorem attributeField_of_hasKey (h : HasKey metadata key isAsync) :
    attributeField aggregate name (.annotated declared metadata) =
      Attempt.ofFaults (defaultLiteral metadata) >>= fun literal =>
        Attempt.mapRefusal (Refusal.mk · (some aggregate)) (declared.prefType name) >>= fun type =>
          Attempt.mapRefusal (fun p => Refusal.mk (.invalidDefault p) (some aggregate))
            (type.defaultValue literal) >>= fun _ =>
              .ok [⟨name, key, type, literal, isAsync⟩] := by
  simp only [attributeField, keyMarker?_eq_some.mpr h.first, if_neg h.ne,
    Annotation.declare_eq_prefType, bind_assoc, Attempt.ok_bind]

theorem attributeField_of_not_isKeyed (h : a.isKeyed = false) :
    attributeField aggregate name a = .ok [] := by
  cases a with
  | annotated declared metadata =>
    have hnone : keyMarker? metadata = none := by
      rw [← Option.not_isSome_iff_eq_none, isSome_keyMarker?]
      exact Bool.eq_false_iff.mp h
    simp only [attributeField, hnone]
  | _ => rfl

theorem attributeField_of_isTakenFrom {f : Field} (h : f.IsTakenFrom a) :
    attributeField aggregate f.name a = .ok [f] := by
  obtain ⟨hkey, htype, hdefault, v, hv⟩ := h
  have hv : f.type.defaultValue f.default = .ok v := hv
  rw [attributeField_of_hasKey hkey, defaultLiteral_eq_ok.mpr hdefault, htype]
  simp only [Attempt.ofFaults, Attempt.mapRefusal, Attempt.ok_bind, hv]

theorem attributeField_of_fails {e : Failure Refusal} (h : AttributeFails aggregate name a e) :
    attributeField aggregate name a = .error e := by
  cases h with
  | @key declared metadata k async h hkey =>
    simp only [attributeField, keyMarker?_eq_some.mpr h]
    cases k with
    | string text =>
      simp only [hkey text rfl]
      rfl
    | _ => rfl
  | @async declared metadata key async h hne hasync =>
    simp only [attributeField, keyMarker?_eq_some.mpr h, if_neg hne]
    cases async with
    | bool b => exact absurd rfl (hasync b)
    | _ => rfl
  | literal h hdefault hvalue =>
    rw [attributeField_of_hasKey h, defaultLiteral_eq_error_iff.mpr ⟨_, hdefault, hvalue⟩]
    rfl
  | type h hdefault htype =>
    rw [attributeField_of_hasKey h, defaultLiteral_eq_ok.mpr hdefault, htype]
    rfl
  | default h hdefault htype hvalue =>
    rw [attributeField_of_hasKey h, defaultLiteral_eq_ok.mpr hdefault, htype]
    simp only [Attempt.ofFaults, Attempt.mapRefusal, Attempt.ok_bind, hvalue]
    rfl

/-- With a key that can be used, the default, the type and the value of the default decide in turn. -/
theorem isTakenFrom_or_fails_of_hasKey (aggregate name : Text) (declared : Annotation)
    (h : HasKey metadata key isAsync) :
    (∃ f : Field, f.name = name ∧ f.IsTakenFrom (.annotated declared metadata)) ∨
      ∃ e, AttributeFails aggregate name (.annotated declared metadata) e := by
  cases hl : defaultLiteral metadata with
  | error k =>
    obtain ⟨value, hfirst, hvalue⟩ := defaultLiteral_eq_error_iff.mp hl
    exact Or.inr ⟨_, .literal h hfirst hvalue⟩
  | ok literal =>
    have hdefault := defaultLiteral_eq_ok.mp hl
    cases ht : declared.prefType name with
    | error e => exact Or.inr ⟨_, .type h hdefault ht⟩
    | ok type =>
      cases hv : type.defaultValue literal with
      | error e => exact Or.inr ⟨_, .default h hdefault ht hv⟩
      | ok v =>
        exact Or.inl ⟨⟨name, key, type, literal, isAsync⟩, rfl, .annotated h ht hdefault ⟨v, hv⟩⟩

theorem isTakenFrom_or_fails (aggregate name : Text) (h : a.isKeyed = true) :
    (∃ f : Field, f.name = name ∧ f.IsTakenFrom a) ∨ ∃ e, AttributeFails aggregate name a e := by
  cases a with
  | annotated declared metadata =>
    obtain ⟨⟨k, async⟩, hk⟩ := Option.isSome_iff_exists.mp ((isSome_keyMarker? metadata).trans h)
    have hfirst := keyMarker?_eq_some.mp hk
    by_cases htext : ∃ text, k = .string text ∧ text ≠ ""
    · obtain ⟨text, rfl, hne⟩ := htext
      by_cases hbool : ∃ b, async = .bool b
      · obtain ⟨b, rfl⟩ := hbool
        exact isTakenFrom_or_fails_of_hasKey aggregate name declared ⟨hfirst, hne⟩
      · exact Or.inr ⟨_, .async hfirst hne fun b hb => hbool ⟨b, hb⟩⟩
    · refine Or.inr ⟨_, .key hfirst ?_⟩
      intro text hk
      by_contra hne
      exact htext ⟨text, hk, hne⟩
  | _ => cases h

theorem attributeField_eq_error {e : Failure Refusal} :
    attributeField aggregate name a = .error e ↔ AttributeFails aggregate name a e := by
  constructor
  · intro h
    cases hkeyed : a.isKeyed with
    | false =>
      rw [attributeField_of_not_isKeyed hkeyed] at h
      cases h
    | true =>
      rcases isTakenFrom_or_fails aggregate name hkeyed with ⟨f, rfl, hf⟩ | ⟨e', he'⟩
      · rw [attributeField_of_isTakenFrom hf] at h
        cases h
      · rw [attributeField_of_fails he'] at h
        cases h
        exact he'
  · exact attributeField_of_fails

theorem attributeField_eq_ok_of_isKeyed (h : a.isKeyed = true) {fields : List Field} :
    attributeField aggregate name a = .ok fields ↔
      ∃ f : Field, f.name = name ∧ f.IsTakenFrom a ∧ fields = [f] := by
  constructor
  · intro hok
    rcases isTakenFrom_or_fails aggregate name h with ⟨f, rfl, hf⟩ | ⟨e, he⟩
    · rw [attributeField_of_isTakenFrom hf] at hok
      cases hok
      exact ⟨f, rfl, hf, rfl⟩
    · rw [attributeField_of_fails he] at hok
      cases hok
  · rintro ⟨f, rfl, hf, rfl⟩
    exact attributeField_of_isTakenFrom hf

end ClassDeclaration

end PrefAccessor
