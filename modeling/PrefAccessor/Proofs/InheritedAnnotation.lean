import PrefAccessor.Proofs.Grouping
import PrefAccessor.Proofs.ResolutionOrder

/-!
# The annotations of a class

The attributes of a class come from all classes in its resolution order. A name stands where it first
occurs from the last of them on, and has the annotation of the first of them that annotates it. Every
annotation in the order is read, in the meaning that texts have in the class it stands in, and the first
one that cannot be read says why there are none.
-/

namespace PrefAccessor

set_option autoImplicit false

open Annotation (Meaning)

/-- An annotation once its texts are read. -/
def Annotation.read? (meaning : Meaning) (a : Annotation) : Option Annotation :=
  (a.readTexts meaning).toOption.map normalize

namespace ClassDeclaration

variable {c : ClassDeclaration} {order : List ClassDeclaration} {name : Text} {a : Annotation}

/-- The names of all attributes, from the last class of the order up to the first, each where it first
occurs. -/
def attributeNames (order : List ClassDeclaration) : List Text :=
  distinct (order.reverse.flatMap fun d => d.attributes.map Prod.fst)

/-- The annotation of an attribute in the first class of the order that has one, and what the texts in
it stand for there. -/
def newest? (order : List ClassDeclaration) (name : Text) : Option (Meaning × Annotation) :=
  order.findSome? fun d => (Entries.find? d.attributes.reverse name).map (d.meaning, ·)

def annotation? (order : List ClassDeclaration) (name : Text) : Option Annotation :=
  (newest? order name).bind fun e => e.2.read? e.1

/-- The annotations that a class has itself, with what the texts in them stand for. -/
def own (d : ClassDeclaration) : Entries Text (Meaning × Annotation) :=
  (Entries.ofList d.attributes).map fun e => (e.1, d.meaning, e.2)

theorem own_eq (d : ClassDeclaration) :
    d.own = Entries.ofList (d.attributes.map fun e => (e.1, d.meaning, e.2)) :=
  (Entries.ofList_map_values (Prod.mk d.meaning) d.attributes).symm

theorem keys_ofList_own (order : List ClassDeclaration) :
    Entries.keys (Entries.ofList (order.reverse.flatMap own)) = attributeNames order := by
  rw [funext own_eq, Entries.ofList_flatMap, Entries.keys_ofList, List.map_flatMap]
  simp only [List.map_map]
  rfl

theorem find?_own (order : List ClassDeclaration) (name : Text) :
    Entries.find? (order.reverse.flatMap own).reverse name = newest? order name := by
  rw [← Entries.find?_ofList, funext own_eq, Entries.ofList_flatMap, Entries.find?_ofList,
    List.reverse_flatMap, List.reverse_reverse, Entries.find?_flatMap]
  simp only [Function.comp_apply, ← List.map_reverse, Entries.find?_map_values]
  rfl

/-- All annotations with their texts read, or the words in which the first one fails. -/
def readEach : Entries Text (Meaning × Annotation) → Except Text (List (Text × Annotation))
  | [] => .ok []
  | (name, meaning, a) :: rest =>
    match a.readTexts meaning with
    | .error reason => .error reason
    | .ok a => (readEach rest).map ((name, a.normalize) :: ·)

theorem readEach_append (l l' : Entries Text (Meaning × Annotation)) :
    readEach (l ++ l') = readEach l >>= fun own => (readEach l').map (own ++ ·) := by
  induction l with
  | nil =>
    rw [List.nil_append, readEach]
    cases readEach l' <;> rfl
  | cons e l ih =>
    obtain ⟨k, meaning, a⟩ := e
    rw [List.cons_append, readEach, readEach, ih]
    cases a.readTexts meaning with
    | error reason => rfl
    | ok b =>
      cases readEach l with
      | error reason => rfl
      | ok own => cases readEach l' <;> rfl

theorem readAttributes_eq (meaning : Meaning) (l : List (Text × Annotation)) :
    readAttributes meaning l = readEach (l.map fun e => (e.1, meaning, e.2)) := by
  induction l with
  | nil => rfl
  | cons e l ih =>
    obtain ⟨name, a⟩ := e
    cases ha : a.readTexts meaning <;> simp only [List.map_cons, readEach, readAttributes, ha, ih]

theorem readHierarchy_eq (cs : List ClassDeclaration) :
    readHierarchy cs = readEach (cs.flatMap own) := by
  induction cs with
  | nil => rfl
  | cons d cs ih =>
    rw [List.flatMap_cons, readEach_append, readHierarchy, ih, readAttributes_eq, own]
    cases readEach ((Entries.ofList d.attributes).map fun e => (e.1, d.meaning, e.2)) <;> rfl

/-- The first annotation of a list that cannot be read fails in these words. -/
def Unread (l : Entries Text (Meaning × Annotation)) (reason : Text) : Prop :=
  ∃ before e after, l = before ++ e :: after ∧ e.2.2.readTexts e.2.1 = .error reason ∧
    ∀ e' ∈ before, (e'.2.2.read? e'.2.1).isSome

def IsReading (e : Text × Meaning × Annotation) (e' : Text × Annotation) : Prop :=
  e'.1 = e.1 ∧ e.2.2.read? e.2.1 = some e'.2

theorem readEach_eq_ok {l : Entries Text (Meaning × Annotation)}
    {l' : List (Text × Annotation)} : readEach l = .ok l' ↔ List.Forall₂ IsReading l l' := by
  induction l generalizing l' with
  | nil => simp [readEach, eq_comm]
  | cons e l ih =>
    obtain ⟨k, meaning, a⟩ := e
    rw [readEach, List.forall₂_cons_left_iff]
    cases ha : a.readTexts meaning with
    | error reason => simp [IsReading, Annotation.read?, ha, Except.toOption]
    | ok b =>
      have hread : a.read? meaning = some b.normalize := by
        rw [ Annotation.read?, ha]
        rfl
      constructor
      · intro h
        cases hrest : readEach l with
        | error reason =>
          rw [hrest] at h
          cases h
        | ok rest =>
          rw [hrest] at h
          cases h
          exact ⟨(k, b.normalize), rest, ⟨rfl, hread⟩, ih.mp hrest, rfl⟩
      · rintro ⟨⟨_, _⟩, rest, ⟨rfl, hb⟩, hrest, rfl⟩
        obtain rfl := Option.some.inj (hread.symm.trans hb)
        rw [ih.mpr hrest]
        rfl

theorem readEach_eq_error {l : Entries Text (Meaning × Annotation)} {reason : Text} :
    readEach l = .error reason ↔ Unread l reason := by
  induction l with
  | nil => simp [readEach, Unread]
  | cons e l ih =>
    obtain ⟨k, meaning, a⟩ := e
    cases ha : a.readTexts meaning with
    | error reason' =>
      rw [readEach, ha]
      constructor
      · rintro ⟨rfl⟩
        exact ⟨[], _, l, rfl, ha, fun e' he' => absurd he' List.not_mem_nil⟩
      · rintro ⟨_ | ⟨_, before⟩, e, after, hsplit, he, hbefore⟩
        · obtain ⟨rfl, rfl⟩ := List.cons.inj hsplit
          rw [Except.error.inj (ha.symm.trans he)]
        · obtain ⟨rfl, -⟩ := List.cons.inj hsplit
          have hsome := hbefore _ List.mem_cons_self
          rw [ Annotation.read?, ha] at hsome
          cases hsome
    | ok b =>
      have hmap : readEach ((k, meaning, a) :: l) = .error reason ↔ readEach l = .error reason := by
        rw [readEach, ha]
        cases readEach l <;> simp [Except.map]
      have hread : (a.read? meaning).isSome := by
        rw [ Annotation.read?, ha]
        rfl
      rw [hmap, ih]
      constructor
      · rintro ⟨before, e, after, rfl, he, hbefore⟩
        exact ⟨_ :: before, e, after, rfl, he, List.forall_mem_cons.mpr ⟨hread, hbefore⟩⟩
      · rintro ⟨_ | ⟨_, before⟩, e, after, hsplit, he, hbefore⟩
        · obtain ⟨rfl, rfl⟩ := List.cons.inj hsplit
          cases ha.symm.trans he
        · obtain ⟨rfl, rfl⟩ := List.cons.inj hsplit
          exact ⟨before, e, after, rfl, he, (List.forall_mem_cons.mp hbefore).2⟩

section Readings

variable {l : Entries Text (Meaning × Annotation)} {l' : List (Text × Annotation)}
  (h : List.Forall₂ IsReading l l')

include h

theorem names_of_readings : l'.map Prod.fst = l.map Prod.fst := by
  induction h with
  | nil => rfl
  | cons he _ ih => exact congrArg₂ List.cons he.1 ih

theorem isSome_of_readings : ∀ e ∈ l, (e.2.2.read? e.2.1).isSome := by
  induction h with
  | nil => exact fun e he => absurd he List.not_mem_nil
  | cons he _ ih => exact List.forall_mem_cons.mpr ⟨he.2 ▸ rfl, ih⟩

theorem find?_of_readings (name : Text) :
    Entries.find? l' name = (Entries.find? l name).bind fun e => e.2.read? e.1 := by
  induction h with
  | nil => rfl
  | @cons e e' l l' he _ ih =>
    obtain ⟨k, meaning, a⟩ := e
    obtain ⟨k', a'⟩ := e'
    obtain ⟨rfl, ha⟩ := he
    by_cases hk : k' = name
    · simp [Entries.find?, hk, ha]
    · simp [Entries.find?, hk, ih]

end Readings

/-- The annotations of all classes of the order can be read, those that are superseded among them. -/
def IsReadable (order : List ClassDeclaration) : Prop :=
  ∀ d ∈ order, ∀ e ∈ Entries.ofList d.attributes, (e.2.read? d.meaning).isSome

/-- The first annotation that cannot be read, from the last class of the order on, fails in these
words. -/
def FirstUnread (order : List ClassDeclaration) (reason : Text) : Prop :=
  Unread (order.reverse.flatMap own) reason

section Ordered

variable (horder : c.resolutionOrder? = some order)

include horder

theorem annotations_eq_readEach :
    c.annotations = (readEach (order.reverse.flatMap own)).map Entries.ofList := by
  rw [annotations, readHierarchy_eq, hierarchy, horder, Option.getD_some]

theorem annotations_eq_error {reason : Text} :
    c.annotations = .error reason ↔ FirstUnread order reason := by
  rw [annotations_eq_readEach horder, FirstUnread, ← readEach_eq_error]
  cases readEach (order.reverse.flatMap own) <;> simp [Except.map]

/-- The annotations that a class has are the newest ones of its attributes. -/
theorem annotations_eq_ok {annotations : Entries Text Annotation}
    (h : c.annotations = .ok annotations) :
    Entries.keys annotations = attributeNames order ∧
      ∀ name, Entries.find? annotations name = annotation? order name := by
  rw [annotations_eq_readEach horder] at h
  cases hread : readEach (order.reverse.flatMap own) with
  | error reason =>
    rw [hread] at h
    cases h
  | ok l =>
    rw [hread] at h
    cases h
    have hreadings := readEach_eq_ok.mp hread
    constructor
    · rw [Entries.keys_ofList, names_of_readings hreadings, ← Entries.keys_ofList, keys_ofList_own]
    · intro name
      rw [Entries.find?_ofList, find?_of_readings (List.forall₂_reverse_iff.mpr hreadings), find?_own]
      rfl

theorem isReadable_iff : IsReadable order ↔ ∃ annotations, c.annotations = .ok annotations := by
  have hall : IsReadable order ↔ ∀ e ∈ order.reverse.flatMap own, (e.2.2.read? e.2.1).isSome := by
    simp only [IsReadable, own, List.forall_mem_flatMap, List.mem_reverse, List.forall_mem_map]
  rw [hall, annotations_eq_readEach horder]
  cases hread : readEach (order.reverse.flatMap own) with
  | error reason =>
    obtain ⟨before, e, after, hsplit, he, -⟩ := readEach_eq_error.mp hread
    refine iff_of_false (fun h => ?_) fun ⟨_, h⟩ => by cases h
    have hsome := h e (by rw [hsplit]; simp)
    rw [ Annotation.read?, he] at hsome
    cases hsome
  | ok l =>
    exact iff_of_true (isSome_of_readings (readEach_eq_ok.mp hread)) ⟨_, rfl⟩

end Ordered

section Readable

variable {annotations : Entries Text Annotation} (horder : c.resolutionOrder? = some order)
  (h : c.annotations = .ok annotations)

include horder h

theorem nodup_keys_annotations : (Entries.keys annotations).Nodup := by
  rw [(annotations_eq_ok horder h).1]
  exact nodup_distinct _

theorem mem_annotations : (name, a) ∈ annotations ↔ annotation? order name = some a := by
  rw [← (annotations_eq_ok horder h).2]
  constructor
  · exact Entries.find?_of_mem (nodup_keys_annotations horder h)
  · exact Entries.mem_of_find?

theorem annotations_eq_map :
    annotations = (attributeNames order).map fun name =>
      (name, (annotation? order name).getD default) := by
  obtain ⟨hkeys, hfind⟩ := annotations_eq_ok horder h
  rw [Entries.eq_map_keys (nodup_keys_annotations horder h) default, hkeys]
  simp only [hfind]

end Readable

end ClassDeclaration

end PrefAccessor
