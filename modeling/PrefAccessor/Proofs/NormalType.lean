import Mathlib.Data.List.Basic
import Mathlib.Logic.Relation
import PrefAccessor.Annotation

/-!
# Normal types

A type is normal if its unions are flat, without repetition and never of one member, and if attached
metadata is one list. Normalizing makes every type normal and leaves normal types alone. The members
of a union are those of all its parts, up to repetition.
-/

namespace PrefAccessor.Annotation

set_option autoImplicit false

variable {a x : Annotation} {as members : List Annotation} {spelling : Spelling}

def IsSimple (a : Annotation) : Prop :=
  ∀ spelling members, a ≠ .union spelling members

theorem IsSimple.unionMembers_eq (h : a.IsSimple) : unionMembers a = [a] := by
  cases a with
  | union spelling members => exact absurd rfl (h spelling members)
  | _ => rfl

inductive IsNormal : Annotation → Prop
  | basic (kind : BasicClass) : IsNormal (.basic kind)
  | none : IsNormal .none
  | any : IsNormal .any
  | plain (name : Text) : IsNormal (.plain name)
  | pref (type : PrefType) : IsNormal (.pref type)
  | forward (text : Text) : IsNormal (.forward text)
  | generic {origin : GenericOrigin} {spelling : Spelling} {arguments : List Annotation}
    (h : ∀ a ∈ arguments, IsNormal a) : IsNormal (.generic origin spelling arguments)
  | union {spelling : Spelling} {members : List Annotation} (h : ∀ a ∈ members, IsNormal a)
    (hsimple : ∀ a ∈ members, a.IsSimple)
    (hdistinct : members.Pairwise fun a b => same a b = false) (hlength : members.length ≠ 1)
    (hspelling : members.any needsTyping = true → spelling = .typing) :
    IsNormal (.union spelling members)
  | annotated {type : Annotation} {metadata : List Marker} (h : IsNormal type)
    (hplain : ∀ inner before, type ≠ .annotated inner before) : IsNormal (.annotated type metadata)

theorem withoutRepetition_sublist (as : List Annotation) :
    (withoutRepetition as).Sublist as := by
  induction as with
  | nil => exact List.Sublist.refl []
  | cons a as ih => exact (List.filter_sublist.trans ih).cons_cons a

theorem withoutRepetition_distinct (as : List Annotation) :
    (withoutRepetition as).Pairwise fun a b => same a b = false := by
  induction as with
  | nil => exact List.Pairwise.nil
  | cons a as ih =>
    refine List.pairwise_cons.mpr ⟨?_, ih.filter _⟩
    intro b hb
    simpa using (List.mem_filter.mp hb).2

theorem withoutRepetition_eq_self (h : as.Pairwise fun a b => same a b = false) :
    withoutRepetition as = as := by
  induction as with
  | nil => rfl
  | cons a as ih =>
    obtain ⟨hfirst, hrest⟩ := List.pairwise_cons.mp h
    have hkept : (as.filter fun b => !same a b) = as := by
      apply List.filter_eq_self.mpr
      intro b hb
      simp [hfirst b hb]
    rw [withoutRepetition, ih hrest, hkept]

/-- From a member that is kept a chain of the same types leads to each member. -/
theorem exists_kept (hx : x ∈ as) :
    ∃ a ∈ withoutRepetition as, Relation.ReflTransGen (fun a b => same a b = true) a x := by
  induction as with
  | nil => cases hx
  | cons a as ih =>
    rw [withoutRepetition]
    rcases List.mem_cons.mp hx with rfl | hx
    · exact ⟨x, List.mem_cons_self, .refl⟩
    · obtain ⟨b, hb, hbx⟩ := ih hx
      by_cases hab : same a b = true
      · exact ⟨a, List.mem_cons_self, .head hab hbx⟩
      · exact ⟨b, List.mem_cons_of_mem a (List.mem_filter.mpr ⟨hb, by simp [hab]⟩), hbx⟩

/-- The parts that a union is made of, those of a union among them in its place. -/
def flatten (members : List Annotation) : List Annotation :=
  members.flatMap unionMembers

theorem IsNormal.of_mem_unionMembers (h : a.IsNormal) (hx : x ∈ unionMembers a) :
    x.IsNormal ∧ x.IsSimple := by
  cases a with
  | union spelling members =>
    cases h with
    | union h hsimple => exact ⟨h x hx, hsimple x hx⟩
  | _ =>
    obtain rfl := List.mem_singleton.mp hx
    refine ⟨h, ?_⟩
    intro spelling members heq
    cases heq

theorem of_mem_flatten (h : ∀ a ∈ members, a.IsNormal) (hx : x ∈ flatten members) :
    x.IsNormal ∧ x.IsSimple := by
  obtain ⟨a, ha, hx⟩ := List.mem_flatMap.mp hx
  exact (h a ha).of_mem_unionMembers hx

theorem unionOf_eq (spelling : Spelling) (members : List Annotation) :
    (∃ a, withoutRepetition (flatten members) = [a] ∧ unionOf spelling members = a) ∨
      (withoutRepetition (flatten members)).length ≠ 1 ∧
        unionOf spelling members =
          .union (if members.any needsTyping then .typing else spelling)
            (withoutRepetition (flatten members)) := by
  unfold unionOf
  split
  · rename_i a heq
    exact Or.inl ⟨a, heq, rfl⟩
  · rename_i hother
    refine Or.inr ⟨?_, rfl⟩
    intro hlength
    obtain ⟨a, ha⟩ := List.length_eq_one_iff.mp hlength
    exact hother a ha

theorem unionMembers_unionOf (h : ∀ a ∈ members, a.IsNormal) :
    unionMembers (unionOf spelling members) = withoutRepetition (flatten members) := by
  rcases unionOf_eq spelling members with ⟨a, hkept, heq⟩ | ⟨-, heq⟩
  · have ha : a ∈ flatten members := by
      apply (withoutRepetition_sublist _).subset
      rw [hkept]
      exact List.mem_singleton_self a
    rw [heq, hkept, (of_mem_flatten h ha).2.unionMembers_eq]
  · rw [heq]
    rfl

/-- A part that only the other spelling allows has been in a union of that spelling. -/
theorem needsTyping_of_mem_flatten (h : ∀ a ∈ members, a.IsNormal) (hx : x ∈ flatten members)
    (hneeds : x.needsTyping = true) : members.any needsTyping = true := by
  obtain ⟨a, ha, hx⟩ := List.mem_flatMap.mp hx
  refine List.any_eq_true.mpr ⟨a, ha, ?_⟩
  cases hnormal : h a ha with
  | union _ _ _ _ hspelling =>
    rw [hspelling (List.any_eq_true.mpr ⟨x, hx, hneeds⟩)]
    rfl
  | _ =>
    obtain rfl := List.mem_singleton.mp hx
    exact hneeds

theorem isNormal_unionOf (h : ∀ a ∈ members, a.IsNormal) : (unionOf spelling members).IsNormal := by
  have hkept (x : Annotation) (hx : x ∈ withoutRepetition (flatten members)) :
      x.IsNormal ∧ x.IsSimple :=
    of_mem_flatten h ((withoutRepetition_sublist _).subset hx)
  rcases unionOf_eq spelling members with ⟨a, ha, heq⟩ | ⟨hlength, heq⟩
  · rw [heq]
    exact (hkept a (by rw [ha]; exact List.mem_singleton_self a)).1
  · rw [heq]
    refine .union (fun x hx => (hkept x hx).1) (fun x hx => (hkept x hx).2)
      (withoutRepetition_distinct _) hlength ?_
    intro hany
    obtain ⟨x, hx, hneeds⟩ := List.any_eq_true.mp hany
    exact if_pos (needsTyping_of_mem_flatten h ((withoutRepetition_sublist _).subset hx) hneeds)

theorem normalizeAll_eq_self (h : ∀ a ∈ as, a.normalize = a) : normalizeAll as = as := by
  induction as with
  | nil => rfl
  | cons a as ih =>
    obtain ⟨ha, has⟩ := List.forall_mem_cons.mp h
    rw [normalizeAll, ha, ih has]

theorem isNormal_annotate {metadata : List Marker} (h : a.IsNormal) :
    (annotate a metadata).IsNormal := by
  unfold annotate
  split
  · cases h with
    | annotated h hplain => exact .annotated h hplain
  · rename_i hplain
    exact .annotated h hplain

mutual

theorem isNormal_normalize (a : Annotation) : a.normalize.IsNormal := by
  cases a with
  | basic kind => exact .basic kind
  | none => exact .none
  | any => exact .any
  | plain name => exact .plain name
  | pref type => exact .pref type
  | forward text => exact .forward text
  | generic origin spelling arguments =>
    rw [normalize]
    exact .generic (isNormal_normalizeAll arguments)
  | union spelling members =>
    rw [normalize]
    exact isNormal_unionOf (isNormal_normalizeAll members)
  | annotated type metadata =>
    rw [normalize]
    exact isNormal_annotate (isNormal_normalize type)

theorem isNormal_normalizeAll (as : List Annotation) : ∀ a ∈ normalizeAll as, a.IsNormal := by
  cases as with
  | nil => exact fun a ha => absurd ha List.not_mem_nil
  | cons a as =>
    rw [normalizeAll]
    exact List.forall_mem_cons.mpr ⟨isNormal_normalize a, isNormal_normalizeAll as⟩

end

theorem flatten_of_simple (h : ∀ a ∈ members, a.IsSimple) : flatten members = members := by
  induction members with
  | nil => rfl
  | cons a as ih =>
    obtain ⟨ha, has⟩ := List.forall_mem_cons.mp h
    rw [flatten, List.flatMap_cons, ha.unionMembers_eq, ← flatten, ih has, List.singleton_append]

theorem IsNormal.normalize_eq (h : a.IsNormal) : a.normalize = a := by
  induction h with
  | generic _ ih => rw [normalize, normalizeAll_eq_self ih]
  | @union spelling members _ hsimple hdistinct hlength hspelling ih =>
    have hkept : withoutRepetition (flatten members) = members := by
      rw [flatten_of_simple hsimple, withoutRepetition_eq_self hdistinct]
    rw [normalize, normalizeAll_eq_self ih]
    rcases unionOf_eq spelling members with ⟨a, ha, -⟩ | ⟨-, heq⟩
    · rw [hkept] at ha
      rw [ha] at hlength
      exact absurd rfl hlength
    · rw [heq, hkept]
      split
      · rename_i hneeds
        rw [hspelling hneeds]
      · rfl
  | @annotated type metadata _ hplain ih =>
    rw [normalize, ih]
    unfold annotate
    split
    · exact absurd rfl (hplain _ _)
    · rfl
  | _ => rfl

theorem normalize_normalize (a : Annotation) : a.normalize.normalize = a.normalize :=
  (isNormal_normalize a).normalize_eq

end PrefAccessor.Annotation
