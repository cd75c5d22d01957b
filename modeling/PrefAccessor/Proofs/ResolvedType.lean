import PrefAccessor.Proofs.NormalType
import PrefAccessor.Schema.Basic

/-!
# Which types stand for preference types

A basic class stands for its preference type, a set of exactly texts for that of sets, and a union for
what its only member besides the absent value stands for. A type that stands for one is always
resolved to it. Any other type is refused, unless its metadata keeps it from being looked up or from
being written into the refusal. The absent value as a further member of a union changes nothing.
-/

namespace PrefAccessor.Annotation

set_option autoImplicit false

variable {a z : Annotation} {l members : List Annotation} {spelling : Spelling} {t : PrefType}
  {field : Text}

inductive StandsFor : Annotation → PrefType → Prop
  | basic (kind : BasicClass) : StandsFor (.basic kind) kind.prefType
  | strings {origin : GenericOrigin} (spelling : Spelling)
    (h : origin = .set ∨ origin = .frozenset) :
    StandsFor (.generic origin spelling [.basic .str]) .stringSet
  | only {spelling : Spelling} {members : List Annotation} {a : Annotation} {t : PrefType}
    (h : (members.filter fun b => !b.isNone) = [a]) (ha : StandsFor a t) :
    StandsFor (.union spelling members) t

theorem isNone_iff : a.isNone = true ↔ a = .none := by
  cases a <;> simp [isNone]

theorem not_standsFor_none : ¬ StandsFor .none t := by
  intro h
  cases h

theorem filter_eq_nil_iff_all :
    (members.filter fun b => !b.isNone) = [] ↔ members.all isNone = true := by
  simp [List.filter_eq_nil_iff]

theorem resolveOnly?_of_filter (h : (members.filter fun b => !b.isNone) = [a]) :
    resolveOnly? members = resolveNormal? a := by
  induction members with
  | nil => cases h
  | cons b bs ih =>
    rw [resolveOnly?]
    by_cases hb : b.isNone = true
    · rw [List.filter_cons_of_neg (by simp [hb])] at h
      rw [if_pos hb, ih h]
    · rw [List.filter_cons_of_pos (by simp [hb])] at h
      obtain ⟨rfl, hnil⟩ := List.cons.inj h
      rw [if_neg hb, if_pos (filter_eq_nil_iff_all.mp hnil)]

theorem StandsFor.resolveNormal?_eq (h : a.StandsFor t) : resolveNormal? a = some t := by
  induction h with
  | basic kind => rfl
  | strings spelling h =>
    rcases h with rfl | rfl
    · rfl
    · rfl
  | only h _ ih => rw [resolveNormal?, resolveOnly?_of_filter h, ih]

mutual

theorem standsFor_of_resolveNormal? (a : Annotation) {t : PrefType} (h : resolveNormal? a = some t) :
    a.StandsFor t := by
  unfold resolveNormal? at h
  split at h
  · cases h
    exact .basic _
  · cases h
    exact .strings _ (Or.inl rfl)
  · cases h
    exact .strings _ (Or.inr rfl)
  · rename_i spelling members
    obtain ⟨b, hb, hstands⟩ := exists_only_of_resolveOnly? members h
    exact .only hb hstands
  · cases h

theorem exists_only_of_resolveOnly? (members : List Annotation) {t : PrefType}
    (h : resolveOnly? members = some t) :
    ∃ a, (members.filter fun b => !b.isNone) = [a] ∧ a.StandsFor t := by
  cases members with
  | nil => cases h
  | cons b bs =>
    rw [resolveOnly?] at h
    by_cases hb : b.isNone = true
    · rw [if_pos hb] at h
      rw [List.filter_cons_of_neg (by simp [hb])]
      exact exists_only_of_resolveOnly? bs h
    · rw [if_neg hb] at h
      split at h
      · rename_i hrest
        refine ⟨b, ?_, standsFor_of_resolveNormal? b h⟩
        rw [List.filter_cons_of_pos (by simp [hb]), filter_eq_nil_iff_all.mpr hrest]
      · cases h

end

theorem resolveNormal?_eq_some : resolveNormal? a = some t ↔ a.StandsFor t :=
  ⟨standsFor_of_resolveNormal? a, StandsFor.resolveNormal?_eq⟩

/-- The only type of the list besides the absent value. -/
def IsOnly (z : Annotation) (l : List Annotation) : Prop :=
  z ∈ l ∧ ∀ x ∈ l, x = .none ∨ x = z

theorem same_basic_iff {kind : BasicClass} : same (.basic kind) a = true ↔ a = .basic kind := by
  cases a with
  | basic other =>
    simp only [same, beq_iff_eq, basic.injEq]
    exact eq_comm
  | _ => simp [same]

theorem sameList_basic_iff {kind : BasicClass} :
    sameList [.basic kind] l = true ↔ l = [.basic kind] := by
  match l with
  | [] => simp [sameList]
  | [b] => simp [sameList, same_basic_iff]
  | b :: c :: rest => simp [sameList]

/-- What stands for a preference type and is no union is the same as itself alone. -/
theorem StandsFor.same_iff (h : z.StandsFor t) (hz : z.IsSimple) {x : Annotation} :
    same z x = true ↔ x = z := by
  cases h with
  | basic kind => exact same_basic_iff
  | strings spelling h =>
    cases x with
    | generic origin spelling arguments =>
      simp only [same, Bool.and_eq_true, beq_iff_eq, sameList_basic_iff, generic.injEq]
      constructor
      · rintro ⟨⟨rfl, rfl⟩, rfl⟩
        exact ⟨rfl, rfl, rfl⟩
      · rintro ⟨rfl, rfl, rfl⟩
        exact ⟨⟨rfl, rfl⟩, rfl⟩
    | _ => simp [same]
  | only => exact absurd rfl (hz _ _)

theorem eq_of_chain {x : Annotation} (hz : ∀ y, same z y = true → y = z)
    (h : Relation.ReflTransGen (fun a b => same a b = true) z x) : x = z := by
  induction h with
  | refl => rfl
  | tail _ hab ih =>
    subst ih
    exact hz _ hab

theorem eq_none_of_same {x : Annotation} (h : same .none x = true) : x = .none := by
  cases x <;> simp [same] at h ⊢

theorem StandsFor.isOnly_withoutRepetition (h : z.StandsFor t) (hz : z.IsSimple) :
    IsOnly z (withoutRepetition l) ↔ IsOnly z l := by
  -- a chain of the same types that begins at the absent value or at `z` does not leave it
  have hstart {a x : Annotation} (ha : a = .none ∨ a = z)
      (hchain : Relation.ReflTransGen (fun a b => same a b = true) a x) : x = a := by
    rcases ha with rfl | rfl
    · exact eq_of_chain (fun _ => eq_none_of_same) hchain
    · exact eq_of_chain (fun _ => (h.same_iff hz).mp) hchain
  constructor
  · intro honly
    refine ⟨(withoutRepetition_sublist l).subset honly.1, ?_⟩
    intro x hx
    obtain ⟨a, ha, hchain⟩ := exists_kept hx
    rw [hstart (honly.2 a ha) hchain]
    exact honly.2 a ha
  · intro honly
    refine ⟨?_, fun x hx => honly.2 x ((withoutRepetition_sublist l).subset hx)⟩
    obtain ⟨a, ha, hchain⟩ := exists_kept honly.1
    rw [hstart (honly.2 a ((withoutRepetition_sublist l).subset ha)) hchain]
    exact ha

theorem StandsFor.filter_eq_of_isOnly (h : z.StandsFor t) (hz : z.IsSimple) (honly : IsOnly z l)
    (hdistinct : l.Pairwise fun a b => same a b = false) :
    (l.filter fun b => !b.isNone) = [z] := by
  have hmem : z ∈ l.filter fun b => !b.isNone := by
    refine List.mem_filter.mpr ⟨honly.1, ?_⟩
    simp only [Bool.not_eq_true', ← Bool.not_eq_true, isNone_iff]
    rintro rfl
    exact not_standsFor_none h
  have hall (x : Annotation) (hx : x ∈ l.filter fun b => !b.isNone) : x = z := by
    obtain ⟨hx, hne⟩ := List.mem_filter.mp hx
    apply (honly.2 x hx).resolve_left
    rintro rfl
    cases hne
  have hpairwise := hdistinct.filter fun b => !b.isNone
  generalize (l.filter fun b => !b.isNone) = kept at hmem hall hpairwise
  match kept with
  | [] => cases hmem
  | [x] => rw [hall x (List.mem_singleton_self x)]
  | x :: y :: rest =>
    have hxy := (List.pairwise_cons.mp hpairwise).1 y List.mem_cons_self
    rw [hall x List.mem_cons_self, hall y (List.mem_cons_of_mem x List.mem_cons_self),
      (h.same_iff hz).mpr rfl] at hxy
    cases hxy

theorem IsNormal.standsFor_iff (h : a.IsNormal) :
    a.StandsFor t ↔ ∃ z, IsOnly z (unionMembers a) ∧ z.StandsFor t := by
  cases a with
  | union spelling members =>
    cases h with
    | union _ hsimple hdistinct =>
      constructor
      · intro hstands
        cases hstands with
        | @only _ _ z _ hfilter hz =>
          have hmem : z ∈ members.filter fun b => !b.isNone := by
            rw [hfilter]
            exact List.mem_singleton_self z
          refine ⟨z, ⟨List.mem_of_mem_filter hmem, ?_⟩, hz⟩
          intro x hx
          by_cases hnone : x.isNone = true
          · exact Or.inl (isNone_iff.mp hnone)
          · have hx : x ∈ members.filter fun b => !b.isNone :=
              List.mem_filter.mpr ⟨hx, by simp [hnone]⟩
            rw [hfilter] at hx
            exact Or.inr (List.mem_singleton.mp hx)
      · rintro ⟨z, honly, hz⟩
        exact .only (hz.filter_eq_of_isOnly (hsimple z honly.1) honly hdistinct) hz
  | _ =>
    constructor
    · intro hstands
      exact ⟨_, ⟨List.mem_singleton_self _, fun x hx => Or.inr (List.mem_singleton.mp hx)⟩, hstands⟩
    · rintro ⟨z, honly, hz⟩
      rwa [List.mem_singleton.mp honly.1] at hz

/-- A union stands for what the only one of its parts besides the absent value stands for. -/
theorem standsFor_unionOf (h : ∀ a ∈ members, a.IsNormal) :
    (unionOf spelling members).StandsFor t ↔
      ∃ z, IsOnly z (flatten members) ∧ z.StandsFor t := by
  rw [(isNormal_unionOf h).standsFor_iff, unionMembers_unionOf h]
  constructor
  · rintro ⟨z, honly, hz⟩
    have hmem := (withoutRepetition_sublist _).subset honly.1
    exact ⟨z, (hz.isOnly_withoutRepetition (of_mem_flatten h hmem).2).mp honly, hz⟩
  · rintro ⟨z, honly, hz⟩
    exact ⟨z, (hz.isOnly_withoutRepetition (of_mem_flatten h honly.1).2).mpr honly, hz⟩

/-- A union of the type and the absent value, in either order. -/
def IsOptionOf (b a : Annotation) : Prop :=
  ∃ spelling, b = .union spelling [a, .none] ∨ b = .union spelling [.none, a]

theorem IsNormal.distinct_members (h : a.IsNormal) :
    (unionMembers a).Pairwise fun a b => same a b = false := by
  cases a with
  | union spelling members =>
    cases h with
    | union _ _ hdistinct => exact hdistinct
  | _ => exact List.pairwise_singleton _ _

theorem prefix_withoutRepetition (h : l.Pairwise fun a b => same a b = false)
    (rest : List Annotation) : l <+: withoutRepetition (l ++ rest) := by
  induction l with
  | nil => exact List.nil_prefix
  | cons a as ih =>
    obtain ⟨hfirst, hrest⟩ := List.pairwise_cons.mp h
    obtain ⟨kept, hkept⟩ := ih hrest
    have hfilter : (as.filter fun b => !same a b) = as := by
      apply List.filter_eq_self.mpr
      intro b hb
      simp [hfirst b hb]
    rw [List.cons_append, withoutRepetition, ← hkept, List.filter_append, hfilter]
    exact (List.prefix_cons_inj a).mpr (List.prefix_append as _)

/-- Besides the absent value, the members of the union are those that the type has alone. -/
theorem IsOptionOf.mem_members {b x : Annotation} (h : b.IsOptionOf a) (hx : x ≠ .none) :
    x ∈ unionMembers b.normalize ↔ x ∈ unionMembers a.normalize := by
  have ha := isNormal_normalize a
  have hdistinct := ha.distinct_members
  obtain ⟨spelling, rfl | rfl⟩ := h
  · have hmembers : ∀ m ∈ [a.normalize, .none], m.IsNormal := by
      simpa using ⟨ha, IsNormal.none⟩
    have hparts : flatten [a.normalize, .none] = unionMembers a.normalize ++ [.none] := by
      simp [flatten, unionMembers]
    have hnormal : normalize (.union spelling [a, .none]) =
        unionOf spelling [a.normalize, .none] := rfl
    rw [hnormal, unionMembers_unionOf hmembers, hparts]
    constructor
    · intro hmem
      have hmem := (withoutRepetition_sublist _).subset hmem
      exact (List.mem_append.mp hmem).resolve_right fun h => hx (List.mem_singleton.mp h)
    · intro hmem
      exact (prefix_withoutRepetition hdistinct [.none]).subset hmem
  · have hmembers : ∀ m ∈ [.none, a.normalize], m.IsNormal := by
      simpa using ⟨IsNormal.none, ha⟩
    have hparts : flatten [.none, a.normalize] = .none :: unionMembers a.normalize := by
      simp [flatten, unionMembers]
    have hnormal : normalize (.union spelling [.none, a]) =
        unionOf spelling [.none, a.normalize] := rfl
    rw [hnormal, unionMembers_unionOf hmembers, hparts, withoutRepetition,
      withoutRepetition_eq_self hdistinct, List.mem_cons, List.mem_filter]
    constructor
    · rintro (hnone | ⟨hmem, -⟩)
      · exact absurd hnone hx
      · exact hmem
    · intro hmem
      refine Or.inr ⟨hmem, ?_⟩
      rw [Bool.not_eq_true', ← Bool.not_eq_true]
      exact fun hsame => hx (eq_none_of_same hsame)

theorem IsOptionOf.standsFor_iff {b : Annotation} (h : b.IsOptionOf a) :
    b.normalize.StandsFor t ↔ a.normalize.StandsFor t := by
  have honly (z : Annotation) (hz : z ≠ .none) :
      IsOnly z (unionMembers b.normalize) ↔ IsOnly z (unionMembers a.normalize) := by
    unfold IsOnly
    rw [h.mem_members hz]
    apply and_congr_right
    intro _
    apply forall_congr'
    intro x
    by_cases hx : x = .none
    · simp [hx]
    · rw [h.mem_members hx]
  rw [(isNormal_normalize b).standsFor_iff, (isNormal_normalize a).standsFor_iff]
  apply exists_congr
  intro z
  apply and_congr_left
  intro hz
  apply honly
  rintro rfl
  exact not_standsFor_none hz

theorem areHashable_iff (as : List Annotation) :
    areHashable as = true ↔ ∀ a ∈ as, a.isHashable = true := by
  induction as with
  | nil => simp [areHashable]
  | cons a as ih => simp [areHashable, ih]

theorem areWritable_iff (as : List Annotation) :
    areWritable as = true ↔ ∀ a ∈ as, a.isWritable = true := by
  induction as with
  | nil => simp [areWritable]
  | cons a as ih => simp [areWritable, ih]

/-- What a union has if all of its members have it depends on no absent value among them. -/
theorem iff_forall_members {p : Annotation → Bool} (hnone : p .none = true)
    (hunion : ∀ spelling members, p (.union spelling members) = true ↔ ∀ a ∈ members, p a = true) :
    p a = true ↔ ∀ x ∈ unionMembers a, x ≠ .none → p x = true := by
  have hmembers : p a = true ↔ ∀ x ∈ unionMembers a, p x = true := by
    cases a with
    | union spelling members => exact hunion spelling members
    | _ => simp [unionMembers]
  rw [hmembers]
  constructor
  · intro h x hx _
    exact h x hx
  · intro h x hx
    by_cases heq : x = .none
    · rw [heq, hnone]
    · exact h x hx heq

theorem IsOptionOf.eq_of_members {b : Annotation} (h : b.IsOptionOf a) {p : Annotation → Bool}
    (hnone : p .none = true)
    (hunion : ∀ spelling members, p (.union spelling members) = true ↔ ∀ a ∈ members, p a = true) :
    p b.normalize = p a.normalize := by
  rw [Bool.eq_iff_iff, iff_forall_members hnone hunion, iff_forall_members hnone hunion]
  apply forall_congr'
  intro x
  by_cases hx : x = .none
  · simp [hx]
  · rw [h.mem_members hx]

mutual

/-- The type is built from classes by generics, unions and metadata alone. -/
def isBuilt : Annotation → Bool
  | .pref _ => false
  | .forward _ => false
  | .generic _ _ arguments => areBuilt arguments
  | .union _ members => areBuilt members
  | .annotated type _ => isBuilt type
  | _ => true

def areBuilt : List Annotation → Bool
  | [] => true
  | a :: as => a.isBuilt && areBuilt as

end

theorem areBuilt_iff (as : List Annotation) : areBuilt as = true ↔ ∀ a ∈ as, a.isBuilt = true := by
  induction as with
  | nil => simp [areBuilt]
  | cons a as ih => simp [areBuilt, ih]

theorem isBuilt_of_mem_flatten (h : ∀ a ∈ members, a.isBuilt = true) {x : Annotation}
    (hx : x ∈ flatten members) : x.isBuilt = true := by
  obtain ⟨a, ha, hx⟩ := List.mem_flatMap.mp hx
  cases a with
  | union spelling parts => exact (areBuilt_iff parts).mp (h _ ha) x hx
  | _ =>
    obtain rfl := List.mem_singleton.mp hx
    exact h _ ha

theorem isBuilt_unionOf (h : ∀ a ∈ members, a.isBuilt = true) :
    (unionOf spelling members).isBuilt = true := by
  have hkept (x : Annotation) (hx : x ∈ withoutRepetition (flatten members)) : x.isBuilt = true :=
    isBuilt_of_mem_flatten h ((withoutRepetition_sublist _).subset hx)
  rcases unionOf_eq spelling members with ⟨a, ha, heq⟩ | ⟨-, heq⟩
  · rw [heq]
    exact hkept a (by rw [ha]; exact List.mem_singleton_self a)
  · rw [heq, isBuilt]
    exact (areBuilt_iff _).mpr hkept

theorem isBuilt_annotate {metadata : List Marker} (h : a.isBuilt = true) :
    (annotate a metadata).isBuilt = true := by
  unfold annotate
  split
  · exact h
  · exact h

mutual

theorem isBuilt_normalize (a : Annotation) (h : a.isBuilt = true) : a.normalize.isBuilt = true := by
  cases a with
  | generic origin spelling arguments =>
    exact (areBuilt_iff _).mpr (isBuilt_normalizeAll arguments h)
  | union spelling members => exact isBuilt_unionOf (isBuilt_normalizeAll members h)
  | annotated type metadata => exact isBuilt_annotate (isBuilt_normalize type h)
  | _ => exact h

theorem isBuilt_normalizeAll (as : List Annotation) (h : areBuilt as = true) :
    ∀ a ∈ normalizeAll as, a.isBuilt = true := by
  cases as with
  | nil => exact fun a ha => absurd ha List.not_mem_nil
  | cons a as =>
    rw [areBuilt, Bool.and_eq_true] at h
    rw [normalizeAll]
    exact List.forall_mem_cons.mpr ⟨isBuilt_normalize a h.1, isBuilt_normalizeAll as h.2⟩

end

theorem resolve?_eq_some (h : a.isBuilt = true) (hnormal : a.IsNormal) :
    a.resolve? = some t ↔ a.StandsFor t := by
  rw [← resolveNormal?_eq_some]
  unfold resolve?
  split
  · cases h
  · cases h
  · rw [hnormal.normalize_eq]

theorem StandsFor.isHashable (h : a.StandsFor t) : a.isHashable = true := by
  induction h with
  | basic kind => rfl
  | strings spelling h => rfl
  | @only spelling members a t h _ ih =>
    refine (areHashable_iff members).mpr ?_
    intro x hx
    by_cases hnone : x.isNone = true
    · rw [isNone_iff.mp hnone]
      rfl
    · have hx : x ∈ members.filter fun b => !b.isNone :=
        List.mem_filter.mpr ⟨hx, by simp [hnone]⟩
      rw [h, List.mem_singleton] at hx
      rw [hx, ih]

theorem prefType_eq_ok :
    a.prefType field = .ok t ↔ a.isHashable = true ∧ a.resolve? = some t := by
  unfold prefType resolve label?
  cases a.isHashable <;> cases a.resolve? <;> cases a.isWritable <;>
    simp [Attempt.stop, Attempt.refuse]

theorem prefType_eq_refused {cause : RefusalCause} :
    a.prefType field = .error (.refused cause) ↔ a.isHashable = true ∧ a.resolve? = Option.none ∧
      a.isWritable = true ∧ cause = .unsupportedType field a.label := by
  unfold prefType resolve label?
  cases a.isHashable <;> cases a.resolve? <;> cases a.isWritable <;>
    simp [Attempt.stop, Attempt.refuse, eq_comm]

theorem prefType_eq_fault {k : Fault} :
    a.prefType field = .error (.fault k) ↔ a.isHashable = false ∧ k = .wrongKind ∨
      a.isHashable = true ∧ a.resolve? = Option.none ∧ a.isWritable = false ∧ k = .badValue := by
  unfold prefType resolve label?
  cases a.isHashable <;> cases a.resolve? <;> cases a.isWritable <;>
    simp [Attempt.stop, Attempt.refuse, eq_comm]

/-- A field is declared by the preference type of its declared type and its default. -/
theorem declare_eq_prefType (aggregate name key : Text) (default : Option Text) (isAsync : Bool) :
    Field.declare aggregate name key a.resolve a.label? default isAsync =
      (do
        let type ← Attempt.mapRefusal (Refusal.mk · (some aggregate)) (a.prefType name)
        let _ ← Attempt.mapRefusal (fun p => Refusal.mk (.invalidDefault p) (some aggregate))
          (type.defaultValue default)
        .ok ⟨name, key, type, default, isAsync⟩) := by
  unfold Field.declare prefType
  cases a.resolve with
  | error k => rfl
  | ok resolved =>
    cases resolved with
    | none => cases a.label? <;> rfl
    | some type =>
      change _ = Attempt.mapRefusal (fun p => Refusal.mk (.invalidDefault p) (some aggregate))
        (type.defaultValue default) >>= fun _ => Except.ok _
      simp only
      generalize Attempt.mapRefusal _ (type.defaultValue default) = checked
      cases checked <;> rfl

/-- Both have the same preference type, or both are refused, or both stop alike. -/
def ResolvesLike (b a : Annotation) (field : Text) : Prop :=
  Attempt.mapRefusal (fun _ => ()) (b.prefType field) =
    Attempt.mapRefusal (fun _ => ()) (a.prefType field)

theorem IsOptionOf.resolvesLike {b : Annotation} (h : b.IsOptionOf a) (ha : a.isBuilt = true) :
    ResolvesLike b.normalize a.normalize field := by
  have hb : b.isBuilt = true := by
    obtain ⟨spelling, rfl | rfl⟩ := h
    · simp [isBuilt, areBuilt, ha]
    · simp [isBuilt, areBuilt, ha]
  have hresolve : b.normalize.resolve? = a.normalize.resolve? := by
    apply Option.ext
    intro t
    rw [resolve?_eq_some (isBuilt_normalize b hb) (isNormal_normalize b), h.standsFor_iff,
      resolve?_eq_some (isBuilt_normalize a ha) (isNormal_normalize a)]
  have hhash : b.normalize.isHashable = a.normalize.isHashable :=
    h.eq_of_members rfl fun _ members => areHashable_iff members
  have hwrite : b.normalize.isWritable = a.normalize.isWritable :=
    h.eq_of_members rfl fun _ members => areWritable_iff members
  unfold ResolvesLike prefType resolve label?
  rw [hresolve, hhash, hwrite]
  cases a.normalize.isHashable <;> cases a.normalize.resolve? <;> cases a.normalize.isWritable <;> rfl

/-- A type is resolved exactly to what it stands for. What stands for nothing is refused as unsupported
unless its metadata cannot be looked up or be written down, and the absent value makes no difference
in a union, in which no two other types may meet. -/
theorem prefType_decided (h : a.isBuilt = true) (field : Text) :
    (∀ t, a.normalize.prefType field = .ok t ↔ a.normalize.StandsFor t) ∧
    (a.normalize.prefType field =
        .error (.refused (.unsupportedType field a.normalize.label)) ↔
      (∀ t, ¬ a.normalize.StandsFor t) ∧ a.normalize.isHashable = true ∧
        a.normalize.isWritable = true) ∧
    (∀ k, a.normalize.prefType field = .error (.fault k) ↔
      a.normalize.isHashable = false ∧ k = .wrongKind ∨
        (∀ t, ¬ a.normalize.StandsFor t) ∧ a.normalize.isHashable = true ∧
          a.normalize.isWritable = false ∧ k = .badValue) ∧
    (∀ cause, a.normalize.prefType field = .error (.refused cause) →
      cause = .unsupportedType field a.normalize.label) ∧
    (∀ b : Annotation, b.IsOptionOf a → ResolvesLike b.normalize a.normalize field) ∧
    ∀ spelling members x y, a = .union spelling members →
      x ∈ flatten (normalizeAll members) → y ∈ flatten (normalizeAll members) →
      x ≠ .none → y ≠ .none → x ≠ y → ∀ t, a.normalize.prefType field ≠ .ok t := by
  have hresolve (t : PrefType) : a.normalize.resolve? = some t ↔ a.normalize.StandsFor t :=
    resolve?_eq_some (isBuilt_normalize a h) (isNormal_normalize a)
  have hnone : a.normalize.resolve? = Option.none ↔ ∀ t, ¬ a.normalize.StandsFor t := by
    rw [Option.eq_none_iff_forall_ne_some]
    exact forall_congr' fun t => not_congr (hresolve t)
  have hok (t : PrefType) : a.normalize.prefType field = .ok t ↔ a.normalize.StandsFor t := by
    rw [prefType_eq_ok, hresolve]
    exact ⟨And.right, fun hstands => ⟨hstands.isHashable, hstands⟩⟩
  refine ⟨hok, ?_, ?_, ?_, ?_, ?_⟩
  · rw [prefType_eq_refused, hnone]
    constructor
    · rintro ⟨hhash, hstands, hwrite, -⟩
      exact ⟨hstands, hhash, hwrite⟩
    · rintro ⟨hstands, hhash, hwrite⟩
      exact ⟨hhash, hstands, hwrite, rfl⟩
  · intro k
    rw [prefType_eq_fault, hnone]
    apply or_congr_right
    constructor
    · rintro ⟨hhash, hstands, hwrite, hk⟩
      exact ⟨hstands, hhash, hwrite, hk⟩
    · rintro ⟨hstands, hhash, hwrite, hk⟩
      exact ⟨hhash, hstands, hwrite, hk⟩
  · intro cause hcause
    exact (prefType_eq_refused.mp hcause).2.2.2
  · intro b hb
    exact hb.resolvesLike h
  · rintro spelling members x y rfl hx hy hxne hyne hne t ht
    have hunion : normalize (.union spelling members) = unionOf spelling (normalizeAll members) :=
      rfl
    rw [hok, hunion, standsFor_unionOf (isNormal_normalizeAll members)] at ht
    obtain ⟨z, honly, -⟩ := ht
    rw [(honly.2 x hx).resolve_left hxne, (honly.2 y hy).resolve_left hyne] at hne
    exact hne rfl

/-- Metadata that cannot be looked up stops a resolution that ought to be refused. -/
theorem unhashable_metadata_stops :
    ∃ a : Annotation, a.isBuilt = true ∧ (∀ t, ¬ a.normalize.StandsFor t) ∧
      a.normalize.prefType "" = .error (.fault .wrongKind) := by
  refine ⟨.annotated (.basic .int) [.key (.array [.string "a"]) (.bool false)], rfl, ?_, rfl⟩
  intro t ht
  cases ht

def tagsType : Annotation :=
  .union .typing [.none, .generic .set .typing [.basic .str],
    .union .builtin [.generic .set .typing [.union .typing [.basic .str]], .none]]

theorem tagsType_resolved :
    tagsType.isBuilt = true ∧ tagsType.normalize.prefType "tags" = .ok .stringSet ∧
      ( Annotation.union .builtin [tagsType, .none]).normalize.prefType "tags" = .ok .stringSet := by
  have hbuilt : tagsType.isBuilt = true := by decide
  obtain ⟨hok, -, -, -, hoption, -⟩ := prefType_decided hbuilt "tags"
  have hstands : tagsType.normalize.StandsFor .stringSet := by
    have hnormal : tagsType.normalize =
        .union .typing [.none, .generic .set .typing [.basic .str]] := by
      with_unfolding_all rfl
    rw [hnormal]
    exact .only rfl (.strings .typing (Or.inl rfl))
  have hresolved := (hok .stringSet).mpr hstands
  refine ⟨hbuilt, hresolved, ?_⟩
  have hlike := hoption (.union .builtin [tagsType, .none]) ⟨.builtin, Or.inl rfl⟩
  unfold ResolvesLike at hlike
  rw [hresolved] at hlike
  exact Attempt.mapRefusal_eq_ok.mp hlike

end PrefAccessor.Annotation
