import Mathlib.Data.List.Forall2
import Mathlib.Tactic.MkIffOfInductiveProp
import PrefAccessor.Proofs.DocumentFault

/-!
# The form of an entry

Which entries of a list of fields declare a field, and which field, said without checking their
members in order; and the class of the failure of every other entry. All checks of form fail in one
class and come before all others, so that their order is not seen. A list of entries fails as the
first of them does that neither declares a field nor is passed over.
-/

namespace PrefAccessor

set_option autoImplicit false

theorem Attempt.ok_bind {ε α β : Type} (x : α) (f : α → Attempt ε β) :
    (Except.ok x : Attempt ε α) >>= f = f x := rfl

theorem Attempt.ok_of_mem_collect {ε β γ : Type} {f : γ → Attempt ε (List β)} {xs : List γ}
    {ys : List β} (h : collect f xs = .ok ys) {x : γ} (hx : x ∈ xs) : ∃ found, f x = .ok found := by
  induction xs generalizing ys with
  | nil => cases hx
  | cons x' xs ih =>
    obtain ⟨found, rest, hf, hrest, -⟩ := collect_cons_eq_ok.mp h
    cases hx with
    | head => exact ⟨found, hf⟩
    | tail _ hx => exact ih hrest hx

/-- What kind of failure it is, without its particulars. -/
inductive FailureClass where
  | malformed
  | empty
  | duplicateKeys
  | unsupportedType
  | invalidDefault
  | notWritten
  | fault (fault : Fault)
  deriving DecidableEq

def RefusalCause.failureClass : RefusalCause → FailureClass
  | .malformed _ => .malformed
  | .empty _ => .empty
  | .duplicateKeys .. => .duplicateKeys
  | .unsupportedType .. => .unsupportedType
  | .invalidDefault _ => .invalidDefault
  | .notWritten .. => .notWritten

def Failure.failureClass : Failure Refusal → FailureClass
  | .refused r => r.cause.failureClass
  | .fault k => .fault k

def FailsAs {α : Type} (a : Attempt Refusal α) (c : FailureClass) : Prop :=
  ∃ e, a = .error e ∧ e.failureClass = c

/-- If the attempt fails, then because something is malformed. -/
def IsFormCheck {α : Type} (a : Attempt Refusal α) : Prop :=
  ∀ e, a = .error e → e.failureClass = .malformed

section FailsAs

variable {α β : Type} {a : Attempt Refusal α} {f : α → Attempt Refusal β} {c : FailureClass}

theorem not_failsAs_ok {x : α} : ¬ FailsAs (.ok x : Attempt Refusal α) c := by
  rintro ⟨e, he, -⟩
  cases he

theorem failsAs_refuse {r : Refusal} :
    FailsAs (Attempt.refuse r : Attempt Refusal α) c ↔ r.cause.failureClass = c := by
  constructor
  · rintro ⟨e, he, rfl⟩
    cases he
    rfl
  · intro h
    exact ⟨_, rfl, h⟩

theorem FailsAs.unique {c' : FailureClass} (h : FailsAs a c) (h' : FailsAs a c') : c = c' := by
  obtain ⟨e, he, rfl⟩ := h
  obtain ⟨e', he', rfl⟩ := h'
  rw [Except.error.inj (he.symm.trans he')]

theorem failsAs_fault {k : Fault} : FailsAs a (.fault k) ↔ a = .error (.fault k) := by
  constructor
  · rintro ⟨e, he, hc⟩
    cases e with
    | refused r =>
      obtain ⟨cause, aggregate⟩ := r
      cases cause <;> cases hc
    | fault k' =>
      cases hc
      exact he
  · intro h
    exact ⟨_, h, rfl⟩

theorem failsAs_bind : FailsAs (a >>= f) c ↔ FailsAs a c ∨ ∃ x, a = .ok x ∧ FailsAs (f x) c := by
  cases a with
  | ok x =>
    constructor
    · intro h
      exact Or.inr ⟨x, rfl, h⟩
    · rintro (h | ⟨y, hy, h⟩)
      · exact absurd h not_failsAs_ok
      · cases hy
        exact h
  | error e =>
    constructor
    · rintro ⟨e', he', hc⟩
      cases he'
      exact Or.inl ⟨e, rfl, hc⟩
    · rintro (⟨e', he', hc⟩ | ⟨x, hx, -⟩)
      · cases he'
        exact ⟨e, rfl, hc⟩
      · cases hx

/-- Behind a check of form, what is malformed is so whether the check passes or not. -/
theorem IsFormCheck.bind (ha : IsFormCheck a) (hf : ∀ x, a = .ok x → FailsAs (f x) .malformed) :
    FailsAs (a >>= f) .malformed := by
  cases h : a with
  | ok x => exact hf x h
  | error e => exact ⟨e, rfl, ha e h⟩

theorem isFormCheck_ok {x : α} : IsFormCheck (.ok x : Attempt Refusal α) := by
  intro e he
  cases he

theorem isFormCheck_malformed {aggregate : Option Text} {problem : SchemaProblem} :
    IsFormCheck (Attempt.refuse (Refusal.malformed aggregate problem) : Attempt Refusal α) := by
  intro e he
  cases he
  rfl

end FailsAs

namespace Field

variable {aggregate name key : Text} {position : Nat}

theorem documentKey_isFormCheck (v : Json) : IsFormCheck (documentKey aggregate position v) := by
  unfold documentKey
  split
  · split
    · exact isFormCheck_malformed
    · exact isFormCheck_ok
  · exact isFormCheck_malformed

theorem documentName_isFormCheck (v : Option Json) :
    IsFormCheck (documentName aggregate position key v) := by
  unfold documentName
  split
  · exact isFormCheck_ok
  · exact isFormCheck_ok
  · split
    · exact isFormCheck_malformed
    · exact isFormCheck_ok
  · exact isFormCheck_malformed

theorem documentType_isFormCheck (v : Option Json) :
    IsFormCheck (documentType aggregate name v) := by
  unfold documentType
  split
  · exact isFormCheck_ok
  · exact isFormCheck_ok
  · exact isFormCheck_malformed

theorem documentAsync_isFormCheck (v : Option Json) :
    IsFormCheck (documentAsync aggregate name v) := by
  unfold documentAsync
  split
  · exact isFormCheck_ok
  · exact isFormCheck_ok
  · exact isFormCheck_malformed

/-- The default that an entry gives, where null gives none. -/
def GivesDefault (raw : Json) (default : Option Json) : Prop :=
  (raw.member? "default" = none ∨ raw.member? "default" = some .null) ∧ default = none ∨
    ∃ d, raw.member? "default" = some d ∧ d.IsScalar ∧ default = some d

/-- The literal of a default that is given. -/
def literal? : Option Json → Except Fault (Option Text)
  | none => .ok none
  | some d => (literalOf d).map some

/-- All members of an entry have the forms that they need. -/
structure HasForm (raw : Json) (declared : Text) (default : Option Json) : Prop where
  entry : IsEntry raw declared
  default : GivesDefault raw default

theorem documentDefault_of_gives {raw : Json} {default : Option Json} (h : GivesDefault raw default) :
    documentDefault aggregate name (raw.member? "default") = Attempt.ofFaults (literal? default) := by
  rcases h with ⟨h | h, rfl⟩ | ⟨d, h, hscalar, rfl⟩
  · rw [h]
    rfl
  · rw [h]
    rfl
  · rw [h]
    cases d with
    | null => exact hscalar.elim
    | array items => exact hscalar.elim
    | object members => exact hscalar.elim
    | _ => rfl

theorem gives_or_malformed (aggregate name : Text) (raw : Json) :
    (∃ default, GivesDefault raw default) ∨
      FailsAs (documentDefault aggregate name (raw.member? "default")) .malformed := by
  cases h : raw.member? "default" with
  | none => exact Or.inl ⟨none, Or.inl ⟨Or.inl h, rfl⟩⟩
  | some d =>
    cases d with
    | null => exact Or.inl ⟨none, Or.inl ⟨Or.inr h, rfl⟩⟩
    | array items => exact Or.inr (failsAs_refuse.mpr rfl)
    | object members => exact Or.inr (failsAs_refuse.mpr rfl)
    | _ => exact Or.inl ⟨_, Or.inr ⟨_, h, trivial, rfl⟩⟩

/-- What remains to be decided of an entry in order: its type and its default. -/
theorem ofDocument_of_hasForm {raw v : Json} {declared : Text} {default : Option Json}
    (hkey : raw.member? "key" = some v) (h : HasForm raw declared default) :
    ∃ key name isAsync, ofDocument aggregate position raw v =
      Attempt.ofFaults (literal? default) >>= fun literal =>
        declare aggregate name key (.ok (typeNamed? declared)) (.ok declared) literal isAsync := by
  obtain ⟨key, hmember, hne⟩ := h.entry.key
  obtain rfl : v = .string key := Option.some.inj (hkey.symm.trans hmember)
  have hk : documentKey aggregate position (.string key) = .ok key :=
    documentKey_eq_ok.mpr ⟨rfl, hne⟩
  obtain ⟨name, hn⟩ : ∃ name, documentName aggregate position key (raw.member? "name") = .ok name :=
    documentName_ok_iff.mpr h.entry.name
  have ht : documentType aggregate name (raw.member? "type") = .ok declared :=
    documentType_eq_ok.mpr h.entry.type
  obtain ⟨isAsync, ha⟩ :
      ∃ isAsync, documentAsync aggregate name (raw.member? "async") = .ok isAsync :=
    documentAsync_ok_iff.mpr h.entry.async
  refine ⟨key, name, isAsync, ?_⟩
  simp only [ofDocument, hk, hn, ht, ha, documentDefault_of_gives h.default, Attempt.ok_bind]

theorem ofDocument_of_not_hasForm {raw v : Json} (hkey : raw.member? "key" = some v)
    (h : ¬ ∃ declared default, HasForm raw declared default) :
    FailsAs (ofDocument aggregate position raw v) .malformed := by
  unfold ofDocument
  refine (documentKey_isFormCheck v).bind fun key hk => ?_
  refine (documentName_isFormCheck _).bind fun name hn => ?_
  refine (documentType_isFormCheck _).bind fun declared ht => ?_
  refine (documentAsync_isFormCheck _).bind fun isAsync ha => ?_
  have hentry := isEntry_of_eq_ok hkey hk hn ht ha
  rcases gives_or_malformed aggregate name raw with ⟨default, hd⟩ | hd
  · exact absurd ⟨declared, default, hentry, hd⟩ h
  · exact failsAs_bind.mpr (Or.inl hd)

/-- An entry that is passed over, since it has no key. -/
def IsKeyless (raw : Json) : Prop :=
  (∃ members, raw = .object members) ∧ raw.member? "key" = none

/-- An entry that declares a field: its members have the forms that they need, its type is
supported, and the type accepts its default. -/
def IsFieldEntry (raw : Json) : Prop :=
  ∃ declared default type literal v, HasForm raw declared default ∧
    typeNamed? declared = some type ∧ literal? default = .ok literal ∧
    type.defaultValue literal = .ok v

/-- An entry with a member of a form that it must not have, or that is no object at all. -/
def IsMalformed (raw : Json) : Prop :=
  (∀ members, raw ≠ .object members) ∨
    raw.member? "key" ≠ none ∧ ¬ ∃ declared default, HasForm raw declared default

def HasUnsupportedType (raw : Json) : Prop :=
  ∃ declared default literal, HasForm raw declared default ∧ literal? default = .ok literal ∧
    typeNamed? declared = none

def HasInvalidDefault (raw : Json) : Prop :=
  ∃ declared default type literal problem, HasForm raw declared default ∧
    typeNamed? declared = some type ∧ literal? default = .ok literal ∧
    type.defaultValue literal = .error (.refused problem)

theorem HasForm.member_key {raw : Json} {declared : Text} {default : Option Json}
    (h : HasForm raw declared default) : ∃ v, raw.member? "key" = some v := by
  obtain ⟨key, hkey, -⟩ := h.entry.key
  exact ⟨_, hkey⟩

theorem isObject_of_member {raw v : Json} {k : Text} (h : raw.member? k = some v) :
    ∃ members, raw = .object members := by
  cases raw with
  | object members => exact ⟨members, rfl⟩
  | _ => cases h

theorem ofEntry_of_key {raw v : Json} (h : raw.member? "key" = some v) :
    ofEntry aggregate position raw =
      ofDocument aggregate position raw v >>= fun field => .ok [field] := by
  obtain ⟨members, rfl⟩ := isObject_of_member h
  simp only [ofEntry, h]

theorem failsAs_ofEntry_of_key {raw v : Json} (h : raw.member? "key" = some v) {c : FailureClass} :
    FailsAs (ofEntry aggregate position raw) c ↔ FailsAs (ofDocument aggregate position raw v) c := by
  rw [ofEntry_of_key h, failsAs_bind]
  constructor
  · rintro (h | ⟨field, -, h⟩)
    · exact h
    · exact absurd h not_failsAs_ok
  · exact Or.inl

theorem failsAs_declare {resolved : Option PrefType} {label : Text} {literal : Option Text}
    {isAsync : Bool} {c : FailureClass} :
    FailsAs (declare aggregate name key (.ok resolved) (.ok label) literal isAsync) c ↔
      c = .unsupportedType ∧ resolved = none ∨
      ∃ type, resolved = some type ∧
        ((c = .invalidDefault ∧ ∃ problem, type.defaultValue literal = .error (.refused problem)) ∨
          ∃ k, c = .fault k ∧ type.defaultValue literal = .error (.fault k)) := by
  cases resolved with
  | none =>
    have hrefuse : FailsAs (declare aggregate name key (.ok none) (.ok label) literal isAsync) c ↔
        FailureClass.unsupportedType = c := failsAs_refuse
    simp only [hrefuse, and_true, reduceCtorEq, false_and, exists_false, or_false, eq_comm]
  | some type =>
    simp only [declare, reduceCtorEq, and_false, false_or, Option.some.injEq, exists_eq_left']
    cases type.defaultValue literal with
    | ok v => simp [Attempt.mapRefusal, not_failsAs_ok]
    | error e =>
      cases e with
      | refused problem =>
        simp [Attempt.mapRefusal, Failure.map, FailsAs, Failure.failureClass,
          RefusalCause.failureClass, eq_comm]
      | fault k =>
        simp [Attempt.mapRefusal, Failure.map, FailsAs, Failure.failureClass, eq_comm]

theorem failsAs_ofFaults {α : Type} {a : Except Fault α} {c : FailureClass} :
    FailsAs (Attempt.ofFaults a : Attempt Refusal α) c ↔ ∃ k, a = .error k ∧ c = .fault k := by
  cases a with
  | ok x => simp [Attempt.ofFaults, not_failsAs_ok]
  | error k => simp [Attempt.ofFaults, Attempt.stop, FailsAs, Failure.failureClass, eq_comm]

theorem failsAs_ofDocument_of_hasForm {raw v : Json} {declared : Text} {default : Option Json}
    (hkey : raw.member? "key" = some v) (h : HasForm raw declared default) {c : FailureClass} :
    FailsAs (ofDocument aggregate position raw v) c ↔
      (∃ k, literal? default = .error k ∧ c = .fault k) ∨
      ∃ literal, literal? default = .ok literal ∧
        (c = .unsupportedType ∧ typeNamed? declared = none ∨
          ∃ type, typeNamed? declared = some type ∧
            ((c = .invalidDefault ∧
                ∃ problem, type.defaultValue literal = .error (.refused problem)) ∨
              ∃ k, c = .fault k ∧ type.defaultValue literal = .error (.fault k))) := by
  obtain ⟨key, name, isAsync, hread⟩ := ofDocument_of_hasForm hkey h
  rw [hread, failsAs_bind]
  simp only [failsAs_ofFaults, Attempt.ofFaults_eq_ok, failsAs_declare]

/-- Why an entry makes reading fail, and how. -/
@[mk_iff]
inductive EntryFails (raw : Json) : FailureClass → Prop
  | malformed (h : IsMalformed raw) : EntryFails raw .malformed
  | unsupportedType (h : HasUnsupportedType raw) : EntryFails raw .unsupportedType
  | invalidDefault (h : HasInvalidDefault raw) : EntryFails raw .invalidDefault
  | overlong (h : EntryStops raw) : EntryFails raw (.fault .badValue)

theorem EntryFails.mem_classes {raw : Json} {c : FailureClass} (h : EntryFails raw c) :
    c ∈ [.empty, .unsupportedType, .invalidDefault, .fault .badValue, .malformed] := by
  cases h <;> simp

theorem entryFails_of_failsAs {raw : Json} {c : FailureClass}
    (h : FailsAs (ofEntry aggregate position raw) c) : EntryFails raw c := by
  cases hkey : raw.member? "key" with
  | none =>
    cases raw with
    | object members =>
      simp only [ofEntry, hkey] at h
      exact absurd h not_failsAs_ok
    | _ =>
      obtain rfl := failsAs_refuse.mp h
      exact .malformed (Or.inl fun members hm => by cases hm)
  | some v =>
    have hdocument := (failsAs_ofEntry_of_key hkey).mp h
    by_cases hform : ∃ declared default, HasForm raw declared default
    · obtain ⟨declared, default, hform⟩ := hform
      -- Of a fault it is known already that only a default of too many digits gives one.
      have hstops : ∀ k, c = .fault k → EntryFails raw c := by
        rintro k rfl
        obtain ⟨rfl, hstops⟩ := ofEntry_eq_fault.mp (failsAs_fault.mp h)
        exact .overlong hstops
      rcases (failsAs_ofDocument_of_hasForm hkey hform).mp hdocument with
        ⟨k, -, hc⟩ | ⟨literal, hl, ⟨rfl, hnone⟩ | ⟨type, ht, ⟨rfl, problem, hd⟩ | ⟨k, hc, -⟩⟩⟩
      · exact hstops k hc
      · exact .unsupportedType ⟨declared, default, literal, hform, hl, hnone⟩
      · exact .invalidDefault ⟨declared, default, type, literal, problem, hform, ht, hl, hd⟩
      · exact hstops k hc
    · obtain rfl := hdocument.unique (ofDocument_of_not_hasForm hkey hform)
      exact .malformed (Or.inr ⟨by rw [hkey]; exact Option.some_ne_none v, hform⟩)

theorem failsAs_ofEntry {raw : Json} {c : FailureClass} :
    FailsAs (ofEntry aggregate position raw) c ↔ EntryFails raw c := by
  constructor
  · exact entryFails_of_failsAs
  · intro h
    cases h with
    | malformed h =>
      rcases h with hother | ⟨hkey, hform⟩
      · cases raw with
        | object members => exact absurd rfl (hother members)
        | _ => exact failsAs_refuse.mpr rfl
      · obtain ⟨v, hv⟩ := Option.ne_none_iff_exists'.mp hkey
        exact (failsAs_ofEntry_of_key hv).mpr (ofDocument_of_not_hasForm hv hform)
    | unsupportedType h =>
      obtain ⟨declared, default, literal, hform, hl, ht⟩ := h
      obtain ⟨v, hv⟩ := hform.member_key
      exact (failsAs_ofEntry_of_key hv).mpr ((failsAs_ofDocument_of_hasForm hv hform).mpr
        (Or.inr ⟨literal, hl, Or.inl ⟨rfl, ht⟩⟩))
    | invalidDefault h =>
      obtain ⟨declared, default, type, literal, problem, hform, ht, hl, hd⟩ := h
      obtain ⟨v, hv⟩ := hform.member_key
      exact (failsAs_ofEntry_of_key hv).mpr ((failsAs_ofDocument_of_hasForm hv hform).mpr
        (Or.inr ⟨literal, hl, Or.inr ⟨type, ht, Or.inl ⟨rfl, problem, hd⟩⟩⟩))
    | overlong h => exact failsAs_fault.mpr (ofEntry_eq_fault.mpr ⟨rfl, h⟩)

/-- The field says what the entry says, and what the entry leaves out has its usual value. -/
structure IsDeclaredBy (f : Field) (raw : Json) : Prop where
  key : raw.member? "key" = some (.string f.key) ∧ f.key ≠ ""
  name : (raw.member? "name" = none ∨ raw.member? "name" = some .null) ∧ f.name = f.key ∨
    raw.member? "name" = some (.string f.name) ∧ f.name ≠ ""
  type : ∃ declared, typeNamed? declared = some f.type ∧
    (raw.member? "type" = none ∧ declared = "string" ∨
      raw.member? "type" = some (.string declared))
  async : raw.member? "async" = none ∧ f.isAsync = false ∨
    raw.member? "async" = some (.bool f.isAsync)
  default : ∃ default, GivesDefault raw default ∧ literal? default = .ok f.default
  value : ∃ v, f.defaultValue = .ok v

theorem documentName_eq_ok {v : Option Json} :
    documentName aggregate position key v = .ok name ↔
      (v = none ∨ v = some .null) ∧ name = key ∨ v = some (.string name) ∧ name ≠ "" := by
  unfold documentName
  split
  · simp [eq_comm]
  · simp [eq_comm]
  · rename_i text
    by_cases ht : text = ""
    · simp only [ht, if_true, Attempt.refuse, reduceCtorEq, Option.some.injEq, Json.string.injEq,
        or_self, false_and, false_or, false_iff, not_and, not_not]
      exact Eq.symm
    · simp only [ht, if_false, Except.ok.injEq, reduceCtorEq, Option.some.injEq, Json.string.injEq,
        or_self, false_and, false_or]
      exact ⟨fun h => ⟨h, h ▸ ht⟩, And.left⟩
  · rename_i hnull htext
    simp only [Attempt.refuse, reduceCtorEq, Option.some.injEq, false_or, false_iff, not_or, not_and]
    exact ⟨fun h => absurd h hnull, fun h => absurd h (htext name)⟩

theorem documentAsync_eq_ok {v : Option Json} {isAsync : Bool} :
    documentAsync aggregate name v = .ok isAsync ↔
      v = none ∧ isAsync = false ∨ v = some (.bool isAsync) := by
  unfold documentAsync
  split
  · simp [eq_comm]
  · simp
  · rename_i hbool
    simp only [Attempt.refuse, reduceCtorEq, Option.some.injEq, false_and, false_or, false_iff]
    exact hbool isAsync

theorem documentDefault_eq_ok {raw : Json} {literal : Option Text} :
    documentDefault aggregate name (raw.member? "default") = .ok literal ↔
      ∃ default, GivesDefault raw default ∧ literal? default = .ok literal := by
  constructor
  · intro h
    rcases gives_or_malformed aggregate name raw with ⟨default, hd⟩ | hd
    · rw [documentDefault_of_gives hd, Attempt.ofFaults_eq_ok] at h
      exact ⟨default, hd, h⟩
    · rw [h] at hd
      exact absurd hd not_failsAs_ok
  · rintro ⟨default, hd, hl⟩
    rw [documentDefault_of_gives hd, Attempt.ofFaults_eq_ok]
    exact hl

theorem declare_eq_ok_iff {resolved : Option PrefType} {label : Text} {literal : Option Text}
    {isAsync : Bool} {f : Field} :
    declare aggregate name key (.ok resolved) (.ok label) literal isAsync = .ok f ↔
      ∃ type v, resolved = some type ∧ type.defaultValue literal = .ok v ∧
        f = ⟨name, key, type, literal, isAsync⟩ := by
  cases resolved with
  | none => simp [declare, Attempt.refuse]
  | some type =>
    simp only [declare, Option.some.injEq]
    cases hd : type.defaultValue literal with
    | ok v => simp [Attempt.mapRefusal, hd, eq_comm]
    | error e => cases e <;> simp [Attempt.mapRefusal, Failure.map, hd]

theorem ofDocument_eq_ok {raw v : Json} (hkey : raw.member? "key" = some v) {f : Field} :
    ofDocument aggregate position raw v = .ok f ↔ f.IsDeclaredBy raw := by
  simp only [ofDocument, Attempt.bind_eq_ok, documentKey_eq_ok, documentName_eq_ok,
    documentType_eq_ok, documentAsync_eq_ok, documentDefault_eq_ok, declare_eq_ok_iff]
  constructor
  · rintro ⟨key, ⟨rfl, hne⟩, name, hname, declared, htype, isAsync, hasync, literal, hdefault, type,
      v, ht, hv, rfl⟩
    exact ⟨⟨hkey, hne⟩, hname, ⟨declared, ht, htype⟩, hasync, hdefault, ⟨v, hv⟩⟩
  · intro h
    obtain ⟨declared, ht, htype⟩ := h.type
    obtain ⟨value, hvalue⟩ := h.value
    exact ⟨f.key, ⟨Option.some.inj (hkey.symm.trans h.key.1), h.key.2⟩, f.name, h.name, declared,
      htype, f.isAsync, h.async, f.default, h.default, f.type, value, ht, hvalue, rfl⟩

theorem ofEntry_eq_ok {raw : Json} {fields : List Field} :
    ofEntry aggregate position raw = .ok fields ↔
      IsKeyless raw ∧ fields = [] ∨ ∃ f, f.IsDeclaredBy raw ∧ fields = [f] := by
  cases hkey : raw.member? "key" with
  | none =>
    have hnot : ¬ ∃ f : Field, f.IsDeclaredBy raw ∧ fields = [f] := by
      rintro ⟨f, hf, -⟩
      rw [hf.key.1] at hkey
      cases hkey
    cases raw with
    | object members => simp [ofEntry, hkey, IsKeyless, hnot, eq_comm]
    | _ => simp [ofEntry, Attempt.refuse, IsKeyless, hnot]
  | some v =>
    have hnot : ¬ IsKeyless raw := by
      rintro ⟨-, hnone⟩
      rw [hkey] at hnone
      cases hnone
    simp only [ofEntry_of_key hkey, Attempt.bind_eq_ok, ofDocument_eq_ok hkey, Except.ok.injEq, hnot,
      false_and, false_or]
    constructor
    · rintro ⟨f, hf, rfl⟩
      exact ⟨f, hf, rfl⟩
    · rintro ⟨f, hf, rfl⟩
      exact ⟨f, hf, rfl⟩

theorem isFieldEntry_iff {raw : Json} : IsFieldEntry raw ↔ ∃ f : Field, f.IsDeclaredBy raw := by
  constructor
  · rintro ⟨declared, default, type, literal, value, hform, ht, hl, hd⟩
    obtain ⟨v, hv⟩ := hform.member_key
    obtain ⟨key, name, isAsync, hread⟩ :
        ∃ key name isAsync, ofDocument "" 0 raw v =
          Attempt.ofFaults (literal? default) >>= fun literal =>
            declare "" name key (.ok (typeNamed? declared)) (.ok declared) literal isAsync :=
      ofDocument_of_hasForm hv hform
    have hok : ofDocument "" 0 raw v = .ok ⟨name, key, type, literal, isAsync⟩ := by
      rw [hread, hl]
      exact declare_eq_ok_iff.mpr ⟨type, value, by rw [ht], hd, rfl⟩
    exact ⟨_, (ofDocument_eq_ok hv).mp hok⟩
  · rintro ⟨f, hf⟩
    obtain ⟨declared, ht, htype⟩ := hf.type
    obtain ⟨default, hdefault, hl⟩ := hf.default
    obtain ⟨value, hvalue⟩ := hf.value
    have hname : raw.member? "name" = none ∨ raw.member? "name" = some .null ∨
        ∃ text, raw.member? "name" = some (.string text) ∧ text ≠ "" := by
      rcases hf.name with ⟨h | h, -⟩ | h
      · exact Or.inl h
      · exact Or.inr (Or.inl h)
      · exact Or.inr (Or.inr ⟨f.name, h⟩)
    have hasync : raw.member? "async" = none ∨ ∃ b, raw.member? "async" = some (.bool b) :=
      hf.async.imp And.left fun h => ⟨f.isAsync, h⟩
    exact ⟨declared, default, f.type, f.default, value,
      ⟨⟨⟨f.key, hf.key⟩, hname, htype, hasync⟩, hdefault⟩, ht, hl, hvalue⟩

/-- An entry that reading gets past. -/
def IsSound (raw : Json) : Prop :=
  IsKeyless raw ∨ IsFieldEntry raw

theorem ofEntry_ok_iff {raw : Json} :
    (∃ fields, ofEntry aggregate position raw = .ok fields) ↔ IsSound raw := by
  simp only [ofEntry_eq_ok, IsSound, isFieldEntry_iff]
  constructor
  · rintro ⟨fields, ⟨h, -⟩ | ⟨f, h, -⟩⟩
    · exact Or.inl h
    · exact Or.inr ⟨f, h⟩
  · rintro (h | ⟨f, h⟩)
    · exact ⟨[], Or.inl ⟨h, rfl⟩⟩
    · exact ⟨[f], Or.inr ⟨f, h, rfl⟩⟩

def isKeyed (raw : Json) : Bool :=
  (raw.member? "key").isSome

/-- The fields are those of the entries with a key, in the order of these, and the other entries are
objects. -/
structure AreDeclaredBy (fields : List Field) (raws : List Json) : Prop where
  objects : ∀ raw ∈ raws, ∃ members, raw = .object members
  fields : List.Forall₂ IsDeclaredBy fields (raws.filter isKeyed)

theorem collect_ofEntry_eq_ok {raws : List Json} {fields : List Field} :
    Attempt.collect (fun e => ofEntry aggregate e.2 e.1) (raws.zipIdx position) = .ok fields ↔
      AreDeclaredBy fields raws := by
  -- The position only reaches the messages, so that the rest of the list may begin anywhere.
  induction raws generalizing position fields with
  | nil =>
    constructor
    · intro h
      cases h
      exact ⟨by simp, .nil⟩
    · rintro ⟨-, h⟩
      cases h
      rfl
  | cons raw raws ih =>
    rw [List.zipIdx_cons, Attempt.collect_cons_eq_ok]
    simp only [ofEntry_eq_ok, ih]
    constructor
    · rintro ⟨found, rest, ⟨⟨hobject, hnone⟩, rfl⟩ | ⟨f, hf, rfl⟩, ⟨hobjects, hrest⟩, rfl⟩
      · refine ⟨List.forall_mem_cons.mpr ⟨hobject, hobjects⟩, ?_⟩
        rw [List.filter_cons_of_neg (by simp [isKeyed, hnone])]
        exact hrest
      · refine ⟨List.forall_mem_cons.mpr ⟨isObject_of_member hf.key.1, hobjects⟩, ?_⟩
        rw [List.filter_cons_of_pos (by simp [isKeyed, hf.key.1])]
        exact .cons hf hrest
    · rintro ⟨hobjects, hfields⟩
      obtain ⟨hobject, hobjects⟩ := List.forall_mem_cons.mp hobjects
      cases hkey : raw.member? "key" with
      | none =>
        rw [List.filter_cons_of_neg (by simp [isKeyed, hkey])] at hfields
        exact ⟨[], fields, Or.inl ⟨⟨hobject, hkey⟩, rfl⟩, ⟨hobjects, hfields⟩, rfl⟩
      | some v =>
        rw [List.filter_cons_of_pos (by simp [isKeyed, hkey])] at hfields
        cases hfields with
        | cons hf hrest => exact ⟨[_], _, Or.inr ⟨_, hf, rfl⟩, ⟨hobjects, hrest⟩, rfl⟩

theorem ofDocuments_eq_ok {raws : List Json} {fields : List Field} :
    ofDocuments aggregate raws = .ok fields ↔ AreDeclaredBy fields raws :=
  collect_ofEntry_eq_ok

theorem AreDeclaredBy.exists_entry {fields : List Field} {raws : List Json}
    (h : AreDeclaredBy fields raws) {f : Field} (hf : f ∈ fields) : ∃ raw, f.IsDeclaredBy raw := by
  have hread : ofDocuments "" raws = .ok fields := ofDocuments_eq_ok.mpr h
  obtain ⟨x, -, found, hfound, hf⟩ := Attempt.mem_collect hread hf
  rcases ofEntry_eq_ok.mp hfound with ⟨-, rfl⟩ | ⟨f', hf', rfl⟩
  · cases hf
  · obtain rfl := List.mem_singleton.mp hf
    exact ⟨x.1, hf'⟩

theorem AreDeclaredBy.eq_nil_iff {fields : List Field} {raws : List Json}
    (h : AreDeclaredBy fields raws) : fields = [] ↔ ∀ raw ∈ raws, raw.member? "key" = none := by
  have hlength : fields.length = (raws.filter isKeyed).length := h.fields.length_eq
  rw [← List.length_eq_zero_iff, hlength, List.length_eq_zero_iff, List.filter_eq_nil_iff]
  simp only [isKeyed, Bool.not_eq_true, Option.isSome_eq_false_iff, Option.isNone_iff_eq_none]

theorem ofDocuments_ok_iff {raws : List Json} :
    (∃ fields, ofDocuments aggregate raws = .ok fields) ↔ ∀ raw ∈ raws, IsSound raw := by
  constructor
  · rintro ⟨fields, h⟩ raw hraw
    obtain ⟨n, hn⟩ := List.getElem?_of_mem hraw
    have hmem : (raw, n) ∈ raws.zipIdx := List.mem_zipIdx_iff_getElem?.mpr hn
    exact ofEntry_ok_iff.mp (Attempt.ok_of_mem_collect h hmem)
  · intro h
    apply Attempt.collect_eq_ok_of_forall
    rintro ⟨raw, n⟩ hraw
    exact ofEntry_ok_iff.mpr (h raw (List.fst_mem_of_mem_zipIdx hraw))

/-- The first entry that reading does not get past is as `P` says. -/
def FirstBad (raws : List Json) (P : Json → Prop) : Prop :=
  ∃ n raw, raws[n]? = some raw ∧ (∀ earlier ∈ raws.take n, IsSound earlier) ∧ P raw

theorem failsAs_ofDocuments {raws : List Json} {c : FailureClass} :
    FailsAs (ofDocuments aggregate raws) c ↔ FirstBad raws (EntryFails · c) := by
  constructor
  · rintro ⟨e, he, hc⟩
    obtain ⟨n, ⟨raw, m⟩, found, hn, hfound, hraw⟩ := Attempt.collect_eq_error.mp he
    rw [take_zipIdx] at hfound
    have hn : raws[n]? = some raw := by
      rw [List.getElem?_zipIdx] at hn
      obtain ⟨_, hget, hpair⟩ := Option.map_eq_some_iff.mp hn
      cases hpair
      exact hget
    exact ⟨n, raw, hn, ofDocuments_ok_iff.mp ⟨found, hfound⟩, failsAs_ofEntry.mp ⟨e, hraw, hc⟩⟩
  · rintro ⟨n, raw, hn, hsound, hraw⟩
    obtain ⟨found, hfound⟩ := ofDocuments_ok_iff.mpr hsound
    obtain ⟨e, he, hc⟩ : FailsAs (ofEntry aggregate n raw) c := failsAs_ofEntry.mpr hraw
    refine ⟨e, Attempt.collect_eq_error.mpr ⟨n, (raw, n), found, ?_, ?_, he⟩, hc⟩
    · simp [List.getElem?_zipIdx, hn]
    · rw [take_zipIdx]
      exact hfound

end Field

end PrefAccessor
