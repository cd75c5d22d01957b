import PrefAccessor.Proofs.LetterCase
import PrefAccessor.Proofs.ObjectNames
import PrefAccessor.Registry

/-!
# The states of a registry

Every state that registering and unregistering lead to is sound: each alias is written in the form
in which names are looked up, and stands for another name, which is that of a registered language. So
a name has a generator exactly if it is supported, and a refused registration has changed nothing,
`run_kind_total`. What does not hold is that an alias always leads to its language: a language that is
registered later under the name of an alias hides it, `run_alias_resolves_iff`.
-/

namespace PrefAccessor

set_option autoImplicit false

universe u v

namespace Entries

variable {α : Type u} {β : Type v} [DecidableEq α]

theorem find?_filter_value {m : Entries α β} (h : (keys m).Nodup) (p : β → Bool) (a : α) :
    find? (m.filter fun e => p e.2) a = (find? m a).filter p := by
  induction m with
  | nil => rfl
  | cons e m ih =>
    obtain ⟨k, v⟩ := e
    have hm := List.nodup_cons.mp h
    by_cases hk : k = a
    · subst hk
      have hnone : find? m k = none := find?_eq_none.mpr hm.1
      by_cases hp : p v = true
      · simp [find?, hp, Option.filter]
      · simp [find?, hp, ih hm.2, hnone, Option.filter]
    · by_cases hp : p v = true
      · simp [find?, hp, hk, ih hm.2]
      · simp [find?, hp, hk, ih hm.2]

theorem contains_put (m : Entries α β) (a c : α) (b : β) :
    (put m a b).contains c = true ↔ c = a ∨ m.contains c = true := by
  by_cases hc : c = a
  · subst hc
    simp [contains]
  · simp [contains, find?_put_of_ne m b hc, hc]

theorem contains_erase (m : Entries α β) (a c : α) :
    (erase m a).contains c = true ↔ c ≠ a ∧ m.contains c = true := by
  by_cases hc : c = a
  · subst hc
    simp [contains]
  · simp [contains, find?_erase_of_ne m hc, hc]

end Entries

namespace Registry

theorem keyOf_keyOf (name : Text) : keyOf (keyOf name) = keyOf name :=
  Text.lowercase_lowercase name

inductive Change where
  /-- `none` stands for what is no generator. -/
  | register (language : Text) (kind : Option GeneratorKind) (names : List Text)
      (replace : Bool)
  | unregister (name : Text)
  deriving DecidableEq

/-- The registry after a change, be it refused or not. -/
def after (r : Registry) : Change → Registry
  | .register language kind names replace => (r.register language kind names replace).1
  | .unregister name => r.unregister name

/-- The registry after a sequence of changes that begins without languages. -/
def run (changes : List Change) : Registry :=
  changes.foldl after empty

/-- A name that cannot become an alias of a language: it is a language itself, or it is taken. -/
def Conflicts (r : Registry) (language : Text) (replace : Bool) (name : Text) : Prop :=
  keyOf name ≠ keyOf language ∧
    (r.generators.contains (keyOf name) = true ∨
      replace = false ∧ ∃ target, Entries.find? r.aliases (keyOf name) = some target ∧
        target ≠ keyOf language)

theorem aliasProblem?_ne_none {r : Registry} {language name : Text} {replace : Bool} :
    r.aliasProblem? (keyOf language) replace name ≠ none ↔ r.Conflicts language replace name := by
  unfold aliasProblem? Conflicts
  by_cases hself : keyOf name = keyOf language
  · simp [hself]
  · by_cases hlanguage : r.generators.contains (keyOf name) = true
    · simp [hself, hlanguage]
    · cases hfind : Entries.find? r.aliases (keyOf name) with
      | none => simp [hself, hlanguage]
      | some target => cases replace <;> simp [hself, hlanguage]

/-- What a registration leaves: nothing has changed, or the language and all its aliases are
entered. -/
theorem register_cases (r : Registry) (language : Text) (kind : Option GeneratorKind)
    (names : List Text) (replace : Bool) :
    (r.register language kind names replace).1 = r ∨
      ∃ k, kind = some k ∧
        r.register language kind names replace = (r.enter (keyOf language) k names, none) := by
  cases kind with
  | none => exact Or.inl rfl
  | some k =>
    unfold register
    simp only
    split
    · exact Or.inl rfl
    · split
      · exact Or.inl rfl
      · exact Or.inr ⟨k, rfl, rfl⟩

theorem register_eq_self {r : Registry} {language : Text} {kind : Option GeneratorKind}
    {names : List Text} {replace : Bool}
    (h : (r.register language kind names replace).2 ≠ none) :
    (r.register language kind names replace).1 = r := by
  rcases r.register_cases language kind names replace with heq | ⟨k, -, heq⟩
  · exact heq
  · rw [heq] at h
    exact absurd rfl h

theorem register_of_registered {r : Registry} {language : Text} {kind : Option GeneratorKind}
    (hkind : kind ≠ none) (hlanguage : r.generators.contains (keyOf language) = true)
    (names : List Text) : r.register language kind names false = (r, none) := by
  cases kind with
  | none => exact absurd rfl hkind
  | some k => simp [register, hlanguage]

/-- A registration is refused for what is no generator, and for a conflict anywhere among its
names. -/
theorem register_refused_iff {r : Registry} {language : Text} {kind : Option GeneratorKind}
    {names : List Text} {replace : Bool} :
    (r.register language kind names replace).2 ≠ none ↔
      kind = none ∨ ¬ (r.generators.contains (keyOf language) = true ∧ replace = false) ∧
        ∃ name ∈ names, r.Conflicts language replace name := by
  cases kind with
  | none => simp [register]
  | some k =>
    by_cases hskip : r.generators.contains (keyOf language) = true ∧ replace = false
    · simp [register, hskip]
    · have hconflict : (names.findSome? (r.aliasProblem? (keyOf language) replace)) ≠ none ↔
          ∃ name ∈ names, r.Conflicts language replace name := by
        rw [Ne, List.findSome?_eq_none_iff]
        simp only [not_forall, exists_prop, ← aliasProblem?_ne_none, Ne]
      have hskip' : ¬ (r.generators.contains (keyOf language) = true ∧ (!replace) = true) := by
        simpa using hskip
      unfold register
      simp only [if_neg hskip', hskip, not_false_eq_true, true_and, reduceCtorEq, false_or,
        ← hconflict]
      cases names.findSome? (r.aliasProblem? (keyOf language) replace) <;> simp

section LookUp

variable {r : Registry} {name : Text}

theorem resolve_of_contains (h : r.generators.contains (keyOf name) = true) :
    r.resolve name = some (keyOf name) :=
  if_pos h

theorem resolve_of_not_contains (h : ¬ r.generators.contains (keyOf name) = true) :
    r.resolve name = Entries.find? r.aliases (keyOf name) :=
  if_neg h

theorem contains_unregister {language : Text} :
    (r.unregister name).generators.contains language = true ↔
      language ≠ r.removalKey name ∧ r.generators.contains language = true :=
  Entries.contains_erase _ _ _

theorem removalKey_of_contains (h : r.generators.contains (keyOf name) = true) :
    r.removalKey name = keyOf name := by
  rw [removalKey, resolve_of_contains h]
  exact ite_self _

/-- What is removed under a name is the language that it stands for, or else no language at all. -/
theorem removalKey_cases (r : Registry) (name : Text) :
    r.resolve name = some (r.removalKey name) ∨
      r.generators.contains (r.removalKey name) = false := by
  by_cases hlanguage : r.generators.contains (keyOf name) = true
  · exact Or.inl (by rw [removalKey_of_contains hlanguage, resolve_of_contains hlanguage])
  · have hnone : r.generators.contains (keyOf name) = false := Bool.eq_false_iff.mpr hlanguage
    unfold removalKey
    cases r.resolve name with
    | none => exact Or.inr hnone
    | some language =>
      by_cases hempty : language = ""
      · exact Or.inr (by simpa [hempty] using hnone)
      · exact Or.inl (by simp [hempty])

/-- A name that is supported even behind its removal: an alias whose name a language has taken, which
is the one that is removed, or an alias of the language with the empty name. -/
def Survives (r : Registry) (name : Text) : Prop :=
  ∃ target, Entries.find? r.aliases (keyOf name) = some target ∧
    (r.generators.contains (keyOf name) = true ∨ target = "")

end LookUp

structure IsSound (r : Registry) : Prop where
  distinct : (Entries.keys r.aliases).Nodup
  /-- An alias is written as names are looked up, and stands for a language of another name. -/
  target {a language : Text} (h : Entries.find? r.aliases a = some language) :
    keyOf a = a ∧ language ≠ a ∧ r.generators.contains language = true

theorem isSound_empty : empty.IsSound where
  distinct := List.nodup_nil
  target h := by cases h

section Enter

variable (language : Text)

/-- The aliases with more names for a language. -/
theorem find?_enter (r : Registry) (kind : GeneratorKind) (names : List Text) (a : Text) :
    Entries.find? (r.enter language kind names).aliases a =
      if a ≠ language ∧ a ∈ names.map keyOf then some language else Entries.find? r.aliases a := by
  obtain ⟨generators, aliases⟩ := r
  unfold enter
  simp only
  induction names generalizing aliases with
  | nil => simp
  | cons name names ih =>
    rw [List.foldl_cons, ih]
    by_cases hname : keyOf name = language
    · rw [if_pos hname]
      by_cases ha : a = language
      · simp [ha]
      · have hne : a ≠ keyOf name := fun h => ha (h.trans hname)
        simp [ha, hne]
    · rw [if_neg hname]
      by_cases ha : a = keyOf name
      · subst ha
        simp [hname]
      · simp [Entries.find?_put_of_ne aliases language ha, ha]

theorem nodup_enter {r : Registry} (h : (Entries.keys r.aliases).Nodup) (kind : GeneratorKind)
    (names : List Text) : (Entries.keys (r.enter language kind names).aliases).Nodup := by
  obtain ⟨generators, aliases⟩ := r
  unfold enter
  simp only at h ⊢
  induction names generalizing aliases with
  | nil => exact h
  | cons name names ih =>
    rw [List.foldl_cons]
    split
    · exact ih aliases h
    · exact ih _ (Entries.nodup_keys_put h _ _)

end Enter

namespace IsSound

variable {r : Registry} (hr : r.IsSound)

include hr

theorem enter (language : Text) (kind : GeneratorKind) (names : List Text) :
    (r.enter language kind names).IsSound where
  distinct := nodup_enter language hr.distinct kind names
  target {a target} h := by
    rw [find?_enter] at h
    split at h
    · rename_i ha
      cases h
      obtain ⟨name, -, rfl⟩ := List.mem_map.mp ha.2
      exact ⟨keyOf_keyOf name, Ne.symm ha.1, (Entries.contains_put _ _ _ _).mpr (Or.inl rfl)⟩
    · obtain ⟨hspelled, hne, hregistered⟩ := hr.target h
      exact ⟨hspelled, hne, (Entries.contains_put _ _ _ _).mpr (Or.inr hregistered)⟩

theorem find?_unregister (name a : Text) :
    Entries.find? (r.unregister name).aliases a =
      (Entries.find? r.aliases a).filter (· != r.removalKey name) :=
  Entries.find?_filter_value hr.distinct (· != r.removalKey name) a

theorem unregister (name : Text) : (r.unregister name).IsSound where
  distinct := hr.distinct.sublist (List.filter_sublist.map Prod.fst)
  target {a language} h := by
    rw [hr.find?_unregister, Option.filter_eq_some_iff] at h
    obtain ⟨hspelled, hne, hregistered⟩ := hr.target h.1
    exact ⟨hspelled, hne, (Entries.contains_erase _ _ _).mpr ⟨by simpa using h.2, hregistered⟩⟩

/-- One change keeps a registry sound. -/
theorem after (change : Change) : (r.after change).IsSound := by
  cases change with
  | register language kind names replace =>
    rcases r.register_cases language kind names replace with heq | ⟨k, -, heq⟩
    · rw [Registry.after, heq]
      exact hr
    · rw [Registry.after, heq]
      exact hr.enter _ k names
  | unregister name => exact hr.unregister name

theorem foldl_after (changes : List Change) : (changes.foldl Registry.after r).IsSound := by
  induction changes generalizing r with
  | nil => exact hr
  | cons change changes ih => exact ih (hr.after change)

theorem contains_of_resolve {name language : Text} (h : r.resolve name = some language) :
    r.generators.contains language = true := by
  unfold resolve at h
  split at h
  · rename_i hlanguage
    exact Option.some.inj h ▸ hlanguage
  · exact (hr.target h).2.2

theorem kind_of_resolve {name language : Text} (h : r.resolve name = some language) :
    ∃ k, r.kind name = .ok k := by
  obtain ⟨k, hk⟩ := Option.isSome_iff_exists.mp (hr.contains_of_resolve h)
  exact ⟨k, by rw [kind, h]; simp only [hk]⟩

/-- An alias that is listed for a language leads to it, unless a language has taken its name. -/
theorem resolve_of_mem_aliasesFor {language a : Text} (h : a ∈ r.aliasesFor language) :
    r.resolve a = some (keyOf language) ↔ r.generators.contains a = false := by
  obtain ⟨e, he, rfl⟩ := List.mem_map.mp (List.mem_mergeSort.mp h)
  obtain ⟨a, target⟩ := e
  obtain ⟨hmem, htarget⟩ := List.mem_filter.mp he
  obtain rfl : target = keyOf language := by simpa using htarget
  have hfind := Entries.find?_of_mem hr.distinct hmem
  obtain ⟨hspelled, hne, -⟩ := hr.target hfind
  unfold resolve
  rw [hspelled, hfind]
  cases r.generators.contains a with
  | true => simpa using hne.symm
  | false => simp

theorem resolve_unregister_of_ne {name other : Text}
    (h : ∀ language, r.resolve name = some language → r.resolve other ≠ some language) :
    (r.unregister name).resolve other = r.resolve other := by
  have hother : r.resolve other ≠ some (r.removalKey name) := by
    rcases r.removalKey_cases name with hname | hnone
    · exact h _ hname
    · intro heq
      rw [hr.contains_of_resolve heq] at hnone
      cases hnone
  by_cases hlanguage : r.generators.contains (keyOf other) = true
  · rw [resolve_of_contains hlanguage] at hother ⊢
    exact resolve_of_contains
      (contains_unregister.mpr ⟨fun heq => hother (congrArg some heq), hlanguage⟩)
  · rw [resolve_of_not_contains hlanguage] at hother ⊢
    rw [resolve_of_not_contains fun hkept => hlanguage (contains_unregister.mp hkept).2,
      hr.find?_unregister]
    cases hfind : Entries.find? r.aliases (keyOf other) with
    | none => rfl
    | some target =>
      have hne : target ≠ r.removalKey name := fun heq => hother (hfind.trans (congrArg some heq))
      simp [Option.filter, hne]

theorem isSupported_unregister (name : Text) :
    (r.unregister name).isSupported name = true ↔ r.Survives name := by
  by_cases hlanguage : r.generators.contains (keyOf name) = true
  · have hgone : ¬ (r.unregister name).generators.contains (keyOf name) = true := by
      rw [contains_unregister, removalKey_of_contains hlanguage]
      exact fun hkept => hkept.1 rfl
    rw [isSupported, resolve_of_not_contains hgone, hr.find?_unregister,
      removalKey_of_contains hlanguage]
    cases hfind : Entries.find? r.aliases (keyOf name) with
    | none => simp [Survives, hfind, Option.filter]
    | some target =>
      obtain ⟨-, hne, -⟩ := hr.target hfind
      simp [Survives, hfind, hlanguage, hne, Option.filter]
  · have hgone : ¬ (r.unregister name).generators.contains (keyOf name) = true :=
      fun hkept => hlanguage (contains_unregister.mp hkept).2
    have hresolve := resolve_of_not_contains hlanguage
    rw [isSupported, resolve_of_not_contains hgone, hr.find?_unregister, removalKey, hresolve]
    cases hfind : Entries.find? r.aliases (keyOf name) with
    | none => simp [Survives, hfind, Option.filter]
    | some target =>
      by_cases hempty : target = ""
      · -- the language with the empty name is registered, and the name is none
        have hne : target ≠ keyOf name := by
          rintro rfl
          exact hlanguage (hr.target hfind).2.2
        simp [Survives, hfind, hempty, hempty ▸ hne, Option.filter]
      · simp [Survives, hfind, hempty, hlanguage, Option.filter]

end IsSound

theorem isSound_run (changes : List Change) : (run changes).IsSound :=
  isSound_empty.foldl_after changes

/-- In every state each alias stands for a registered language, so a name has a generator exactly if
it is supported, and is refused as unknown otherwise. A registration that is refused, or that finds
its language registered, changes nothing, wherever among its names the conflict is. -/
theorem run_kind_total (changes : List Change) :
    (∀ a language, (a, language) ∈ (run changes).aliases →
      (run changes).generators.contains language = true) ∧
    (∀ name, ((run changes).isSupported name = true ↔ ∃ k, (run changes).kind name = .ok k) ∧
      ((run changes).isSupported name = false → (run changes).kind name =
        Attempt.refuse (.unknownLanguage name (run changes).languages))) ∧
    ∀ language kind names replace,
      (((run changes).register language kind names replace).2 ≠ none ↔
        kind = none ∨
          ¬ ((run changes).generators.contains (keyOf language) = true ∧ replace = false) ∧
            ∃ name ∈ names, (run changes).Conflicts language replace name) ∧
      (((run changes).register language kind names replace).2 ≠ none →
        ((run changes).register language kind names replace).1 = run changes) ∧
      (kind ≠ none → (run changes).generators.contains (keyOf language) = true →
        (run changes).register language kind names false = (run changes, none)) := by
  have hsound := isSound_run changes
  refine ⟨?_, ?_, ?_⟩
  · intro a language hmem
    exact (hsound.target (Entries.find?_of_mem hsound.distinct hmem)).2.2
  · intro name
    have hunknown : (run changes).isSupported name = false → (run changes).kind name =
        Attempt.refuse (.unknownLanguage name (run changes).languages) := by
      intro h
      rw [isSupported, Option.isSome_eq_false_iff, Option.isNone_iff_eq_none] at h
      rw [kind, h]
    refine ⟨⟨?_, ?_⟩, hunknown⟩
    · intro h
      obtain ⟨language, hlanguage⟩ := Option.isSome_iff_exists.mp h
      exact hsound.kind_of_resolve hlanguage
    · rintro ⟨k, hk⟩
      by_contra h
      rw [hunknown (Bool.eq_false_iff.mpr h)] at hk
      cases hk
  · intro language kind names replace
    exact ⟨register_refused_iff, register_eq_self, fun hkind hlanguage =>
      register_of_registered hkind hlanguage names⟩

/-- In every state an alias that is listed for a language leads to it exactly if no language has taken
its name, and a name is still supported behind its removal exactly if it survives. Names that stand
for other languages than the one that is removed stand for what they did before. -/
theorem run_alias_resolves_iff (changes : List Change) :
    (∀ language a, a ∈ (run changes).aliasesFor language →
      ((run changes).resolve a = some (keyOf language) ↔
        (run changes).generators.contains a = false)) ∧
    ∀ name,
      (((run changes).unregister name).isSupported name = false ↔ ¬ (run changes).Survives name) ∧
      ∀ other, (∀ language, (run changes).resolve name = some language →
          (run changes).resolve other ≠ some language) →
        ((run changes).unregister name).resolve other = (run changes).resolve other := by
  have hsound := isSound_run changes
  refine ⟨fun language a ha => hsound.resolve_of_mem_aliasesFor ha, fun name => ⟨?_, ?_⟩⟩
  · rw [← hsound.isSupported_unregister name, Bool.not_eq_true]
  · exact fun other hother => hsound.resolve_unregister_of_ne hother

/-- A language that is registered under the name of an alias. -/
def laterLanguage : List Change :=
  [.register "python" (some .python) ["py"] false, .register "py" (some .kotlin) [] false]

/-- The alias is still listed but leads to the later language, and its name is supported even when it
has been unregistered. So is an alias of the language with the empty name. -/
theorem later_language_hides_alias :
    ("py" : Text) ∈ (run laterLanguage).aliasesFor "python" ∧
      (run laterLanguage).resolve "py" = some ("py" : Text) ∧
      ((run laterLanguage).unregister "py").isSupported "py" = true ∧
      ((run [.register "" (some .python) ["e"] false]).unregister "e").isSupported "e" = true := by
  decide +kernel

/-- The registry that every run starts from is a state like any other. -/
theorem builtin_eq_run :
    builtin = run [.register "python" (some .python) ["py"] false,
      .register "kotlin" (some .kotlin) ["kt"] false] := by
  decide +kernel

end Registry

end PrefAccessor
