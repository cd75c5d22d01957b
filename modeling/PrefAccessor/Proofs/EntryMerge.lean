import Mathlib.Data.List.Induction
import Mathlib.Tactic.Tauto
import PrefAccessor.Entries

/-!
# One finite map over another

Storing one entry after another is the same as storing the map that these entries make up. The order
of the keys makes this more than a fact about lookups: an entry keeps the place of its key. Under each
key the last entry stored counts.
-/

namespace PrefAccessor.Entries

set_option autoImplicit false

universe u v

variable {α : Type u} {β : Type v} [DecidableEq α]

theorem mem_keys_put {m : Entries α β} {a k : α} {b : β} :
    k ∈ keys (put m a b) ↔ k ∈ keys m ∨ k = a := by
  induction m with
  | nil => simp [put, keys]
  | cons e m ih =>
    obtain ⟨j, v⟩ := e
    simp only [keys, List.map_cons, List.mem_cons] at ih ⊢
    by_cases hj : j = a
    · subst hj
      simp only [put, if_true, List.map_cons, List.mem_cons]
      tauto
    · simp only [put, hj, if_false, List.map_cons, List.mem_cons, ih]
      tauto

theorem nodup_keys_put {m : Entries α β} (h : (keys m).Nodup) (a : α) (b : β) :
    (keys (put m a b)).Nodup := by
  induction m with
  | nil => simp [put, keys]
  | cons e m ih =>
    obtain ⟨j, v⟩ := e
    have hm := List.nodup_cons.mp h
    by_cases hj : j = a
    · simpa only [put, hj, if_true, keys, List.map_cons] using h
    · simp only [put, hj, if_false]
      refine List.nodup_cons.mpr ⟨?_, ih hm.2⟩
      intro hmem
      rcases mem_keys_put.mp hmem with hmem | rfl
      · exact hm.1 hmem
      · exact hj rfl

theorem put_put_self (m : Entries α β) (a : α) (b c : β) : put (put m a b) a c = put m a c := by
  induction m with
  | nil => simp [put]
  | cons e m ih =>
    obtain ⟨j, v⟩ := e
    by_cases hj : j = a <;> simp [put, hj, ih]

/-- Storing under a known key does not depend on what is stored under other keys. -/
theorem put_comm {m : Entries α β} {a k : α} (hk : k ∈ keys m) (hne : a ≠ k) (b c : β) :
    put (put m a b) k c = put (put m k c) a b := by
  induction m with
  | nil => cases hk
  | cons e m ih =>
    obtain ⟨j, v⟩ := e
    by_cases hj : j = k
    · subst hj
      simp [put, hne.symm]
    · have hk' : k ∈ keys m := (List.mem_cons.mp hk).resolve_left fun h => hj h.symm
      by_cases hja : j = a
      · subst hja
        simp [put, hne]
      · simp [put, hj, hja, ih hk']

theorem put_merge {m : Entries α β} {k : α} (hk : k ∈ keys m) (overrides : Entries α β)
    (hnot : k ∉ keys overrides) (c : β) :
    put (merge m overrides) k c = merge (put m k c) overrides := by
  induction overrides generalizing m with
  | nil => rfl
  | cons e overrides ih =>
    obtain ⟨j, v⟩ := e
    simp only [keys, List.map_cons, List.mem_cons, not_or] at hnot
    have hput : put (put m j v) k c = put (put m k c) j v := put_comm hk (Ne.symm hnot.1) v c
    have hk' : k ∈ keys (put m j v) := mem_keys_put.mpr (Or.inl hk)
    exact (ih hk' hnot.2).trans (congrArg (merge · overrides) hput)

theorem merge_put (m : Entries α β) {overrides : Entries α β} (h : (keys overrides).Nodup) (k : α)
    (c : β) : merge m (put overrides k c) = put (merge m overrides) k c := by
  induction overrides generalizing m with
  | nil => rfl
  | cons e overrides ih =>
    obtain ⟨j, v⟩ := e
    have ho := List.nodup_cons.mp h
    by_cases hj : j = k
    · subst hj
      simp only [put, if_true]
      change merge (put m j c) overrides = put (merge (put m j v) overrides) j c
      rw [put_merge (mem_keys_put.mpr (Or.inr rfl)) _ ho.1, put_put_self]
    · simp only [put, hj, if_false]
      exact ih (put m j v) ho.2

theorem merge_append (m l₁ l₂ : Entries α β) : merge m (l₁ ++ l₂) = merge (merge m l₁) l₂ :=
  List.foldl_append

theorem nodup_keys_merge {m : Entries α β} (h : (keys m).Nodup) (l : List (α × β)) :
    (keys (merge m l)).Nodup := by
  induction l generalizing m with
  | nil => exact h
  | cons e l ih => exact ih (nodup_keys_put h e.1 e.2)

theorem ofList_append_singleton (l : List (α × β)) (e : α × β) :
    ofList (l ++ [e]) = put (ofList l) e.1 e.2 :=
  merge_append [] l [e]

/-- A list of writes counts as the map that they make up. -/
theorem merge_ofList (m : Entries α β) (l : List (α × β)) : merge m (ofList l) = merge m l := by
  induction l using List.reverseRecOn with
  | nil => rfl
  | append_singleton l e ih =>
    have hnodup : (keys (ofList l)).Nodup := nodup_keys_merge (m := []) List.nodup_nil l
    rw [ofList_append_singleton, merge_put m hnodup, ih, merge_append]
    rfl

theorem find?_append (m l : Entries α β) (k : α) : find? (m ++ l) k = (find? m k).or (find? l k) := by
  induction m with
  | nil => rfl
  | cons e m ih =>
    obtain ⟨j, v⟩ := e
    by_cases hj : j = k <;> simp [find?, hj, ih]

theorem find?_merge (m : Entries α β) (l : List (α × β)) (k : α) :
    find? (merge m l) k = (find? l.reverse k).or (find? m k) := by
  induction l generalizing m with
  | nil => rfl
  | cons e l ih =>
    obtain ⟨j, v⟩ := e
    have hstep : find? (merge m ((j, v) :: l)) k = (find? l.reverse k).or (find? (put m j v) k) :=
      ih (put m j v)
    have hput : find? (put m j v) k = (find? [(j, v)] k).or (find? m k) := by
      by_cases hj : j = k
      · subst hj
        simp [find?]
      · rw [find?_put_of_ne m v (Ne.symm hj)]
        simp [find?, hj]
    rw [hstep, hput, List.reverse_cons, find?_append, Option.or_assoc]

theorem find?_map {γ : Type u} (f : γ → α × β) (l : List γ) (k : α) :
    find? (l.map f) k = (l.find? fun c => decide ((f c).1 = k)).map fun c => (f c).2 := by
  induction l with
  | nil => rfl
  | cons c l ih =>
    by_cases hc : (f c).1 = k
    · simp [find?, hc]
    · simp [find?, hc, ih]

theorem find?_ofList (l : List (α × β)) (k : α) : find? (ofList l) k = find? l.reverse k := by
  rw [ofList, find?_merge]
  exact Option.or_none

theorem ofList_flatMap {γ : Type u} (f : γ → List (α × β)) (l : List γ) :
    ofList (l.flatMap fun c => ofList (f c)) = ofList (l.flatMap f) := by
  have hmerge (m : Entries α β) :
      merge m (l.flatMap fun c => ofList (f c)) = merge m (l.flatMap f) := by
    induction l generalizing m with
    | nil => rfl
    | cons c l ih =>
      rw [List.flatMap_cons, List.flatMap_cons, merge_append, merge_append, merge_ofList, ih]
  exact hmerge []

theorem find?_flatMap {γ : Type u} (f : γ → List (α × β)) (l : List γ) (k : α) :
    find? (l.flatMap f) k = l.findSome? fun c => find? (f c) k := by
  induction l with
  | nil => rfl
  | cons c l ih =>
    rw [List.flatMap_cons, find?_append, ih, List.findSome?_cons]
    cases find? (f c) k <;> rfl

theorem find?_map_values {γ : Type v} (g : β → γ) (m : Entries α β) (k : α) :
    find? (m.map fun e => (e.1, g e.2)) k = (find? m k).map g := by
  induction m with
  | nil => rfl
  | cons e m ih =>
    obtain ⟨j, v⟩ := e
    by_cases hj : j = k <;> simp [find?, hj, ih]

theorem ofList_map_values {γ : Type v} (g : β → γ) (l : List (α × β)) :
    ofList (l.map fun e => (e.1, g e.2)) = (ofList l).map fun e => (e.1, g e.2) := by
  have hput (m : Entries α β) (k : α) (b : β) :
      put (m.map fun e => (e.1, g e.2)) k (g b) = (put m k b).map fun e => (e.1, g e.2) := by
    induction m with
    | nil => rfl
    | cons e m ih =>
      obtain ⟨j, v⟩ := e
      by_cases hj : j = k <;> simp [put, hj, ih]
  have hmerge (m : Entries α β) :
      merge (m.map fun e => (e.1, g e.2)) (l.map fun e => (e.1, g e.2)) =
        (merge m l).map fun e => (e.1, g e.2) := by
    induction l generalizing m with
    | nil => rfl
    | cons e l ih => exact (congrArg (merge · _) (hput m e.1 e.2)).trans (ih (put m e.1 e.2))
  exact hmerge []

end PrefAccessor.Entries
