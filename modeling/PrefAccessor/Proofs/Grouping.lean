import PrefAccessor.Proofs.ObjectNames

/-!
# Groups by a key

Grouping goes through a list once and puts each member behind those of its key. What results is said
apart from this: the keys as they first occur, and under each of them all members that have it. The
groups of two or more are then those keys that more than one member has.
-/

namespace PrefAccessor

set_option autoImplicit false

universe u v

theorem distinct_append_singleton {κ : Type u} [DecidableEq κ] (l : List κ) (a : κ) :
    distinct (l ++ [a]) = if a ∈ l then distinct l else distinct l ++ [a] := by
  induction l with
  | nil => rfl
  | cons b l ih =>
    rw [List.cons_append, distinct, ih, distinct]
    by_cases hb : a = b
    · subst hb
      by_cases hl : a ∈ l
      · simp [hl]
      · simp [hl, List.filter_append]
    · by_cases hl : a ∈ l
      · simp [hl]
      · simp [hl, hb, List.filter_append]

namespace Entries

variable {α : Type u} {β : Type v} [DecidableEq α]

theorem keys_put_of_mem {m : Entries α β} {a : α} (h : a ∈ keys m) (b : β) :
    keys (put m a b) = keys m := by
  induction m with
  | nil => cases h
  | cons e m ih =>
    obtain ⟨j, v⟩ := e
    by_cases hj : j = a
    · simp [put, hj, keys]
    · have hm : a ∈ keys m := (List.mem_cons.mp h).resolve_left (Ne.symm hj)
      rw [put, if_neg hj]
      exact congrArg (j :: ·) (ih hm)

theorem keys_put_of_not_mem {m : Entries α β} {a : α} (h : a ∉ keys m) (b : β) :
    keys (put m a b) = keys m ++ [a] := by
  rw [put_of_not_mem h, keys, List.map_append]
  rfl

/-- One more key at the end stands there unless it has come before. -/
theorem keys_put_eq_distinct {m : Entries α β} {l : List α} (h : keys m = distinct l) (a : α) (b : β) :
    keys (put m a b) = distinct (l ++ [a]) := by
  have hmem : a ∈ keys m ↔ a ∈ l := by rw [h, mem_distinct]
  rw [distinct_append_singleton, ← h]
  by_cases ha : a ∈ l
  · rw [if_pos ha, keys_put_of_mem (hmem.mpr ha)]
  · rw [if_neg ha, keys_put_of_not_mem fun hk => ha (hmem.mp hk)]

/-- Each key stands where it first occurs. -/
theorem keys_ofList (l : List (α × β)) : keys (ofList l) = distinct (l.map Prod.fst) := by
  induction l using List.reverseRecOn with
  | nil => rfl
  | append_singleton l e ih =>
    rw [ofList_append_singleton, List.map_append]
    exact keys_put_eq_distinct ih e.1 e.2

theorem eq_map_keys {m : Entries α β} (h : (keys m).Nodup) (b : β) :
    m = (keys m).map fun k => (k, (find? m k).getD b) := by
  refine (List.map_id m).symm.trans ?_
  rw [keys, List.map_map]
  refine List.map_congr_left fun e he => ?_
  have hfind : find? m e.1 = some e.2 := find?_of_mem h he
  simp [hfind]

theorem keys_filter {m : Entries α β} (h : (keys m).Nodup) (p : β → Bool) :
    keys (m.filter fun e => p e.2) = (keys m).filter fun k => (find? m k).any p := by
  rw [keys, keys, List.filter_map]
  congr 1
  apply List.filter_congr
  intro e he
  rw [Function.comp_apply, find?_of_mem h he]
  rfl

end Entries

section

variable {α : Type u} {κ : Type v} [DecidableEq κ]

theorem groupOn_append_singleton (key : α → κ) (l : List α) (a : α) :
    groupOn key (l ++ [a]) =
      Entries.put (groupOn key l) (key a) ((Entries.find? (groupOn key l) (key a)).getD [] ++ [a]) :=
  List.foldl_append

theorem keys_groupOn (key : α → κ) (l : List α) :
    Entries.keys (groupOn key l) = distinct (l.map key) := by
  induction l using List.reverseRecOn with
  | nil => rfl
  | append_singleton l a ih =>
    rw [groupOn_append_singleton, List.map_append]
    exact Entries.keys_put_eq_distinct ih (key a) _

theorem find?_groupOn (key : α → κ) (l : List α) (k : κ) :
    (Entries.find? (groupOn key l) k).getD [] = l.filter fun a => decide (key a = k) := by
  induction l using List.reverseRecOn with
  | nil => rfl
  | append_singleton l a ih =>
    rw [groupOn_append_singleton, List.filter_append]
    by_cases hk : key a = k
    · subst hk
      simp [ih]
    · rw [Entries.find?_put_of_ne _ _ (Ne.symm hk), ih]
      simp [hk]

/-- The groups stand as their keys first occur, and hold their members in the order of the list. -/
theorem groupOn_eq (key : α → κ) (l : List α) :
    groupOn key l = (distinct (l.map key)).map fun k => (k, l.filter fun a => decide (key a = k)) := by
  have hnodup : (Entries.keys (groupOn key l)).Nodup := by
    rw [keys_groupOn]
    exact nodup_distinct _
  refine (Entries.eq_map_keys hnodup []).trans ?_
  rw [keys_groupOn]
  exact List.map_congr_left fun k _ => congrArg (Prod.mk k) (find?_groupOn key l k)

theorem mem_groupOn {key : α → κ} {l : List α} {k : κ} {g : List α} :
    (k, g) ∈ groupOn key l ↔ (∃ a ∈ l, key a = k) ∧ g = l.filter fun a => decide (key a = k) := by
  simp only [groupOn_eq, List.mem_map, mem_distinct, Prod.mk.injEq]
  constructor
  · rintro ⟨x, ⟨a, ha, rfl⟩, rfl, rfl⟩
    exact ⟨⟨a, ha, rfl⟩, rfl⟩
  · rintro ⟨⟨a, ha, rfl⟩, rfl⟩
    exact ⟨key a, ⟨a, ha, rfl⟩, rfl, rfl⟩

theorem mem_sharedGroups {key : α → κ} {l : List α} {k : κ} {g : List α} :
    (k, g) ∈ sharedGroups key l ↔ g = (l.filter fun a => decide (key a = k)) ∧ 1 < g.length := by
  simp only [sharedGroups, List.mem_filter, mem_groupOn, decide_eq_true_eq]
  constructor
  · rintro ⟨⟨_, hg⟩, hlen⟩
    exact ⟨hg, hlen⟩
  · rintro ⟨hg, hlen⟩
    obtain ⟨a, ha⟩ := List.exists_mem_of_length_pos (Nat.lt_trans Nat.zero_lt_one hlen)
    rw [hg, List.mem_filter] at ha
    exact ⟨⟨⟨a, ha.1, by simpa using ha.2⟩, hg⟩, hlen⟩

/-- No two groups have one key. -/
theorem nodup_keys_sharedGroups (key : α → κ) (l : List α) :
    (Entries.keys (sharedGroups key l)).Nodup := by
  have hsub : (Entries.keys (sharedGroups key l)).Sublist (Entries.keys (groupOn key l)) :=
    List.filter_sublist.map Prod.fst
  rw [keys_groupOn] at hsub
  exact hsub.nodup (nodup_distinct _)

end

end PrefAccessor
