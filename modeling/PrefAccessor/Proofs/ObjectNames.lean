import PrefAccessor.Json.Reader
import PrefAccessor.Proofs.EntryMerge

/-!
# Objects name each member once

A value that is read from a text holds no object with two members of one name: a name met again
takes the newer value in the old place. Under this condition an object laid over another one gives
what it holds itself, and leaves the rest to the other.
-/

namespace PrefAccessor

set_option autoImplicit false

universe u v

namespace Entries

variable {α : Type u} {β : Type v} [DecidableEq α]

theorem mem_of_mem_put {m : Entries α β} {a : α} {b : β} {e : α × β} (h : e ∈ put m a b) :
    e ∈ m ∨ e = (a, b) := by
  induction m with
  | nil => exact Or.inr (List.mem_singleton.mp h)
  | cons d m ih =>
    obtain ⟨j, v⟩ := d
    by_cases hj : j = a
    · subst hj
      simp only [put, if_true] at h
      rcases List.mem_cons.mp h with h | h
      · exact Or.inr h
      · exact Or.inl (List.mem_cons_of_mem _ h)
    · simp only [put, hj, if_false] at h
      rcases List.mem_cons.mp h with rfl | h
      · exact Or.inl List.mem_cons_self
      · exact (ih h).imp_left (List.mem_cons_of_mem _)

theorem mem_of_find? {m : Entries α β} {a : α} {b : β} (h : find? m a = some b) : (a, b) ∈ m := by
  induction m with
  | nil => cases h
  | cons d m ih =>
    obtain ⟨j, v⟩ := d
    by_cases hj : j = a
    · subst hj
      simp only [find?, if_true, Option.some.injEq] at h
      exact h ▸ List.mem_cons_self
    · simp only [find?, hj, if_false] at h
      exact List.mem_cons_of_mem _ (ih h)

theorem find?_of_mem {m : Entries α β} (h : (keys m).Nodup) {a : α} {b : β} (hmem : (a, b) ∈ m) :
    find? m a = some b := by
  induction m with
  | nil => cases hmem
  | cons e m ih =>
    obtain ⟨k, v⟩ := e
    have hm := List.nodup_cons.mp h
    rcases List.mem_cons.mp hmem with heq | hmem
    · cases heq
      simp [find?]
    · have hne : k ≠ a := by
        rintro rfl
        exact hm.1 (List.mem_map.mpr ⟨(k, b), hmem, rfl⟩)
      rw [find?, if_neg hne]
      exact ih hm.2 hmem

theorem find?_eq_none {m : Entries α β} {a : α} : find? m a = none ↔ a ∉ keys m := by
  induction m with
  | nil => simp [find?, keys]
  | cons d m ih =>
    obtain ⟨j, v⟩ := d
    by_cases hj : j = a
    · simp [find?, keys, hj]
    · have hja : ¬ a = j := fun h => hj h.symm
      simp only [keys] at ih
      simp only [find?, keys, hj, if_false, ih, List.map_cons, List.mem_cons, hja, false_or]

/-- Where each key occurs once, the order of the entries does not count. -/
theorem find?_reverse {m : Entries α β} (h : (keys m).Nodup) (a : α) :
    find? m.reverse a = find? m a := by
  induction m with
  | nil => rfl
  | cons d m ih =>
    obtain ⟨j, v⟩ := d
    have hm := List.nodup_cons.mp h
    rw [List.reverse_cons, find?_append, ih hm.2]
    by_cases hj : j = a
    · subst hj
      have hnone : find? m j = none := find?_eq_none.mpr hm.1
      simp [find?, hnone]
    · simp [find?, hj]

theorem find?_merge_of_nodup (m : Entries α β) {overrides : Entries α β}
    (h : (keys overrides).Nodup) (a : α) :
    find? (merge m overrides) a = (find? overrides a).or (find? m a) := by
  rw [find?_merge, find?_reverse h]

theorem put_of_not_mem {m : Entries α β} {a : α} (h : a ∉ keys m) (b : β) :
    put m a b = m ++ [(a, b)] := by
  induction m with
  | nil => rfl
  | cons e m ih =>
    obtain ⟨j, v⟩ := e
    simp only [keys, List.map_cons, List.mem_cons, not_or] at h
    simp only [put, Ne.symm h.1, if_false, ih h.2, List.cons_append]

theorem merge_of_nodup {m l : Entries α β} (h : (keys (m ++ l)).Nodup) : merge m l = m ++ l := by
  induction l generalizing m with
  | nil => exact (List.append_nil m).symm
  | cons e l ih =>
    have hsplit : m ++ e :: l = m ++ [e] ++ l := by simp
    have hfresh : e.1 ∉ keys m := by
      intro hmem
      rw [keys, List.map_append, List.map_cons, List.nodup_append] at h
      exact h.2.2 _ hmem _ List.mem_cons_self rfl
    have hput : merge m (e :: l) = merge (m ++ [e]) l :=
      congrArg (merge · l) (put_of_not_mem hfresh e.2)
    rw [hput, hsplit]
    exact ih (hsplit ▸ h)

/-- Entries of distinct keys are put down one behind the other. -/
theorem ofList_of_nodup {l : List (α × β)} (h : (keys l).Nodup) : ofList l = l :=
  merge_of_nodup (m := []) h

end Entries

namespace Json

/-- Every object in the value names each of its members once. -/
inductive HasDistinctNames : Json → Prop
  | null : HasDistinctNames .null
  | bool (b : Bool) : HasDistinctNames (.bool b)
  | int (n : Int) : HasDistinctNames (.int n)
  | float (x : Number.Binary64) : HasDistinctNames (.float x)
  | string (s : Text) : HasDistinctNames (.string s)
  | array {items : List Json} (h : ∀ item ∈ items, item.HasDistinctNames) :
      HasDistinctNames (.array items)
  | object {members : List (Text × Json)} (hnames : (Entries.keys members).Nodup)
      (h : ∀ m ∈ members, m.2.HasDistinctNames) : HasDistinctNames (.object members)

theorem HasDistinctNames.nodup_keys {members : List (Text × Json)}
    (h : (Json.object members).HasDistinctNames) : (Entries.keys members).Nodup := by
  cases h with
  | object hnames _ => exact hnames

theorem HasDistinctNames.find? {members : List (Text × Json)} {name : Text} {v : Json}
    (h : (Json.object members).HasDistinctNames) (hv : Entries.find? members name = some v) :
    v.HasDistinctNames := by
  cases h with
  | object _ h => exact h _ (Entries.mem_of_find? hv)

theorem hasDistinctNames_empty : (Json.object []).HasDistinctNames :=
  .object List.nodup_nil fun _ hm => absurd hm List.not_mem_nil

theorem hasDistinctNames_put {members : List (Text × Json)} {v : Json}
    (h : (Json.object members).HasDistinctNames) (hv : v.HasDistinctNames) (name : Text) :
    (Json.object (Entries.put members name v)).HasDistinctNames := by
  cases h with
  | object hnames h =>
    refine .object (Entries.nodup_keys_put hnames name v) fun m hm => ?_
    rcases Entries.mem_of_mem_put hm with hm | rfl
    · exact h m hm
    · exact hv

theorem keyword_hasDistinctNames {word : Text} {value v : Json} {cs rest : List CodePoint}
    (hvalue : value.HasDistinctNames) (h : keyword word value cs = .ok (v, rest)) :
    v.HasDistinctNames := by
  unfold keyword at h
  split at h
  · cases h
    exact hvalue
  · cases h

theorem numberBody_hasDistinctNames {negative : Bool} {cs rest : List CodePoint} {v : Json}
    (h : numberBody negative cs = .ok (v, rest)) : v.HasDistinctNames := by
  unfold numberBody at h
  simp only at h
  split at h
  · cases h
  · split at h
    · split at h
      · cases h
      · cases h
        exact .int _
    · cases h
      exact .float _

/-- What the three readers return at one depth, given that what they hold so far is in order. -/
structure ReadersKeepNames (fuel : Nat) : Prop where
  value : ∀ {cs v rest}, readValue fuel cs = .ok (v, rest) → v.HasDistinctNames
  items : ∀ {read cs v rest}, (∀ item ∈ read, item.HasDistinctNames) →
    readItems read fuel cs = .ok (v, rest) → v.HasDistinctNames
  members : ∀ {read cs v rest}, (Json.object read).HasDistinctNames →
    readMembers read fuel cs = .ok (v, rest) → v.HasDistinctNames

namespace ReadersKeepNames

variable {fuel : Nat}

theorem value_succ (ih : ReadersKeepNames fuel) {cs rest : List CodePoint} {v : Json}
    (h : readValue (fuel + 1) cs = .ok (v, rest)) : v.HasDistinctNames := by
  unfold readValue at h
  split at h
  · cases h
  · rename_i tail
    cases hbody : stringBody [] (tail.length + 1) tail with
    | error e =>
      rw [hbody] at h
      cases h
    | ok body =>
      rw [hbody] at h
      cases h
      exact .string _
  · split at h
    · cases h
      exact hasDistinctNames_empty
    · exact ih.members hasDistinctNames_empty h
  · split at h
    · cases h
      exact .array fun _ hitem => absurd hitem List.not_mem_nil
    · exact ih.items (fun _ hitem => absurd hitem List.not_mem_nil) h
  · exact keyword_hasDistinctNames .null h
  · exact keyword_hasDistinctNames (.bool _) h
  · exact keyword_hasDistinctNames (.bool _) h
  · exact keyword_hasDistinctNames (.float _) h
  · exact keyword_hasDistinctNames (.float _) h
  · exact keyword_hasDistinctNames (.float _) h
  · exact numberBody_hasDistinctNames h
  · exact numberBody_hasDistinctNames h

theorem items_succ (ih : ReadersKeepNames fuel) {read : List Json} {cs rest : List CodePoint} {v : Json}
    (hread : ∀ item ∈ read, item.HasDistinctNames)
    (h : readItems read (fuel + 1) cs = .ok (v, rest)) : v.HasDistinctNames := by
  unfold readItems at h
  split at h
  · cases h
  · rename_i item tail hitem
    have hall : ∀ x ∈ item :: read, x.HasDistinctNames := by
      intro x hx
      rcases List.mem_cons.mp hx with rfl | hx
      · exact ih.value hitem
      · exact hread x hx
    split at h
    · exact ih.items hall h
    · cases h
      exact .array fun x hx => hall x (List.mem_reverse.mp hx)
    · cases h

theorem members_succ (ih : ReadersKeepNames fuel) {read : List (Text × Json)}
    {cs rest : List CodePoint} {v : Json} (hread : (Json.object read).HasDistinctNames)
    (h : readMembers read (fuel + 1) cs = .ok (v, rest)) : v.HasDistinctNames := by
  unfold readMembers at h
  split at h
  · split at h
    · cases h
    · split at h
      · split at h
        · cases h
        · rename_i value tail hvalue
          have hput := hasDistinctNames_put hread (ih.value hvalue)
          split at h
          · exact ih.members (hput _) h
          · cases h
            exact hput _
          · cases h
      · cases h
  · cases h

end ReadersKeepNames

theorem readersKeepNames (fuel : Nat) : ReadersKeepNames fuel := by
  induction fuel with
  | zero =>
    refine ⟨?_, ?_, ?_⟩
    · intro cs v rest h
      simp [readValue] at h
    · intro read cs v rest _ h
      simp [readItems] at h
    · intro read cs v rest _ h
      simp [readMembers] at h
  | succ fuel ih => exact ⟨ih.value_succ, ih.items_succ, ih.members_succ⟩

theorem read_hasDistinctNames {text : Text} {v : Json} (h : read text = .ok v) :
    v.HasDistinctNames := by
  unfold read at h
  simp only at h
  split at h
  · cases h
  · rename_i value rest hvalue
    split at h
    · cases h
      exact (readersKeepNames _).value hvalue
    · cases h

end Json

end PrefAccessor
