import Mathlib.Algebra.Order.BigOperators.Group.List
import Mathlib.Algebra.Order.Ring.Nat
import Mathlib.Data.List.Forall2
import PrefAccessor.Schema.Declaration

/-!
# The resolution order of a class

What a merged order keeps of the orders that it is made of: each of them is a part of it, nothing else
is in it, and nothing is in it twice. Orders that all keep to one order can be merged. So a class comes
before its bases in its resolution order, these as they are listed, and what a base puts before
something stays before it.
-/

namespace PrefAccessor

set_option autoImplicit false

section Merging

variable {α : Type} {number : α → Nat} {orders : List (List α)} {merged order : List α} {count : Nat}
  {a b : α}

/-- How a merged order comes about: it begins with the first front that is free. -/
inductive Merges (number : α → Nat) : List (List α) → List α → Prop
  | done {orders : List (List α)} (h : ∀ order ∈ orders, order = []) : Merges number orders []
  | next {orders : List (List α)} {a : α} {rest : List α}
    (ha : (orders.filterMap List.head?).find? (isFree number orders) = some a)
    (h : Merges number (orders.map (behind number a)) rest) : Merges number orders (a :: rest)

theorem merges_of_mergeOrders (h : mergeOrders number count orders = some merged) :
    Merges number orders merged := by
  induction count generalizing orders merged with
  | zero =>
    unfold mergeOrders at h
    split at h
    · rename_i hempty
      cases h
      exact .done fun order ho => List.isEmpty_iff.mp (List.all_eq_true.mp hempty order ho)
    · cases h
  | succ count ih =>
    unfold mergeOrders at h
    split at h
    · rename_i hempty
      cases h
      exact .done fun order ho => List.isEmpty_iff.mp (List.all_eq_true.mp hempty order ho)
    · split at h
      · rename_i a ha
        obtain ⟨rest, hrest, rfl⟩ := Option.map_eq_some_iff.mp h
        exact .next ha (ih hrest)
      · cases h

theorem behind_sublist (number : α → Nat) (a : α) (order : List α) :
    (behind number a order).Sublist order := by
  unfold behind
  split
  · exact List.Sublist.refl _
  · split
    · exact List.sublist_cons_self _ _
    · exact List.Sublist.refl _

theorem sublist_behind (number : α → Nat) (a : α) (order : List α) :
    (order.map number).Sublist (number a :: (behind number a order).map number) := by
  unfold behind
  split
  · exact List.nil_sublist _
  · split
    · rename_i b rest hb
      rw [List.map_cons, hb]
    · exact List.sublist_cons_self _ _

/-- A thing that is free is nowhere once it is taken from the fronts. -/
theorem number_ne_of_mem_behind (hfree : isFree number orders a = true) (horder : order ∈ orders)
    (hb : b ∈ behind number a order) : number b ≠ number a := by
  have htail : ∀ c ∈ order.tail, number c ≠ number a := fun c hc =>
    bne_iff_ne.mp (List.all_eq_true.mp (List.all_eq_true.mp hfree order horder) c hc)
  unfold behind at hb
  split at hb
  · cases hb
  · split at hb
    · exact htail b hb
    · rename_i c rest hc
      rcases List.mem_cons.mp hb with rfl | hb
      · exact hc
      · exact htail b hb

namespace Merges

/-- Each order is a part of the merged one. -/
theorem sublist (h : Merges number orders merged) (horder : order ∈ orders) :
    (order.map number).Sublist (merged.map number) := by
  induction h generalizing order with
  | done hempty => rw [hempty order horder]
  | @next orders a rest _ _ ih =>
    have hkept := ih (List.mem_map_of_mem (f := behind number a) horder)
    exact (sublist_behind number a order).trans (hkept.cons_cons _)

/-- Nothing comes into a merged order from elsewhere. -/
theorem exists_mem (h : Merges number orders merged) (hb : b ∈ merged) :
    ∃ order ∈ orders, b ∈ order := by
  induction h with
  | done => cases hb
  | next ha _ ih =>
    rcases List.mem_cons.mp hb with rfl | hb
    · obtain ⟨order, horder, hhead⟩ := List.mem_filterMap.mp (List.mem_of_find?_eq_some ha)
      exact ⟨order, horder, List.mem_of_head? hhead⟩
    · obtain ⟨left, hleft, hb⟩ := ih hb
      obtain ⟨order, horder, rfl⟩ := List.mem_map.mp hleft
      exact ⟨order, horder, (behind_sublist _ _ order).subset hb⟩

theorem nodup (h : Merges number orders merged) : (merged.map number).Nodup := by
  induction h with
  | done => exact List.nodup_nil
  | next ha hrest ih =>
    refine List.nodup_cons.mpr ⟨fun hmem => ?_, ih⟩
    obtain ⟨b, hb, heq⟩ := List.mem_map.mp hmem
    obtain ⟨left, hleft, hb⟩ := hrest.exists_mem hb
    obtain ⟨order, horder, rfl⟩ := List.mem_map.mp hleft
    exact number_ne_of_mem_behind (List.find?_some ha) horder hb heq

end Merges

theorem mem_of_pair_sublist {l before after : List Nat} {m n : Nat} (hl : l.Nodup)
    (hsplit : l = before ++ n :: after) (h : [m, n].Sublist l) : m ∈ before := by
  subst hsplit
  obtain ⟨hbefore, hrest, hdisjoint⟩ := List.nodup_append.mp hl
  obtain ⟨l₁, l₂, hpair, h₁, h₂⟩ := List.sublist_append_iff.mp h
  have hn : n ∉ after := (List.nodup_cons.mp hrest).1
  match l₁, hpair with
  | [], hpair =>
    obtain rfl : [m, n] = l₂ := hpair
    exact absurd (h₂.of_cons_cons.subset List.mem_cons_self) hn
  | x :: l₁, hpair =>
    obtain ⟨rfl, -⟩ := List.cons.inj hpair
    exact h₁.subset List.mem_cons_self

/-- Of the fronts of orders that all keep to `l`, the one that `l` has first is free. -/
theorem exists_isFree {l : List Nat} (hl : l.Nodup)
    (h : ∀ order ∈ orders, (order.map number).Sublist l) (hleft : ∃ order ∈ orders, order ≠ []) :
    ∃ a ∈ orders.filterMap List.head?, isFree number orders a = true := by
  let isFront (n : Nat) : Bool := (orders.filterMap List.head?).any fun a => number a == n
  have hfront {a : α} {rest : List α} (horder : a :: rest ∈ orders) : isFront (number a) = true :=
    List.any_eq_true.mpr ⟨a, List.mem_filterMap.mpr ⟨_, horder, rfl⟩, beq_self_eq_true _⟩
  obtain ⟨n, hn⟩ : ∃ n, l.find? isFront = some n := by
    obtain ⟨order, horder, hne⟩ := hleft
    obtain ⟨a, rest, rfl⟩ := List.exists_cons_of_ne_nil hne
    refine Option.isSome_iff_exists.mp (List.find?_isSome.mpr ⟨number a, ?_, hfront horder⟩)
    exact (h _ horder).subset List.mem_cons_self
  obtain ⟨hisFront, before, after, hsplit, hbefore⟩ := List.find?_eq_some_iff_append.mp hn
  obtain ⟨a, ha, heq⟩ := List.any_eq_true.mp hisFront
  obtain rfl : number a = n := beq_iff_eq.mp heq
  refine ⟨a, ha, List.all_eq_true.mpr fun order horder => List.all_eq_true.mpr fun c hc => ?_⟩
  rw [bne_iff_ne]
  intro hsame
  obtain ⟨b, rest, rfl⟩ := List.exists_cons_of_ne_nil (List.ne_nil_of_mem (List.mem_of_mem_tail hc))
  have hpair : [number b, number a].Sublist l := by
    rw [← hsame]
    refine List.Sublist.trans ?_ (h _ horder)
    exact (List.singleton_sublist.mpr (List.mem_map_of_mem hc)).cons_cons _
  have hnot := hbefore _ (mem_of_pair_sublist hl hsplit hpair)
  rw [hfront horder] at hnot
  cases hnot

theorem length_behind_lt (ha : a ∈ orders.filterMap List.head?) :
    (orders.map (behind number a)).flatten.length < orders.flatten.length := by
  rw [List.length_flatten, List.length_flatten, List.map_map]
  obtain ⟨order, horder, hhead⟩ := List.mem_filterMap.mp ha
  refine List.sum_lt_sum _ _ (fun order _ => (behind_sublist number a order).length_le)
    ⟨order, horder, ?_⟩
  cases order with
  | nil => cases hhead
  | cons b rest =>
    cases hhead
    simp [behind]

/-- Orders can be merged when there is one that keeps to all of them, and only then. -/
theorem isSome_mergeOrders_iff (hcount : orders.flatten.length ≤ count) :
    (mergeOrders number count orders).isSome ↔
      ∃ l : List Nat, l.Nodup ∧ ∀ order ∈ orders, (order.map number).Sublist l := by
  constructor
  · intro h
    obtain ⟨merged, hmerged⟩ := Option.isSome_iff_exists.mp h
    have hmerge := merges_of_mergeOrders hmerged
    exact ⟨merged.map number, hmerge.nodup, fun _ horder => hmerge.sublist horder⟩
  · rintro ⟨l, hl, h⟩
    induction count generalizing orders with
    | zero =>
      have hempty : orders.all List.isEmpty := by
        rw [List.all_eq_true]
        intro order horder
        have hlength := (List.sublist_flatten_of_mem horder).length_le
        exact List.isEmpty_iff.mpr (List.eq_nil_of_length_eq_zero (by omega))
      rw [mergeOrders, if_pos hempty]
      rfl
    | succ count ih =>
      rw [mergeOrders]
      split
      · rfl
      · rename_i hleft
        obtain ⟨order, horder, hne⟩ : ∃ order ∈ orders, order ≠ [] := by
          simpa [List.all_eq_true] using hleft
        obtain ⟨a, ha, hfree⟩ := exists_isFree hl h ⟨order, horder, hne⟩
        obtain ⟨first, hfirst⟩ := Option.isSome_iff_exists.mp (List.find?_isSome.mpr ⟨a, ha, hfree⟩)
        have hlt : (orders.map (behind number first)).flatten.length < orders.flatten.length :=
          length_behind_lt (List.mem_of_find?_eq_some hfirst)
        simp only [hfirst, Option.isSome_map]
        refine ih (by omega) ?_
        intro left hmem
        obtain ⟨order, horder, rfl⟩ := List.mem_map.mp hmem
        exact ((behind_sublist number first order).map number).trans (h order horder)

end Merging

namespace ClassDeclaration

variable {c base : ClassDeclaration} {cs order : List ClassDeclaration}
  {orders : List (List ClassDeclaration)}

theorem resolutionOrders?_eq_some :
    resolutionOrders? cs = some orders ↔
      List.Forall₂ (fun d own => d.resolutionOrder? = some own) cs orders := by
  induction cs generalizing orders with
  | nil => rw [resolutionOrders?, List.forall₂_nil_left_iff, Option.some.injEq, eq_comm]
  | cons d cs ih =>
    rw [resolutionOrders?, List.forall₂_cons_left_iff]
    cases d.resolutionOrder? with
    | none => simp
    | some own => simp [← ih, Option.map_eq_some_iff, eq_comm (b := orders)]

theorem resolutionOrder?_eq_some :
    c.resolutionOrder? = some order ↔
      ∃ orders rest, resolutionOrders? c.bases = some orders ∧
        mergeOrders ClassDeclaration.identity (orders ++ [c.bases]).flatten.length
          (orders ++ [c.bases]) = some rest ∧ order = c :: rest := by
  obtain ⟨identity, name, tag, documentation, moduleName, bases, attributes, meaning⟩ := c
  rw [resolutionOrder?]
  cases resolutionOrders? bases with
  | none => simp
  | some orders => simp [Option.map_eq_some_iff, eq_comm (b := order)]

/-- A class has a resolution order when its bases have and one order keeps to theirs and to the list of
the bases. -/
theorem isSome_resolutionOrder?_iff :
    c.resolutionOrder?.isSome ↔
      ∃ orders, List.Forall₂ (fun d own => d.resolutionOrder? = some own) c.bases orders ∧
        ∃ l : List Nat, l.Nodup ∧ ∀ own ∈ orders ++ [c.bases], (own.map identity).Sublist l := by
  simp only [← resolutionOrders?_eq_some]
  constructor
  · intro h
    obtain ⟨order, horder⟩ := Option.isSome_iff_exists.mp h
    obtain ⟨orders, rest, horders, hmerge, -⟩ := resolutionOrder?_eq_some.mp horder
    refine ⟨orders, horders, (isSome_mergeOrders_iff (Nat.le_refl _)).mp ?_⟩
    rw [hmerge]
    rfl
  · rintro ⟨orders, horders, hkept⟩
    have hsome := (isSome_mergeOrders_iff (Nat.le_refl _)).mpr hkept
    obtain ⟨rest, hrest⟩ := Option.isSome_iff_exists.mp hsome
    rw [resolutionOrder?_eq_some.mpr ⟨orders, rest, horders, hrest, rfl⟩]
    rfl

/-- The class comes first, behind it come its bases as they are listed and all that comes behind them,
each of these once and wherever a base has it before another one before that. What comes next is always
the first that no order still to be merged holds back. -/
structure ResolvesIn (c : ClassDeclaration) (order : List ClassDeclaration) : Prop where
  first : order.head? = some c
  merged : ∃ orders, List.Forall₂ (fun d own => d.resolutionOrder? = some own) c.bases orders ∧
    Merges identity (orders ++ [c.bases]) order.tail
  listed : (c.bases.map identity).Sublist (order.tail.map identity)
  kept : ∀ base ∈ c.bases, ∃ own, base.resolutionOrder? = some own ∧
    (own.map identity).Sublist (order.tail.map identity)
  only : ∀ d ∈ order.tail, ∃ base ∈ c.bases, ∃ own, base.resolutionOrder? = some own ∧ d ∈ own
  nodup : (order.tail.map identity).Nodup

theorem head?_of_resolutionOrder? (h : c.resolutionOrder? = some order) : order.head? = some c := by
  obtain ⟨orders, rest, -, -, rfl⟩ := resolutionOrder?_eq_some.mp h
  rfl

theorem resolvesIn_of_resolutionOrder? (h : c.resolutionOrder? = some order) : c.ResolvesIn order := by
  obtain ⟨orders, rest, horders, hrest, rfl⟩ := resolutionOrder?_eq_some.mp h
  have hmerge := merges_of_mergeOrders hrest
  have hpairs := resolutionOrders?_eq_some.mp horders
  refine ⟨rfl, ⟨orders, hpairs, hmerge⟩, hmerge.sublist (by simp), ?_, ?_, hmerge.nodup⟩
  · intro base hbase
    obtain ⟨n, hn, rfl⟩ := List.mem_iff_getElem.mp hbase
    have hlength : n < orders.length := hpairs.length_eq ▸ hn
    refine ⟨orders[n], hpairs.get hn hlength, hmerge.sublist ?_⟩
    exact List.mem_append_left _ (List.getElem_mem hlength)
  · intro d hd
    obtain ⟨own, hown, hd⟩ := hmerge.exists_mem hd
    rcases List.mem_append.mp hown with hown | hown
    · obtain ⟨n, hn, rfl⟩ := List.mem_iff_getElem.mp hown
      have hlength : n < c.bases.length := hpairs.length_eq ▸ hn
      exact ⟨c.bases[n], List.getElem_mem hlength, orders[n], hpairs.get hlength hn, hd⟩
    · obtain rfl := List.mem_singleton.mp hown
      obtain ⟨n, hn, rfl⟩ := List.mem_iff_getElem.mp hd
      have hlength : n < orders.length := hpairs.length_eq ▸ hn
      refine ⟨c.bases[n], hd, orders[n], hpairs.get hn hlength, ?_⟩
      exact List.mem_of_head? (head?_of_resolutionOrder? (hpairs.get hn hlength))

theorem resolutionOrder?_of_bases_eq_nil (h : c.bases = []) : c.resolutionOrder? = some [c] :=
  resolutionOrder?_eq_some.mpr ⟨[], [], by rw [h]; rfl, by rw [h]; rfl, rfl⟩

end ClassDeclaration

end PrefAccessor
