/-!
# Ordered entries

Finite maps that remember the order in which their keys first came. Storing under a known key
replaces the value and leaves the key where it is. Supplies one equation per operation for looking
up, and grouping of a list by a key in the order of first occurrence.
-/

namespace PrefAccessor

set_option autoImplicit false

universe u v

abbrev Entries (α : Type u) (β : Type v) := List (α × β)

namespace Entries

variable {α : Type u} {β : Type v} [DecidableEq α]

def find? : Entries α β → α → Option β
  | [], _ => none
  | (k, v) :: m, a => if k = a then some v else find? m a

def put : Entries α β → α → β → Entries α β
  | [], a, b => [(a, b)]
  | (k, v) :: m, a, b => if k = a then (k, b) :: m else (k, v) :: put m a b

def erase : Entries α β → α → Entries α β
  | [], _ => []
  | (k, v) :: m, a => if k = a then erase m a else (k, v) :: erase m a

def keys (m : Entries α β) : List α :=
  m.map Prod.fst

def contains (m : Entries α β) (a : α) : Bool :=
  (find? m a).isSome

/-- All entries of `overrides`, put one after another. -/
def merge (m overrides : Entries α β) : Entries α β :=
  overrides.foldl (fun m e => put m e.1 e.2) m

/-- The entries of a list in which a later one replaces an earlier one of its key. -/
def ofList (l : List (α × β)) : Entries α β :=
  merge [] l

@[simp] theorem find?_put_self (m : Entries α β) (a : α) (b : β) : find? (put m a b) a = some b := by
  induction m with
  | nil => simp [put, find?]
  | cons e m ih =>
    obtain ⟨k, v⟩ := e
    by_cases h : k = a <;> simp [put, find?, h, ih]

theorem find?_put_of_ne (m : Entries α β) {a c : α} (b : β) (h : c ≠ a) :
    find? (put m a b) c = find? m c := by
  induction m with
  | nil => simp [put, find?, h.symm]
  | cons e m ih =>
    obtain ⟨k, v⟩ := e
    by_cases hk : k = a
    · subst hk
      simp [put, find?, h.symm]
    · simp [put, find?, hk, ih]

@[simp] theorem find?_erase_self (m : Entries α β) (a : α) : find? (erase m a) a = none := by
  induction m with
  | nil => rfl
  | cons e m ih =>
    obtain ⟨k, v⟩ := e
    by_cases h : k = a <;> simp [erase, find?, h, ih]

theorem find?_erase_of_ne (m : Entries α β) {a c : α} (h : c ≠ a) :
    find? (erase m a) c = find? m c := by
  induction m with
  | nil => rfl
  | cons e m ih =>
    obtain ⟨k, v⟩ := e
    by_cases hk : k = a
    · subst hk
      simp [erase, find?, h.symm, ih]
    · simp [erase, find?, hk, ih]

end Entries

section Grouping

variable {α : Type u} {κ : Type v} [DecidableEq κ]

/-- The members of a list without repetition, each where it first occurs. -/
def distinct : List κ → List κ
  | [] => []
  | a :: l => a :: (distinct l).filter fun b => decide (b ≠ a)

@[simp] theorem mem_distinct {a : κ} {l : List κ} : a ∈ distinct l ↔ a ∈ l := by
  induction l with
  | nil => simp [distinct]
  | cons b l ih => by_cases h : a = b <;> simp [distinct, ih, h]

theorem nodup_distinct (l : List κ) : (distinct l).Nodup := by
  induction l with
  | nil => exact List.nodup_nil
  | cons a l ih =>
    refine List.nodup_cons.mpr ⟨by simp, ih.filter _⟩

/-- The members of a list under the value of `key`, in the order in which the values first occur: one
member after another is put behind those of its value. -/
def groupOn (key : α → κ) (l : List α) : Entries κ (List α) :=
  l.foldl (fun m a => Entries.put m (key a) ((Entries.find? m (key a)).getD [] ++ [a])) []

/-- The groups of two or more. -/
def sharedGroups (key : α → κ) (l : List α) : Entries κ (List α) :=
  (groupOn key l).filter fun g => decide (1 < g.2.length)

end Grouping

end PrefAccessor
