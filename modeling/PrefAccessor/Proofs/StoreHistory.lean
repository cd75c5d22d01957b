import PrefAccessor.Proofs.AccessorRefinement
import PrefAccessor.Proofs.ObjectNames
import PrefAccessor.Store.Request

/-!
# Stores and the batches applied to them

Several editors may collect writes to the same stores at once. What they have put is written down in a
log, from which the batches of each store can be read off; the contents of a store are what its batches
leave. The relation `MemoryStores.Follows` of stores to such a log is kept by every call, whether it
succeeds or not. Main statement: `after_follows_batches`.
-/

namespace PrefAccessor

set_option autoImplicit false

/-- Opening a store is a call of its own; editors and getters open the store they are asked for. -/
inductive StoreCall where
  | openStore (store : Text)
  | request (request : StoreRequest)
  deriving DecidableEq

namespace StoreCall

def perform (p : MemoryStores) : StoreCall → MemoryStores × Except Fault StoreReply
  | .openStore store => (p.openStore store, .ok .nothing)
  | .request r => r.run p

end StoreCall

/-- The stores after calls on a provider that has opened none before. -/
def MemoryStores.after (calls : List StoreCall) : MemoryStores :=
  calls.foldl (fun p c => (c.perform p).1) .empty

/-- A call that what the stores hold can depend on, with the number of the editor. -/
inductive StoreEvent where
  | edited (store : Text)
  | put (editor : Nat) (key : Text) (value : PrefValue)
  | applied (editor : Nat)
  deriving DecidableEq

/-- Events, the newest first. -/
abbrev StoreLog := List StoreEvent

/-- Values put under keys, the newest first. -/
abbrev Batch := List (Text × PrefValue)

/-- The event of a call, if it is one, while there are `count` editors. A set that is put counts by
its members. -/
def StoreCall.event? (count : Nat) : StoreCall → Option StoreEvent
  | .request (.edit store) => some (.edited store)
  | .request (.put type editor key value) =>
    match StoreRequest.position count editor, storable type value with
    | .ok i, .ok v => some (.put i key v)
    | _, _ => none
  | .request (.apply editor) =>
    match StoreRequest.position count editor with
    | .ok i => some (.applied i)
    | .error _ => none
  | _ => none

namespace StoreLog

/-- The stores of the editors, in the order in which they were opened. -/
def editors : StoreLog → List Text
  | [] => []
  | .edited store :: log => editors log ++ [store]
  | .put .. :: log => editors log
  | .applied _ :: log => editors log

/-- What an editor has put since it was applied last. -/
def waiting (editor : Nat) : StoreLog → Batch
  | [] => []
  | .edited _ :: log => waiting editor log
  | .put i key value :: log =>
    if i = editor then (key, value) :: waiting editor log else waiting editor log
  | .applied i :: log => if i = editor then [] else waiting editor log

/-- The batches that have been applied to a store, the newest first. -/
def batches (store : Text) : StoreLog → List Batch
  | [] => []
  | .edited _ :: log => batches store log
  | .put .. :: log => batches store log
  | .applied i :: log =>
    if (editors log)[i]? = some store then waiting i log :: batches store log else batches store log

theorem waiting_put (i : Nat) (key : Text) (value : PrefValue) (log : StoreLog) (j : Nat) :
    waiting j (.put i key value :: log) =
      if i = j then (key, value) :: waiting i log else waiting j log := by
  rw [waiting]
  split
  · rename_i hij
    rw [hij]
  · rfl

theorem waiting_applied (i : Nat) (log : StoreLog) (j : Nat) :
    waiting j (.applied i :: log) = if i = j then [] else waiting j log :=
  rfl

def record (log : StoreLog) (c : StoreCall) : StoreLog :=
  (c.event? log.editors.length).toList ++ log

def ofCalls (calls : List StoreCall) : StoreLog :=
  calls.foldl record []

end StoreLog

/-- The call applies an editor of the store. -/
def StoreCall.AppliesTo (c : StoreCall) (log : StoreLog) (store : Text) : Prop :=
  ∃ editor i, c = .request (.apply editor) ∧
    StoreRequest.position log.editors.length editor = .ok i ∧ log.editors[i]? = some store

/-- What batches leave under a key: in the newest one that has the key the last value put counts, and
the absent value removes the key. -/
def heldAfter (key : Text) : List Batch → Option PrefValue
  | [] => none
  | batch :: earlier =>
    match Entries.find? batch key with
    | some value => if value = .absent then none else some value
    | none => heldAfter key earlier

/-- What a getter answers where a value is held under its key, or none is. -/
def answerFor (type : PrefType) (held : Option PrefValue) (default : PrefValue) :
    Except Fault PrefValue :=
  match held with
  | none => .ok default
  | some value => if type = .stringSet then membersOf value else .ok value

theorem Entries.put_of_find?_eq_some {α β : Type} [DecidableEq α] {m : Entries α β} {a : α} {b : β}
    (h : Entries.find? m a = some b) : Entries.put m a b = m := by
  induction m with
  | nil => cases h
  | cons e m ih =>
    obtain ⟨k, v⟩ := e
    rw [Entries.find?] at h
    rw [Entries.put]
    split at h
    · rename_i hk
      cases h
      rw [if_pos hk]
    · rename_i hk
      rw [if_neg hk, ih h]

namespace StoreValues

/-- By induction on the batch, whose last entry for a key is written last. -/
theorem find?_writeAll (values batch : StoreValues) (key : Text) :
    Entries.find? (values.writeAll batch) key =
      match Entries.find? batch.reverse key with
      | some value => if value = .absent then none else some value
      | none => Entries.find? values key := by
  induction batch generalizing values with
  | nil => rfl
  | cons e batch ih =>
    obtain ⟨k, v⟩ := e
    have hstep : values.writeAll ((k, v) :: batch) = (values.write k v).writeAll batch := rfl
    rw [hstep, ih, List.reverse_cons, Entries.find?_append]
    cases Entries.find? batch.reverse key with
    | some value => rfl
    | none =>
      by_cases hk : k = key
      · subst hk
        rw [find?_write_self]
        simp [Entries.find?]
      · rw [find?_write_of_ne values (Ne.symm hk)]
        simp [Entries.find?, hk]

theorem mem_of_mem_erase {values : StoreValues} {key : Text} {e : Text × PrefValue}
    (h : e ∈ Entries.erase values key) : e ∈ values := by
  induction values with
  | nil => exact h
  | cons d values ih =>
    obtain ⟨k, v⟩ := d
    rw [Entries.erase] at h
    split at h
    · exact List.mem_cons_of_mem _ (ih h)
    · rcases List.mem_cons.mp h with rfl | h
      · exact List.mem_cons_self
      · exact List.mem_cons_of_mem _ (ih h)

/-- No key holds the absent value. -/
def IsPresent (values : StoreValues) : Prop :=
  ∀ e ∈ values, e.2 ≠ .absent

theorem IsPresent.write {values : StoreValues} (h : values.IsPresent) (key : Text)
    (value : PrefValue) : (values.write key value).IsPresent := by
  intro e he
  rw [StoreValues.write] at he
  split at he
  · exact h e (mem_of_mem_erase he)
  · rename_i hvalue
    rcases Entries.mem_of_mem_put he with he | rfl
    · exact h e he
    · exact hvalue

theorem IsPresent.writeAll {values : StoreValues} (h : values.IsPresent) (batch : StoreValues) :
    (values.writeAll batch).IsPresent := by
  induction batch generalizing values with
  | nil => exact h
  | cons e batch ih => exact ih (h.write e.1 e.2)

theorem read_eq_answerFor (values : StoreValues) (type : PrefType) (key : Text)
    (default : PrefValue) :
    values.read type key default = answerFor type (Entries.find? values key) default := by
  rw [read]
  cases Entries.find? values key <;> rfl

end StoreValues

/-- What an editor has collected gives under each key what it has put there last. -/
theorem Batch.find?_reverse_collected (batch : Batch) (key : Text) :
    Entries.find? (Entries.ofList batch.reverse).reverse key = Entries.find? batch key := by
  have hnodup : (Entries.keys (Entries.ofList batch.reverse)).Nodup :=
    Entries.nodup_keys_merge (m := []) List.nodup_nil batch.reverse
  rw [Entries.find?_reverse hnodup, Entries.ofList, Entries.find?_merge, List.reverse_reverse,
    Entries.find?, Option.or_none]

namespace MemoryStores

theorem values_put (p : MemoryStores) (store other : Text) (values : StoreValues)
    (editors : List Editor) :
    MemoryStores.values ⟨Entries.put p.stores store values, editors⟩ other =
      if other = store then values else p.values other := by
  unfold MemoryStores.values
  split
  · rename_i heq
    rw [heq, Entries.find?_put_self]
    rfl
  · rename_i hne
    rw [Entries.find?_put_of_ne _ _ hne]

/-- To open a store does not change what any store holds. -/
theorem values_openStore (p : MemoryStores) (store other : Text) :
    (p.openStore store).values other = p.values other := by
  rw [openStore, values_put]
  split
  · rename_i heq
    rw [heq]
  · rfl

theorem isPresent_values {p : MemoryStores} (h : ∀ e ∈ p.stores, StoreValues.IsPresent e.2)
    (store : Text) : (p.values store).IsPresent := by
  unfold MemoryStores.values
  cases hfind : Entries.find? p.stores store with
  | none => exact List.forall_mem_nil _
  | some values => exact h (store, values) (Entries.mem_of_find? hfind)

theorem isPresent_put {p : MemoryStores} (h : ∀ e ∈ p.stores, StoreValues.IsPresent e.2)
    {values : StoreValues} (hvalues : values.IsPresent) (store : Text) :
    ∀ e ∈ Entries.put p.stores store values, StoreValues.IsPresent e.2 := by
  intro e he
  rcases Entries.mem_of_mem_put he with he | rfl
  · exact h e he
  · exact hvalues

/-- The stores and editors are as the log tells. -/
structure Follows (p : MemoryStores) (log : StoreLog) : Prop where
  editors : p.editors.map Editor.store = log.editors
  opened : ∀ store ∈ log.editors, Entries.find? p.stores store ≠ none
  pending : ∀ i e, p.editors[i]? = some e → e.pending = Entries.ofList (log.waiting i).reverse
  /-- An editor that is still to be opened has put nothing. -/
  unopened : ∀ i, p.editors.length ≤ i → log.waiting i = []
  held : ∀ store key, Entries.find? (p.values store) key = heldAfter key (log.batches store)
  present : ∀ e ∈ p.stores, StoreValues.IsPresent e.2

theorem follows_empty : Follows .empty [] where
  editors := rfl
  opened := List.forall_mem_nil _
  pending := by
    intro i e he
    cases he
  unopened _ _ := rfl
  held _ _ := rfl
  present := List.forall_mem_nil _

namespace Follows

variable {p : MemoryStores} {log : StoreLog}

theorem length (h : p.Follows log) : p.editors.length = log.editors.length := by
  rw [← h.editors, List.length_map]

theorem openStore (h : p.Follows log) (store : Text) : (p.openStore store).Follows log where
  editors := h.editors
  opened := by
    intro other hother
    by_cases heq : other = store
    · rw [MemoryStores.openStore, heq, Entries.find?_put_self]
      exact Option.some_ne_none _
    · rw [MemoryStores.openStore, Entries.find?_put_of_ne _ _ heq]
      exact h.opened other hother
  pending := h.pending
  unopened := h.unopened
  held other key := by
    rw [values_openStore]
    exact h.held other key
  present := isPresent_put h.present (isPresent_values h.present store) store

theorem edit (h : p.Follows log) (store : Text) :
    (p.edit store).Follows (.edited store :: log) where
  editors := by
    rw [MemoryStores.edit, List.map_append, h.editors]
    rfl
  opened := by
    intro other hother
    rcases List.mem_append.mp hother with hother | hother
    · exact (h.openStore store).opened other hother
    · rw [List.mem_singleton.mp hother, MemoryStores.edit, MemoryStores.openStore,
        Entries.find?_put_self]
      exact Option.some_ne_none _
  pending := by
    intro i e he
    rw [MemoryStores.edit, List.getElem?_append] at he
    split at he
    · exact h.pending i e he
    · rename_i hlength
      rw [StoreLog.waiting, h.unopened i (Nat.le_of_not_lt hlength)]
      obtain ⟨-, rfl⟩ := List.getElem?_eq_some_iff.mp he
      simp [Entries.ofList, Entries.merge]
  unopened := by
    intro i hi
    rw [MemoryStores.edit, List.length_append] at hi
    exact h.unopened i (by omega)
  held := (h.openStore store).held
  present := (h.openStore store).present

-- Putting and applying both give one editor other writes to wait for.
section

variable {i : Nat} {e : Editor} {next : StoreLog} {batch : Batch}

theorem store_of_editor (h : p.Follows log) (he : p.editors[i]? = some e) :
    log.editors[i]? = some e.store := by
  rw [← h.editors, List.getElem?_map, he]
  rfl

theorem map_store_set (he : p.editors[i]? = some e) (pending : StoreValues) :
    (p.editors.set i ⟨e.store, pending⟩).map Editor.store = p.editors.map Editor.store := by
  obtain ⟨hi, rfl⟩ := List.getElem?_eq_some_iff.mp he
  rw [List.map_set, ← List.getElem_map Editor.store (h := by simpa using hi)]
  exact List.set_getElem_self _

theorem pending_set (h : p.Follows log) (he : p.editors[i]? = some e)
    (hnext : ∀ j, next.waiting j = if i = j then batch else log.waiting j) :
    ∀ j d, (p.editors.set i ⟨e.store, Entries.ofList batch.reverse⟩)[j]? = some d →
      d.pending = Entries.ofList (next.waiting j).reverse := by
  intro j d hd
  rw [hnext]
  by_cases hij : i = j
  · subst hij
    rw [List.getElem?_set_self (List.getElem?_eq_some_iff.mp he).1] at hd
    cases hd
    rw [if_pos rfl]
  · rw [List.getElem?_set_ne hij] at hd
    rw [if_neg hij]
    exact h.pending j d hd

theorem unopened_set (h : p.Follows log) (he : p.editors[i]? = some e)
    (hnext : ∀ j, next.waiting j = if i = j then batch else log.waiting j) {d : Editor} :
    ∀ j, (p.editors.set i d).length ≤ j → next.waiting j = [] := by
  intro j hj
  rw [List.length_set] at hj
  have hij : i ≠ j := by
    have hi := (List.getElem?_eq_some_iff.mp he).1
    omega
  rw [hnext, if_neg hij]
  exact h.unopened j hj

end

theorem collect (h : p.Follows log) {i : Nat} {e : Editor} (he : p.editors[i]? = some e)
    (key : Text) (value : PrefValue) :
    Follows ⟨p.stores, p.editors.set i ⟨e.store, Entries.put e.pending key value⟩⟩
      (.put i key value :: log) := by
  have hnext := StoreLog.waiting_put i key value log
  have hput : Entries.put e.pending key value =
      Entries.ofList ((key, value) :: log.waiting i).reverse := by
    rw [h.pending i e he, List.reverse_cons, Entries.ofList, Entries.ofList, Entries.merge_append]
    rfl
  rw [hput]
  exact
    { editors := (map_store_set he _).trans h.editors
      opened := h.opened
      pending := h.pending_set he hnext
      unopened := h.unopened_set he hnext
      held := h.held
      present := h.present }

theorem apply (h : p.Follows log) {i : Nat} {e : Editor} (he : p.editors[i]? = some e) :
    Follows ⟨Entries.put p.stores e.store ((p.values e.store).writeAll e.pending),
      p.editors.set i ⟨e.store, []⟩⟩ (.applied i :: log) where
  editors := (map_store_set he _).trans h.editors
  opened := by
    intro other hother
    by_cases heq : other = e.store
    · rw [heq, Entries.find?_put_self]
      exact Option.some_ne_none _
    · rw [Entries.find?_put_of_ne _ _ heq]
      exact h.opened other hother
  pending := h.pending_set he (StoreLog.waiting_applied i log)
  unopened := h.unopened_set he (StoreLog.waiting_applied i log)
  held := by
    intro other key
    rw [values_put, StoreLog.batches, h.store_of_editor he]
    by_cases heq : other = e.store
    · rw [if_pos heq, if_pos (congrArg some heq.symm), StoreValues.find?_writeAll,
        h.pending i e he, Batch.find?_reverse_collected, heldAfter, heq, h.held]
    · rw [if_neg heq, if_neg (fun hsome => heq (Option.some.inj hsome).symm)]
      exact h.held other key
  present := isPresent_put h.present ((isPresent_values h.present e.store).writeAll e.pending) e.store

end Follows

section

variable {p : MemoryStores} {editor : Int} {i : Nat}

theorem exists_editor (h : StoreRequest.position p.editors.length editor = .ok i) :
    ∃ e, p.editors[i]? = some e := by
  have hi : i < p.editors.length := by
    rw [StoreRequest.position] at h
    generalize (if editor < 0 then editor + (p.editors.length : Int) else editor) = n at h
    split at h
    · cases h
      omega
    · cases h
  exact ⟨p.editors[i], List.getElem?_eq_getElem hi⟩

theorem run_put_of_error {k : Fault} (h : StoreRequest.position p.editors.length editor = .error k)
    (type : PrefType) (key : Text) (value : PrefValue) :
    (StoreRequest.put type editor key value).run p = (p, .error k) := by
  rw [StoreRequest.run, h]
  rfl

theorem run_put_of_ok (h : StoreRequest.position p.editors.length editor = .ok i) {e : Editor}
    (he : p.editors[i]? = some e) (type : PrefType) (key : Text) (value : PrefValue) :
    (StoreRequest.put type editor key value).run p =
      match storable type value with
      | .ok v =>
        (⟨p.stores, p.editors.set i ⟨e.store, Entries.put e.pending key v⟩⟩, .ok .sameEditor)
      | .error k => (p, .error k) := by
  simp only [StoreRequest.run, h, Except.bind, MemoryStores.put, he, Editor.put]
  cases storable type value <;> rfl

theorem run_apply_of_error {k : Fault}
    (h : StoreRequest.position p.editors.length editor = .error k) :
    (StoreRequest.apply editor).run p = (p, .error k) := by
  rw [StoreRequest.run, h]
  rfl

theorem run_apply_of_ok (h : StoreRequest.position p.editors.length editor = .ok i) {e : Editor}
    (he : p.editors[i]? = some e) :
    (StoreRequest.apply editor).run p =
      (⟨Entries.put p.stores e.store ((p.values e.store).writeAll e.pending),
        p.editors.set i ⟨e.store, []⟩⟩, .ok .nothing) := by
  simp only [StoreRequest.run, h, Except.bind, MemoryStores.apply, he, MemoryStores.applyBatch]

theorem run_unknownPut (p : MemoryStores) (editor : Int) :
    ((StoreRequest.unknownPut editor).run p).1 = p := by
  rw [StoreRequest.run]
  cases StoreRequest.position p.editors.length editor <;> rfl

end

variable {p : MemoryStores} {log : StoreLog}

/-- One case for each call. A call that fails leaves stores and log as they are, except that a getter
has opened its store. -/
theorem Follows.perform (h : p.Follows log) (c : StoreCall) :
    (c.perform p).1.Follows (log.record c) := by
  cases c with
  | openStore store => exact h.openStore store
  | request r =>
    rw [StoreCall.perform, StoreLog.record, ← h.length]
    cases r with
    | edit store => exact h.edit store
    | get type store key default => exact h.openStore store
    | unknownGet store => exact h.openStore store
    | unknownPut editor =>
      rw [run_unknownPut]
      exact h
    | put type editor key value =>
      cases hi : StoreRequest.position p.editors.length editor with
      | error k =>
        rw [run_put_of_error hi, StoreCall.event?, hi]
        exact h
      | ok i =>
        obtain ⟨e, he⟩ := exists_editor hi
        rw [run_put_of_ok hi he, StoreCall.event?, hi]
        cases storable type value with
        | error k => exact h
        | ok v => exact h.collect he key v
    | apply editor =>
      cases hi : StoreRequest.position p.editors.length editor with
      | error k =>
        rw [run_apply_of_error hi, StoreCall.event?, hi]
        exact h
      | ok i =>
        obtain ⟨e, he⟩ := exists_editor hi
        rw [run_apply_of_ok hi he, StoreCall.event?, hi]
        exact h.apply he

/-- By induction on the calls, from any stores and a log that they follow. -/
theorem Follows.performAll (h : p.Follows log) (calls : List StoreCall) :
    Follows (calls.foldl (fun p c => (c.perform p).1) p) (calls.foldl StoreLog.record log) := by
  induction calls generalizing p log with
  | nil => exact h
  | cons c calls ih => exact ih (h.perform c)

theorem follows_after (calls : List StoreCall) : (after calls).Follows (.ofCalls calls) :=
  follows_empty.performAll calls

theorem Follows.get (h : p.Follows log) (store : Text) (type : PrefType) (key : Text)
    (default : PrefValue) :
    ((StoreCall.request (.get type store key default)).perform p).2 =
      (answerFor type (heldAfter key (log.batches store)) default).map .value := by
  have hrun : ((StoreCall.request (.get type store key default)).perform p).2 =
      (((p.openStore store).values store).read type key default).map .value := rfl
  rw [hrun, values_openStore, StoreValues.read_eq_answerFor, h.held]

theorem find?_openStore (p : MemoryStores) (store : Text) :
    Entries.find? (p.openStore store).stores store = some (p.values store) :=
  Entries.find?_put_self p.stores store (p.values store)

theorem Follows.values_perform (h : p.Follows log) {c : StoreCall} {store : Text}
    (hc : ¬ c.AppliesTo log store) : (c.perform p).1.values store = p.values store := by
  cases c with
  | openStore opened => exact values_openStore p opened store
  | request r =>
    rw [StoreCall.perform]
    cases r with
    | edit opened => exact values_openStore p opened store
    | get type opened key default => exact values_openStore p opened store
    | unknownGet opened => exact values_openStore p opened store
    | unknownPut editor => rw [run_unknownPut]
    | put type editor key value =>
      cases hi : StoreRequest.position p.editors.length editor with
      | error k => rw [run_put_of_error hi]
      | ok i =>
        obtain ⟨e, he⟩ := exists_editor hi
        rw [run_put_of_ok hi he]
        cases storable type value <;> rfl
    | apply editor =>
      cases hi : StoreRequest.position p.editors.length editor with
      | error k => rw [run_apply_of_error hi]
      | ok i =>
        obtain ⟨e, he⟩ := exists_editor hi
        have hne : store ≠ e.store := by
          rintro rfl
          exact hc ⟨editor, i, rfl, h.length ▸ hi, h.store_of_editor he⟩
        rw [run_apply_of_ok hi he, values_put, if_neg hne]

/-- An editor that waits for nothing is as it was when it was opened, and so is its store open. -/
theorem Follows.apply_of_waiting_eq_nil (h : p.Follows log) {editor : Int} {i : Nat}
    (hi : StoreRequest.position log.editors.length editor = .ok i) (hwaiting : log.waiting i = []) :
    ((StoreCall.request (.apply editor)).perform p).1 = p := by
  rw [← h.length] at hi
  obtain ⟨e, he⟩ := exists_editor hi
  have hpending : e.pending = [] := by
    rw [h.pending i e he, hwaiting]
    rfl
  have hstore : Entries.find? p.stores e.store = some (p.values e.store) := by
    have hopened := h.opened e.store (List.mem_of_getElem? (h.store_of_editor he))
    obtain ⟨values, hvalues⟩ := Option.ne_none_iff_exists'.mp hopened
    rw [MemoryStores.values, hvalues]
    rfl
  have heditors : p.editors.set i ⟨e.store, []⟩ = p.editors := by
    obtain ⟨hlt, rfl⟩ := List.getElem?_eq_some_iff.mp he
    rw [← hpending]
    exact List.set_getElem_self hlt
  have hwrite : (p.values e.store).writeAll e.pending = p.values e.store := by
    rw [hpending]
    rfl
  rw [StoreCall.perform, run_apply_of_ok hi he, hwrite, heditors,
    Entries.put_of_find?_eq_some hstore]

/-- After any calls a getter answers what the batches of its store leave under the key. No store holds
the absent value, to open a store keeps the contents of all, only the application of an editor changes
contents, those of its own store, and none if nothing has been put since it was applied last. -/
theorem after_follows_batches (calls : List StoreCall) :
    (∀ store type key default,
      ((StoreCall.request (.get type store key default)).perform (after calls)).2 =
        (answerFor type (heldAfter key ((StoreLog.ofCalls calls).batches store)) default).map
          .value) ∧
    (∀ e ∈ (after calls).stores, StoreValues.IsPresent e.2) ∧
    (∀ store,
      Entries.find? ((after calls).openStore store).stores store =
        some ((after calls).values store) ∧
      ∀ other, ((after calls).openStore store).values other = (after calls).values other) ∧
    (∀ (c : StoreCall) store, ¬ c.AppliesTo (.ofCalls calls) store →
      (c.perform (after calls)).1.values store = (after calls).values store) ∧
    ∀ editor i,
      StoreRequest.position (StoreLog.ofCalls calls).editors.length editor = .ok i →
      (StoreLog.ofCalls calls).waiting i = [] →
      ((StoreCall.request (.apply editor)).perform (after calls)).1 = after calls := by
  have h := follows_after calls
  refine ⟨?_, h.present, ?_, ?_, ?_⟩
  · intro store type key default
    exact h.get store type key default
  · intro store
    exact ⟨find?_openStore _ store, values_openStore _ store⟩
  · intro c store hc
    exact h.values_perform hc
  · intro editor i hi hwaiting
    exact h.apply_of_waiting_eq_nil hi hwaiting

/-- Two editors of one store, of which the one that has put first is applied last, and again. -/
def interleaved : List StoreCall :=
  [.request (.edit "app"), .request (.edit "app"), .request (.edit "other"),
    .request (.put .int 0 "count" (.int 1)), .request (.put .int 1 "count" (.int 2)),
    .request (.put .int 1 "size" (.int 3)), .request (.put .int 2 "count" (.int 4)),
    .request (.apply 1), .request (.put .int 0 "size" .absent), .request (.apply 0),
    .request (.put .int 1 "count" (.int 5))]

theorem interleaved_follows_batches :
    ((StoreCall.request (.get .int "app" "count" .absent)).perform (after interleaved)).2 =
      .ok (.value (.int 1)) ∧
    ((StoreCall.request (.get .int "app" "size" (.int 0))).perform (after interleaved)).2 =
      .ok (.value (.int 0)) ∧
    (¬ (StoreCall.request (.apply 1)).AppliesTo (.ofCalls interleaved) "other" ∧
      ((StoreCall.request (.apply 1)).perform (after interleaved)).1.values "other" =
        (after interleaved).values "other") ∧
    ((StoreLog.ofCalls interleaved).waiting 0 = [] ∧
      ((StoreCall.request (.apply 0)).perform (after interleaved)).1 = after interleaved) := by
  obtain ⟨hget, -, -, hother, happly⟩ := after_follows_batches interleaved
  have hnot : ¬ (StoreCall.request (.apply 1)).AppliesTo (.ofCalls interleaved) "other" := by
    rintro ⟨editor, i, heq, hi, hstore⟩
    cases heq
    have hone : i = 1 := by
      simpa using (Except.ok.inj hi).symm
    subst hone
    exact absurd hstore (by decide)
  have hwaiting : (StoreLog.ofCalls interleaved).waiting 0 = [] := by decide
  exact ⟨(hget "app" .int "count" .absent).trans (by decide),
    (hget "app" .int "size" (.int 0)).trans (by decide), ⟨hnot, hother _ _ hnot⟩, hwaiting,
    happly 0 0 (by decide) hwaiting⟩

end MemoryStores

end PrefAccessor
