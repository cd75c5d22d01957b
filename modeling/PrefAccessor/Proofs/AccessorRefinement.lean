import Mathlib.Data.List.Nodup
import PrefAccessor.Accessor
import PrefAccessor.Proofs.Extraction
import PrefAccessor.Proofs.Generation

/-!
# Accessors as maps from fields to values

An accessor over fresh stores behaves like a plain map from fields to values. The abstraction is
`Accessor.Refines`: under the key of every field the one open store holds what the map holds for the
field. One call preserves it and answers what the map answers, and so does a run of calls.
-/

namespace PrefAccessor

set_option autoImplicit false

/-- A value that belongs to the type. -/
def PrefType.Holds : PrefType → PrefValue → Prop
  | .string, .string _ => True
  | .int, .int _ => True
  | .long, .int _ => True
  | .boolean, .bool _ => True
  | .float, .float _ => True
  | .stringSet, .set _ => True
  | _, _ => False

/-- A call of one of the methods of a field; a setter is given a value. -/
structure AccessorCall where
  field : Field
  isAsync : Bool
  value : Option PrefValue

namespace AccessorCall

def access (c : AccessorCall) : Access :=
  if c.value.isSome then .set else .get

/-- The field has the method, and a setter is given the absent value or one of the field's type. -/
structure Fits (c : AccessorCall) (s : Schema) : Prop where
  field : c.field ∈ s.fields
  async : c.isAsync = true → c.field.isAsync = true
  value : ∀ v, c.value = some v → v = .absent ∨ c.field.type.Holds v

end AccessorCall

/-- What each field has been given last, where the absent value counts as nothing. -/
abbrev FieldMap := Field → Option PrefValue

namespace FieldMap

def empty : FieldMap := fun _ => none

def answer (m : FieldMap) (f : Field) : Attempt DefaultProblem PrefValue :=
  match m f with
  | some v => .ok v
  | none => f.defaultValue

def give (m : FieldMap) (f : Field) (v : PrefValue) : FieldMap := fun f' =>
  if f' = f then (if v = .absent then none else some v) else m f'

theorem give_self (m : FieldMap) (f : Field) (v : PrefValue) :
    m.give f v f = if v = .absent then none else some v := by
  simp [give]

theorem give_of_ne (m : FieldMap) {f f' : Field} (h : f' ≠ f) (v : PrefValue) :
    m.give f v f' = m f' := by
  simp [give, h]

/-- A call on the map: a setter returns nothing, a getter what the field was given or its default. -/
def perform (m : FieldMap) (c : AccessorCall) : FieldMap × Attempt DefaultProblem PrefValue :=
  match c.value with
  | some v => (m.give c.field v, .ok .absent)
  | none => (m, m.answer c.field)

def performAll (m : FieldMap) :
    List AccessorCall → FieldMap × List (Attempt DefaultProblem PrefValue)
  | [] => (m, [])
  | c :: cs =>
    let first := m.perform c
    let rest := performAll first.1 cs
    (rest.1, first.2 :: rest.2)

end FieldMap

namespace Accessor

/-- A call by the name that the generator gives to the method. -/
def perform (g : Generator) (a : Accessor) (c : AccessorCall) : Accessor × Except Fault PrefValue :=
  a.call (g.methodName c.field c.access c.isAsync) c.value.toList

def performAll (g : Generator) (a : Accessor) :
    List AccessorCall → Accessor × List (Except Fault PrefValue)
  | [] => (a, [])
  | c :: cs =>
    let first := a.perform g c
    let rest := performAll g first.1 cs
    (rest.1, first.2 :: rest.2)

/-- The one open store holds under the key of each field what the map holds for the field. -/
structure Refines (s : Schema) (ms : List Method) (a : Accessor) (m : FieldMap) : Prop where
  methods : a.methods = ms
  store : a.store = s.storeName
  opened : ∃ values, a.stores.stores = [(s.storeName, values)]
  held : ∀ f ∈ s.fields, Entries.find? a.values f.key = m f
  typed : ∀ f ∈ s.fields, ∀ v, m f = some v → f.type.Holds v

end Accessor

theorem membersOf_of_holds {v : PrefValue} (h : PrefType.stringSet.Holds v) :
    membersOf v = .ok v := by
  cases v with
  | set members => rfl
  | _ => exact h.elim

theorem storable_of_holds {type : PrefType} {v : PrefValue} (h : v = .absent ∨ type.Holds v) :
    storable type v = .ok v := by
  unfold storable
  split
  · rename_i hset
    obtain ⟨rfl, hne⟩ := hset
    exact membersOf_of_holds (h.resolve_left hne)
  · rfl

namespace StoreValues

/-- A getter answers what is held under the key, which is of the type asked for, or the default. -/
theorem read_eq {values : StoreValues} {type : PrefType} {key : Text} {default : PrefValue}
    (h : ∀ v, Entries.find? values key = some v → type.Holds v) :
    values.read type key default = .ok ((Entries.find? values key).getD default) := by
  unfold read
  cases hv : Entries.find? values key with
  | none => rfl
  | some v =>
    simp only [Option.getD_some]
    split
    · rename_i htype
      subst htype
      exact membersOf_of_holds (h v hv)
    · rfl

theorem find?_write_self (values : StoreValues) (key : Text) (v : PrefValue) :
    Entries.find? (values.write key v) key = if v = .absent then none else some v := by
  unfold write
  split
  · exact Entries.find?_erase_self values key
  · exact Entries.find?_put_self values key v

theorem find?_write_of_ne (values : StoreValues) {key key' : Text} (h : key' ≠ key)
    (v : PrefValue) : Entries.find? (values.write key v) key' = Entries.find? values key' := by
  unfold write
  split
  · exact Entries.find?_erase_of_ne values h
  · exact Entries.find?_put_of_ne values v h

end StoreValues

namespace MemoryStores

theorem values_of_opened {p : MemoryStores} {store : Text} {values : StoreValues}
    (h : p.stores = [(store, values)]) : p.values store = values := by
  simp [MemoryStores.values, h, Entries.find?]

/-- A value that fits is written through at once, and no other store is touched. -/
theorem writeThrough_eq {p : MemoryStores} {store : Text} {values : StoreValues}
    (h : p.stores = [(store, values)]) {type : PrefType} {v : PrefValue}
    (hv : v = .absent ∨ type.Holds v) (key : Text) :
    p.writeThrough store type key v =
      .ok { p with stores := [(store, values.write key v)] } := by
  simp only [writeThrough, Editor.put, storable_of_holds hv, Except.map, applyBatch,
    values_of_opened h, h]
  simp [Entries.put, StoreValues.writeAll]

end MemoryStores

namespace Accessor

theorem method?_of_mem {a : Accessor} (hnodup : (a.methods.map Method.name).Nodup) {m : Method}
    (hm : m ∈ a.methods) : a.method? m.name = some m := by
  have hmem : m ∈ a.methods.filter fun n => n.name == m.name :=
    List.mem_filter.mpr ⟨hm, beq_self_eq_true m.name⟩
  have hlast := List.getLast?_eq_some_getLast (List.ne_nil_of_mem hmem)
  obtain ⟨hn, hname⟩ := List.mem_filter.mp (List.getLast_mem (List.ne_nil_of_mem hmem))
  rw [method?, hlast]
  exact congrArg some (List.inj_on_of_nodup_map hnodup hn hm (beq_iff_eq.mp hname))

/-- What the statements of a blocking method do to the stores, and what they return. -/
def direct (a : Accessor) (argument : PrefValue) (m : Method) :
    MemoryStores × Except Fault PrefValue :=
  runDirect a.store argument a.stores (Python.statements m)

theorem run_of_blocking (a : Accessor) (argument : PrefValue) {m : Method} (hm : m.twin = none) :
    run a argument (Python.statements m) =
      ({ a with stores := (a.direct argument m).1 }, (a.direct argument m).2) := by
  cases haccess : m.access with
  | get => simp [direct, Python.statements, hm, haccess, run, runDirect]
  | set =>
    simp only [direct, Python.statements, hm, haccess, run, runDirect]
    cases a.stores.writeThrough a.store m.field.type m.field.key argument <;> rfl

/-- A method that does not block does what its twin does. -/
theorem run_of_twin {a : Accessor} {argument : PrefValue} {m blocking : Method} {twin : Text}
    (hm : m.twin = some twin) (hfound : a.method? twin = some blocking)
    (hblocking : blocking.twin = none) (haccess : blocking.access = m.access)
    (hargument : m.access = .get → argument = .absent) :
    run a argument (Python.statements m) =
      ({ a with stores := (a.direct argument blocking).1 }, (a.direct argument blocking).2) := by
  have hasync : blocking.isAsync = false := by simp [Method.isAsync, hblocking]
  cases hget : m.access with
  | get =>
    rw [hget] at haccess
    have habsent := hargument hget
    subst habsent
    simp only [Python.statements, hm, hget, run, runTwin, hfound, argumentOf, haccess, hasync,
      Bool.false_eq_true, if_false, direct]
    cases hrun : runDirect a.store .absent a.stores (Python.statements blocking) with
    | mk p result =>
      simp only [Python.statements, haccess, hblocking] at hrun
      cases result <;> simp [hblocking, hrun]
  | set =>
    rw [hget] at haccess
    simp only [Python.statements, hm, hget, run, runTwin, hfound, argumentOf, haccess, hasync,
      Bool.false_eq_true, if_false, direct, hblocking, runDirect]
    cases a.stores.writeThrough a.store blocking.field.type blocking.field.key argument <;> rfl

variable {g : Generator} {s : Schema} {ms : List Method} {a : Accessor} {m : FieldMap}
  {c : AccessorCall}

/-- A call does what the blocking method of its field does. -/
theorem perform_eq_direct (hms : g.methods s.fields = .ok ms) (hnodup : (ms.map Method.name).Nodup)
    (hmethods : a.methods = ms) (hc : c.Fits s) :
    ∃ blocking : Method, blocking.field = c.field ∧ blocking.access = c.access ∧
      blocking.twin = none ∧ c.field.defaultValue = .ok blocking.default ∧
      a.perform g c = ({ a with stores := (a.direct (c.value.getD .absent) blocking).1 },
        (a.direct (c.value.getD .absent) blocking).2) := by
  subst hmethods
  obtain ⟨called, hcalled, hfield, haccess, hasync⟩ :=
    Generator.exists_method hms hc.field c.access hc.async
  obtain ⟨blocking, hblocking, hfield', haccess', hasync'⟩ :=
    Generator.exists_method hms hc.field c.access (x := false) (by simp)
  have hnone : blocking.twin = none := by simpa [Method.isAsync] using hasync'
  obtain ⟨-, hdefault, hname', -⟩ := Generator.mem_methods hms hblocking
  obtain ⟨-, -, hname, htwin⟩ := Generator.mem_methods hms hcalled
  have hfound : a.method? (g.methodName c.field c.access c.isAsync) = some called := by
    rw [← hfield, ← haccess, ← hasync, ← hname]
    exact method?_of_mem hnodup hcalled
  have hfound' : a.method? (g.methodName c.field c.access false) = some blocking := by
    rw [← hfield', ← haccess', ← hasync', ← hname']
    exact method?_of_mem hnodup hblocking
  have hargument : argumentOf called c.value.toList = .ok (c.value.getD .absent) := by
    unfold argumentOf
    rw [haccess, AccessorCall.access]
    cases c.value <;> rfl
  refine ⟨blocking, hfield', haccess', hnone, hfield' ▸ hdefault, ?_⟩
  simp only [perform, call, hfound, hargument]
  cases hx : c.isAsync with
  | false =>
    rw [hx, hfound'] at hfound
    cases hfound
    exact run_of_blocking a _ hnone
  | true =>
    have htwin' : called.twin = some (g.methodName c.field c.access false) := by
      rw [(htwin (hasync.trans hx)).2, hfield, haccess]
    refine run_of_twin htwin' hfound' hnone (haccess'.trans haccess.symm) fun hget => ?_
    rw [haccess, AccessorCall.access] at hget
    cases hv : c.value with
    | none => rfl
    | some v => simp [hv] at hget

/-- Writing under the key of one field is giving the value to that field alone. -/
theorem Refines.write (hkeys : (s.fields.map Field.key).Nodup) (h : a.Refines s ms m) {f : Field}
    (hf : f ∈ s.fields) {v : PrefValue} (hv : v = .absent ∨ f.type.Holds v) {values : StoreValues}
    (hheld : ∀ f ∈ s.fields, Entries.find? values f.key = m f) :
    Refines s ms
      { a with stores := { a.stores with stores := [(s.storeName, values.write f.key v)] } }
      (m.give f v) where
  methods := h.methods
  store := h.store
  opened := ⟨_, rfl⟩
  held := by
    intro f' hf'
    have hvalues : ({ a with stores := { a.stores with
        stores := [(s.storeName, values.write f.key v)] } } : Accessor).values =
          values.write f.key v := by
      simp only [Accessor.values, h.store]
      exact MemoryStores.values_of_opened rfl
    rw [hvalues]
    by_cases hff : f' = f
    · rw [hff, FieldMap.give_self, StoreValues.find?_write_self]
    · have hne : f'.key ≠ f.key := fun hkey => hff (List.inj_on_of_nodup_map hkeys hf' hf hkey)
      rw [FieldMap.give_of_ne m hff, StoreValues.find?_write_of_ne _ hne, hheld f' hf']
  typed := by
    intro f' hf' w hw
    by_cases hff : f' = f
    · subst hff
      rw [FieldMap.give_self] at hw
      split at hw
      · cases hw
      · rename_i hne
        cases hw
        exact hv.resolve_left hne
    · rw [FieldMap.give_of_ne m hff] at hw
      exact h.typed f' hf' w hw

/-- Every call answers what the map answers, and leaves the two alike. -/
theorem Refines.perform (hms : g.methods s.fields = .ok ms) (hnodup : (ms.map Method.name).Nodup)
    (hkeys : (s.fields.map Field.key).Nodup) (h : a.Refines s ms m) (hc : c.Fits s) :
    ∃ v, (a.perform g c).2 = .ok v ∧ (m.perform c).2 = .ok v ∧
      (a.perform g c).1.Refines s ms (m.perform c).1 := by
  obtain ⟨blocking, hfield, haccess, hnone, hdefault, hperform⟩ :=
    perform_eq_direct hms hnodup h.methods hc
  obtain ⟨values, hopened⟩ := h.opened
  have hvalues : a.stores.values a.store = values := by
    rw [h.store]
    exact MemoryStores.values_of_opened hopened
  have hheld : ∀ f ∈ s.fields, Entries.find? values f.key = m f := hvalues ▸ h.held
  rw [hperform]
  cases hv : c.value with
  | none =>
    have hget : blocking.access = .get := by rw [haccess, AccessorCall.access, hv]; rfl
    have hfind := hheld c.field hc.field
    have hread : values.read c.field.type c.field.key blocking.default =
        .ok ((m c.field).getD blocking.default) := by
      rw [← hfind]
      exact StoreValues.read_eq fun v hfound =>
        h.typed c.field hc.field v (hfind.symm.trans hfound)
    have hdirect : a.direct .absent blocking =
        (a.stores, .ok ((m c.field).getD blocking.default)) := by
      simp only [direct, Python.statements, hget, hnone, runDirect, hfield, MemoryStores.get,
        hvalues, hread]
    refine ⟨(m c.field).getD blocking.default, by simp [hdirect], ?_, ?_⟩
    · simp only [FieldMap.perform, hv, FieldMap.answer]
      cases m c.field <;> simp [hdefault]
    · simp only [FieldMap.perform, hv, Option.getD_none, hdirect]
      exact h
  | some v =>
    have hset : blocking.access = .set := by rw [haccess, AccessorCall.access, hv]; rfl
    have hdirect : a.direct v blocking = ({ a.stores with
        stores := [(s.storeName, values.write c.field.key v)] }, .ok .absent) := by
      simp only [direct, Python.statements, hset, hnone, runDirect, hfield, h.store,
        MemoryStores.writeThrough_eq hopened (hc.value v hv)]
    refine ⟨.absent, by simp [hdirect], by simp [FieldMap.perform, hv], ?_⟩
    simp only [FieldMap.perform, hv, Option.getD_some, hdirect]
    exact h.write hkeys hc.field (hc.value v hv) hheld

/-- So does a run of calls. -/
theorem Refines.performAll (hms : g.methods s.fields = .ok ms)
    (hnodup : (ms.map Method.name).Nodup) (hkeys : (s.fields.map Field.key).Nodup)
    {cs : List AccessorCall} (h : a.Refines s ms m) (hcs : ∀ c ∈ cs, c.Fits s) :
    ∃ values : List PrefValue, (a.performAll g cs).2 = values.map .ok ∧
      (m.performAll cs).2 = values.map .ok ∧
      (a.performAll g cs).1.Refines s ms (m.performAll cs).1 := by
  induction cs generalizing a m with
  | nil => exact ⟨[], rfl, rfl, h⟩
  | cons c cs ih =>
    obtain ⟨v, hv, hv', hnext⟩ := h.perform hms hnodup hkeys (hcs c List.mem_cons_self)
    obtain ⟨values, hvalues, hvalues', hlast⟩ :=
      ih hnext fun c' hc' => hcs c' (List.mem_cons_of_mem c hc')
    refine ⟨v :: values, ?_, ?_, hlast⟩
    · rw [Accessor.performAll, List.map_cons, hv, hvalues]
    · rw [FieldMap.performAll, List.map_cons, hv', hvalues']

end Accessor

end PrefAccessor
