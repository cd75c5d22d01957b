import PrefAccessor.PrefType

/-!
# Stores in memory

Named stores of preference values, and editors that collect writes to one store until they are
applied. A store never holds the absent value: to write it removes the key. Writes that are not yet
applied show nowhere. Neither the stores nor the editors check that a value is of the type asked for,
except that an operation on string sets needs something that has members.
-/

namespace PrefAccessor

set_option autoImplicit false

abbrev StoreValues := Entries Text PrefValue

/-- Writes that wait for one store; a later one for the same key replaces an earlier one. -/
structure Editor where
  store : Text
  pending : StoreValues
  deriving DecidableEq

structure MemoryStores where
  stores : Entries Text StoreValues
  /-- The editors in the order in which they were opened. -/
  editors : List Editor
  deriving DecidableEq

/-- The set of the members of a value; those of a text are its characters. -/
def membersOf : PrefValue → Except Fault PrefValue
  | .set members => .ok (.set members)
  | .string s => .ok (PrefValue.setOf (s.toList.map fun c => Text.ofList [c]))
  | _ => .error .wrongKind

/-- A value on its way into a store under an operation of the given type. -/
def storable (type : PrefType) (value : PrefValue) : Except Fault PrefValue :=
  if type = .stringSet ∧ value ≠ .absent then membersOf value else .ok value

namespace StoreValues

/-- One write; the absent value removes the key. -/
def write (values : StoreValues) (key : Text) (value : PrefValue) : StoreValues :=
  if value = .absent then Entries.erase values key else Entries.put values key value

def writeAll (values : StoreValues) (batch : StoreValues) : StoreValues :=
  batch.foldl (fun values e => write values e.1 e.2) values

/-- What a getter of the given type answers. -/
def read (values : StoreValues) (type : PrefType) (key : Text) (default : PrefValue) :
    Except Fault PrefValue :=
  match Entries.find? values key with
  | none => .ok default
  | some value => if type = .stringSet then membersOf value else .ok value

end StoreValues

namespace Editor

def put (e : Editor) (type : PrefType) (key : Text) (value : PrefValue) : Except Fault Editor :=
  (storable type value).map fun value => { e with pending := Entries.put e.pending key value }

end Editor

namespace MemoryStores

def empty : MemoryStores := ⟨[], []⟩

/-- The contents of a store, which is empty before it is opened. -/
def values (p : MemoryStores) (store : Text) : StoreValues :=
  (Entries.find? p.stores store).getD []

/-- Opens a store, which keeps its contents if it is open already. -/
def openStore (p : MemoryStores) (store : Text) : MemoryStores :=
  { p with stores := Entries.put p.stores store (p.values store) }

def edit (p : MemoryStores) (store : Text) : MemoryStores :=
  { p.openStore store with editors := p.editors ++ [⟨store, []⟩] }

def applyBatch (p : MemoryStores) (store : Text) (batch : StoreValues) : MemoryStores :=
  { p with stores := Entries.put p.stores store ((p.values store).writeAll batch) }

def put (p : MemoryStores) (editor : Nat) (type : PrefType) (key : Text) (value : PrefValue) :
    Except Fault MemoryStores :=
  match p.editors[editor]? with
  | none => .error .outOfBounds
  | some e => (e.put type key value).map fun e => { p with editors := p.editors.set editor e }

/-- Applies what an editor has collected, and empties it. -/
def apply (p : MemoryStores) (editor : Nat) : Except Fault MemoryStores :=
  match p.editors[editor]? with
  | none => .error .outOfBounds
  | some e =>
    .ok { p.applyBatch e.store e.pending with
          editors := p.editors.set editor { e with pending := [] } }

def get (p : MemoryStores) (store : Text) (type : PrefType) (key : Text)
    (default : PrefValue) : Except Fault PrefValue :=
  (p.values store).read type key default

/-- One value written through an editor of its own that is applied at once. -/
def writeThrough (p : MemoryStores) (store : Text) (type : PrefType) (key : Text)
    (value : PrefValue) : Except Fault MemoryStores :=
  (Editor.put ⟨store, []⟩ type key value).map fun e => p.applyBatch store e.pending

end MemoryStores

end PrefAccessor
