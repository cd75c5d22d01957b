import PrefAccessor.Generator
import PrefAccessor.Store.Memory
import PrefAccessor.Text.Identifier

/-!
# Running accessors

An instance of a generated Python class over stores in memory. A call runs the statements of the
method of that name; of two methods of one name the later one counts, also where a method runs its
twin. Nothing here reads the text of the class, except that a text which is no class has no instance.
-/

namespace PrefAccessor

set_option autoImplicit false

structure Accessor where
  methods : List Method
  /-- The name of the one store that the accessor opens. -/
  store : Text
  stores : MemoryStores

namespace Accessor

def isClassName (name : Text) : Bool :=
  Text.isIdentifier name.toList && !Python.reserved.keywords.contains name

/-- An instance of the class of an artifact over fresh stores. A text without an encoded form cannot be
compiled. -/
def ofArtifact (g : Generator) (a : Artifact) : Except Fault Accessor :=
  if !a.source.isEncodable then .error .unencodable
  else if a.target ≠ .python ∨ !isClassName a.accessorClass.name then .error .syntaxError
  else
    match g.indent with
    | .error k => .error k
    | .ok indent =>
      if indent = "" then .error .indentation
      else
        let store := a.accessorClass.schema.storeName
        .ok ⟨a.accessorClass.methods, store, MemoryStores.empty.openStore store⟩

def method? (a : Accessor) (name : Text) : Option Method :=
  (a.methods.filter fun m => m.name == name).getLast?

/-- What the instance holds besides its methods. -/
def members : List Text := ["STORE_NAME", "_store", "_executor"]

/-- Runs statements that touch nothing but the store. -/
def runDirect (store : Text) (argument : PrefValue) (p : MemoryStores) :
    List Python.Statement → MemoryStores × Except Fault PrefValue
  | [] => (p, .ok .absent)
  | .returnRead type key default :: _ => (p, p.get store type key default)
  | .write type key :: rest =>
    match p.writeThrough store type key argument with
    | .ok p => runDirect store argument p rest
    | .error k => (p, .error k)
  | _ :: rest => runDirect store argument p rest

/-- The argument of a call, which a setter has and a getter has not. -/
def argumentOf (m : Method) (arguments : List PrefValue) : Except Fault PrefValue :=
  match m.access, arguments with
  | .get, [] => .ok .absent
  | .set, [value] => .ok value
  | _, _ => .error .wrongKind

/-- What running a method elsewhere yields. -/
inductive Awaited where
  | value (value : PrefValue)
  /-- Something that would have to be awaited in turn. -/
  | suspended
  deriving DecidableEq, Repr

/-- Runs a method for another one that awaits it. -/
def runTwin (a : Accessor) (name : Text) (arguments : List PrefValue) :
    Accessor × Except Fault Awaited :=
  match a.method? name with
  | none => (a, .error .missingOperation)
  | some m =>
    match argumentOf m arguments with
    | .error k => (a, .error k)
    | .ok argument =>
      if m.isAsync then (a, .ok .suspended)
      else
        match runDirect a.store argument a.stores (Python.statements m) with
        | (p, .ok v) => ({ a with stores := p }, .ok (.value v))
        | (p, .error k) => ({ a with stores := p }, .error k)

def run (a : Accessor) (argument : PrefValue) :
    List Python.Statement → Accessor × Except Fault PrefValue
  | [] => (a, .ok .absent)
  | .returnRead type key default :: _ => (a, a.stores.get a.store type key default)
  | .write type key :: rest =>
    match a.stores.writeThrough a.store type key argument with
    | .ok p => run { a with stores := p } argument rest
    | .error k => (a, .error k)
  | .takeLoop :: rest => run a argument rest
  | .returnAwaited getter :: _ =>
    match runTwin a getter [] with
    | (a, .ok (.value v)) => (a, .ok v)
    | (a, .ok .suspended) => (a, .error .wrongKind)
    | (a, .error k) => (a, .error k)
  | .await setter :: rest =>
    match runTwin a setter [argument] with
    | (a, .ok _) => run a argument rest
    | (a, .error k) => (a, .error k)

/-- A call by name, which is awaited if the method does not block. -/
def call (a : Accessor) (name : Text) (arguments : List PrefValue) :
    Accessor × Except Fault PrefValue :=
  match a.method? name with
  | some m =>
    match argumentOf m arguments with
    | .ok argument => run a argument (Python.statements m)
    | .error k => (a, .error k)
  | none => (a, .error (if members.contains name then .wrongKind else .missingOperation))

def values (a : Accessor) : StoreValues :=
  a.stores.values a.store

end Accessor

end PrefAccessor
