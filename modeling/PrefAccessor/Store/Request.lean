import PrefAccessor.Store.Memory

/-!
# Requests to stores

Calls by name on a set of stores. The name of an operation ends in that of a type; editors are
numbered from zero in the order in which they were opened, and a negative number counts from the
last one back.
-/

namespace PrefAccessor

set_option autoImplicit false

inductive StoreRequest where
  | edit (store : Text)
  | put (type : PrefType) (editor : Int) (key : Text) (value : PrefValue)
  /-- An operation that editors do not have. -/
  | unknownPut (editor : Int)
  | apply (editor : Int)
  | get (type : PrefType) (store key : Text) (default : PrefValue)
  /-- An operation that stores do not have. -/
  | unknownGet (store : Text)
  deriving DecidableEq, Repr

inductive StoreReply where
  | nothing
  /-- The editor of the request. -/
  | sameEditor
  | value (value : PrefValue)
  deriving DecidableEq, Repr

namespace StoreRequest

/-- The type whose operation begins with `verb` and an underscore. -/
def typeOf? (verb name : Text) : Option PrefType :=
  PrefType.all.find? fun t => verb ++ "_" ++ t.operation == name

def editorOf? : PrefValue → Option Int
  | .int n => some n
  | .bool b => some (if b then 1 else 0)
  | _ => none

def toEditor (name : Text) (editor : Int) (arguments : List PrefValue) :
    Except Fault StoreRequest :=
  match typeOf? "put" name, arguments with
  | some type, [.string key, value] => .ok (.put type editor key value)
  | some _, _ => .error .wrongKind
  | none, _ =>
    if name = "apply" then
      if arguments = [] then .ok (.apply editor) else .error .wrongKind
    else .ok (.unknownPut editor)

def toStore (name store : Text) (arguments : List PrefValue) : Except Fault StoreRequest :=
  match typeOf? "get" name, arguments with
  | some type, [.string key, default] => .ok (.get type store key default)
  | some _, _ => .error .wrongKind
  | none, _ =>
    if name = "edit" then
      if arguments = [] then .ok (.edit store) else .error .wrongKind
    else .ok (.unknownGet store)

/-- The request that a name with arguments stands for. -/
def ofCall (name : Text) (arguments : List PrefValue) : Except Fault StoreRequest :=
  if name = "apply" ∨ ("put_" : Text).toList.isPrefixOf name.toList then
    match arguments with
    | first :: rest =>
      match editorOf? first with
      | some editor => toEditor name editor rest
      | none => .error .wrongKind
    | [] => .error .wrongKind
  else
    match arguments with
    | .string store :: rest => toStore name store rest
    | _ => .error .wrongKind

/-- The position of an editor among `count`. -/
def position (count : Nat) (editor : Int) : Except Fault Nat :=
  let n := if editor < 0 then editor + count else editor
  if 0 ≤ n ∧ n < count then .ok n.toNat else .error .outOfBounds

def run (p : MemoryStores) : StoreRequest → MemoryStores × Except Fault StoreReply
  | .edit store => (p.edit store, .ok .nothing)
  | .put type editor key value =>
    match (position p.editors.length editor).bind fun i => p.put i type key value with
    | .ok p => (p, .ok .sameEditor)
    | .error k => (p, .error k)
  | .unknownPut editor =>
    match position p.editors.length editor with
    | .ok _ => (p, .error .missingOperation)
    | .error k => (p, .error k)
  | .apply editor =>
    match (position p.editors.length editor).bind p.apply with
    | .ok p => (p, .ok .nothing)
    | .error k => (p, .error k)
  | .get type store key default =>
    let p := p.openStore store
    (p, (p.get store type key default).map .value)
  | .unknownGet store => (p.openStore store, .error .missingOperation)

end StoreRequest

/-- What an application's own stores have to offer to the generated accessors. -/
inductive StoreInterface where
  | editor
  | store
  | provider
  deriving DecidableEq, Repr

namespace StoreInterface

def ofName? : Text → Option StoreInterface
  | "StoreEditor" => some .editor
  | "KeyValueStore" => some .store
  | "StoreProvider" => some .provider
  | _ => none

def operations : StoreInterface → List Text
  | .editor => PrefType.all.map (("put_" : Text) ++ ·.operation) ++ [.plain "apply"]
  | .store => PrefType.all.map (("get_" : Text) ++ ·.operation) ++ [.plain "edit"]
  | .provider => ["open_store"]

/-- Whether operations of these names make up the interface. -/
def isMetBy (i : StoreInterface) (names : List Text) : Bool :=
  i.operations.all names.contains

end StoreInterface

end PrefAccessor
