import PrefAccessor.Schema.Error

/-!
# Schemas

A schema is one preference aggregate: the class to generate, the store it reads and writes, and one
field per stored preference. Supplies the checks that a schema passes before it is generated: it
has a field, and no two fields share a storage key unless that is allowed.
-/

namespace PrefAccessor

set_option autoImplicit false

structure Field where
  name : Text
  key : Text
  type : PrefType
  /-- The default as declared, to be read by the rule of the type. -/
  default : Option Text
  isAsync : Bool
  deriving DecidableEq, Repr

structure Schema where
  name : Text
  package : Text
  storeName : Text
  fields : List Field
  description : Option Text
  deriving DecidableEq, Repr

/-- `a ≤ b` in the order of code points. -/
def textLe (a b : Text) : Bool :=
  decide (a ≤ b)

def sortedGroups (groups : Entries Text (List Text)) : Entries Text (List Text) :=
  groups.mergeSort fun a b => textLe a.1 b.1

/-- The preference type of a declared type. One that has none is refused by its label; `field` is the
field that it is declared for. -/
def Annotation.prefType (declared : Annotation) (field : Text) : Attempt RefusalCause PrefType :=
  match declared.resolve with
  | .error k => Attempt.stop k
  | .ok (some type) => .ok type
  | .ok .none =>
    match declared.label? with
    | .error k => Attempt.stop k
    | .ok label => Attempt.refuse (.unsupportedType field label)

namespace Field

/-- What a getter of this field answers while nothing is stored. -/
def defaultValue (f : Field) : Attempt DefaultProblem PrefValue :=
  f.type.defaultValue f.default

/-- A field of `aggregate` as declared, if its type is supported and holds the default. -/
def declare (aggregate name key : Text) (resolved : Except Fault (Option PrefType))
    (typeLabel : Except Fault Text) (default : Option Text) (isAsync : Bool) :
    Attempt Refusal Field :=
  match resolved with
  | .error k => Attempt.stop k
  | .ok none =>
    match typeLabel with
    | .error k => Attempt.stop k
    | .ok label => Attempt.refuse ⟨.unsupportedType name label, some aggregate⟩
  | .ok (some type) =>
    match Attempt.mapRefusal (fun p => Refusal.mk (.invalidDefault p) (some aggregate))
      (type.defaultValue default) with
    | .ok _ => .ok ⟨name, key, type, default, isAsync⟩
    | .error e => .error e

end Field

/-- The literal that a value given as a default stands for. -/
def literalOf : Json → Except Fault Text
  | .bool b => .ok (if b then "true" else "false")
  | v => if v.isWritable then .ok v.display else .error .badValue

namespace Schema

def field? (s : Schema) (name : Text) : Option Field :=
  s.fields.find? fun f => f.name == name

def asyncFields (s : Schema) : List Field :=
  s.fields.filter (·.isAsync)

/-- Each storage key of two or more fields with the names of these fields. -/
def sharedKeys (s : Schema) : Entries Text (List Text) :=
  (sharedGroups Field.key s.fields).map fun g => (g.1, g.2.map Field.name)

def validate (s : Schema) (allowSharedKeys : Bool) : Option Refusal :=
  if s.fields = [] then some ⟨.empty s.name, some s.name⟩
  else if allowSharedKeys ∨ s.sharedKeys = [] then none
  else some ⟨.duplicateKeys s.name (sortedGroups s.sharedKeys), some s.name⟩

end Schema

end PrefAccessor
