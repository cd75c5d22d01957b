import PrefAccessor.ClassOrder
import PrefAccessor.Schema.Basic
import PrefAccessor.Text.Lines

/-!
# Declarations by class

A class declares an aggregate when it carries a store tag of its own. Its fields are the attributes
whose newest annotation has a key attached, in the order in which the attribute names first occur
from the most distant class in the resolution order down to the class itself. Tags and descriptions
are not inherited.
-/

namespace PrefAccessor

set_option autoImplicit false

structure ClassDeclaration where
  /-- Tells a class from another one that declares the same. -/
  identity : Nat
  name : Text
  /-- The store name of the class's own tag, not yet checked. -/
  tag : Option Json
  documentation : Option Text
  moduleName : Text
  bases : List ClassDeclaration
  /-- The attributes with their annotations; a later one replaces an earlier one of its name. -/
  attributes : List (Text × Annotation)
  /-- What a text among the annotations stands for in the class and its module. -/
  meaning : Annotation.Meaning
  deriving Inhabited

namespace ClassDeclaration

mutual

/-- The class and all its ancestors in the order in which they are asked for what the class has: the
orders of the bases and the bases themselves, merged. Classes that have none cannot be made. -/
def resolutionOrder? (c : ClassDeclaration) : Option (List ClassDeclaration) :=
  match c with
  | ⟨identity, name, tag, documentation, moduleName, bases, attributes, meaning⟩ =>
    (resolutionOrders? bases).bind fun orders =>
      (mergeOrders ClassDeclaration.identity (orders ++ [bases]).flatten.length
        (orders ++ [bases])).map
          (⟨identity, name, tag, documentation, moduleName, bases, attributes, meaning⟩ :: ·)

def resolutionOrders? : List ClassDeclaration → Option (List (List ClassDeclaration))
  | [] => some []
  | c :: cs =>
    (resolutionOrder? c).bind fun order => (resolutionOrders? cs).map (order :: ·)

end

/-- The class and all its ancestors, the most distant one first. -/
def hierarchy (c : ClassDeclaration) : List ClassDeclaration :=
  (c.resolutionOrder?.getD []).reverse

/-- The class's own attributes with their annotations read. -/
def readAttributes (meaning : Annotation.Meaning) :
    List (Text × Annotation) → Except Text (List (Text × Annotation))
  | [] => .ok []
  | (name, a) :: rest =>
    match a.readTexts meaning with
    | .error reason => .error reason
    | .ok a => (readAttributes meaning rest).map ((name, a.normalize) :: ·)

/-- The attributes of classes, class by class. -/
def readHierarchy : List ClassDeclaration → Except Text (List (Text × Annotation))
  | [] => .ok []
  | c :: cs =>
    match readAttributes c.meaning (Entries.ofList c.attributes) with
    | .error reason => .error reason
    | .ok own => (readHierarchy cs).map (own ++ ·)

/-- The newest annotation of each attribute in the hierarchy. -/
def annotations (c : ClassDeclaration) : Except Text (Entries Text Annotation) :=
  (readHierarchy c.hierarchy).map Entries.ofList

def keyMarker? (metadata : List Marker) : Option (Json × Json) :=
  metadata.findSome? fun m =>
    match m with
    | .key key async => some (key, async)
    | _ => none

def defaultMarker? (metadata : List Marker) : Option Json :=
  metadata.findSome? fun m =>
    match m with
    | .default value => some value
    | _ => none

def defaultLiteral (metadata : List Marker) : Except Fault (Option Text) :=
  match defaultMarker? metadata with
  | none => .ok none
  | some value => (literalOf value).map some

/-- The field of one attribute; without a key it has none. -/
def attributeField (aggregate name : Text) (type : Annotation) : Attempt Refusal (List Field) :=
  match type with
  | .annotated declared metadata =>
    match keyMarker? metadata with
    | none => .ok []
    | some (.string key, async) =>
      if key = "" then
        Attempt.refuse (Refusal.malformed (some aggregate) (.keyOfAttribute aggregate name))
      else
        match async with
        | .bool isAsync => do
          let default ← Attempt.ofFaults (defaultLiteral metadata)
          let field ← Field.declare aggregate name key declared.resolve declared.label? default isAsync
          .ok [field]
        | _ =>
          Attempt.refuse (Refusal.malformed (some aggregate) (.asyncOfAttribute aggregate name))
    | some _ =>
      Attempt.refuse (Refusal.malformed (some aggregate) (.keyOfAttribute aggregate name))
  | _ => .ok []

def fieldsOf (aggregate : Text) (attributes : List (Text × Annotation)) :
    Attempt Refusal (List Field) :=
  Attempt.collect (fun e => attributeField aggregate e.1 e.2) attributes

def storeName (c : ClassDeclaration) : Attempt Refusal Text :=
  match c.tag with
  | none => Attempt.refuse (Refusal.malformed (some c.name) (.untagged c.name))
  | some (.string store) =>
    if store = "" then Attempt.refuse (Refusal.malformed (some c.name) (.storeName c.name))
    else .ok store
  | some _ => Attempt.refuse (Refusal.malformed (some c.name) (.storeName c.name))

def fields (c : ClassDeclaration) : Attempt Refusal (List Field) := do
  let _ ← c.storeName
  match c.annotations with
  | .error reason => Attempt.refuse (Refusal.malformed (some c.name) (.annotations c.name reason))
  | .ok annotations => fieldsOf c.name annotations

/-- The first line of the documentation. One that begins with the signature of the class counts as
none, and one of blanks only has no first line to give. -/
def description (c : ClassDeclaration) : Except Fault (Option Text) :=
  match c.documentation with
  | none => .ok none
  | some text =>
    if text = "" ∨ (c.name ++ "(").toList.isPrefixOf text.toList then .ok none
    else
      match Text.lines (Text.trim text.toList) with
      | [] => .error .outOfBounds
      | line :: _ => .ok (some (Text.ofList line))

end ClassDeclaration

namespace Schema

/-- The schema that a class declares, in its module's package unless another is given. -/
def ofClass (c : ClassDeclaration) (package : Option Text) : Attempt Refusal Schema := do
  let fields ← c.fields
  let storeName ← c.storeName
  let description ← Attempt.ofFaults c.description
  if fields = [] then Attempt.refuse ⟨.empty c.name, some c.name⟩
  else .ok ⟨c.name, package.getD c.moduleName, storeName, fields, description⟩

end Schema

/-- What an aggregate can be declared by. -/
inductive Source where
  | schema (schema : Schema)
  | declaration (declaration : ClassDeclaration)
  | document (document : Json)

namespace Source

/-- The name that messages lay a refusal to when it names no aggregate itself. -/
def label : Source → Option Text
  | .schema s => some s.name
  | .declaration c => some c.name
  | .document d =>
    match d.member? "name" with
    | some (.string name) => some name
    | _ => none

end Source

end PrefAccessor
