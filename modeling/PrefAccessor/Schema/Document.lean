import PrefAccessor.Json.Reader
import PrefAccessor.Schema.Basic

/-!
# Schema documents

Schemas written as JSON objects, and files that hold one of them or a list. A member of the list of
fields that has no storage key is not a preference and is passed over; every other fault of form
refuses the whole document at the first one met.
-/

namespace PrefAccessor

set_option autoImplicit false

namespace Field

def documentDefault (aggregate name : Text) : Option Json → Attempt Refusal (Option Text)
  | none => .ok none
  | some .null => .ok none
  | some (.array _) =>
    Attempt.refuse (Refusal.malformed (some aggregate) (.defaultOfField name aggregate))
  | some (.object _) =>
    Attempt.refuse (Refusal.malformed (some aggregate) (.defaultOfField name aggregate))
  | some v => Attempt.ofFaults ((literalOf v).map some)

def documentName (aggregate : Text) (position : Nat) (key : Text) :
    Option Json → Attempt Refusal Text
  | none => .ok key
  | some .null => .ok key
  | some (.string name) =>
    if name = "" then
      Attempt.refuse (Refusal.malformed (some aggregate) (.nameOfField position aggregate))
    else .ok name
  | some _ => Attempt.refuse (Refusal.malformed (some aggregate) (.nameOfField position aggregate))

def documentKey (aggregate : Text) (position : Nat) : Json → Attempt Refusal Text
  | .string key =>
    if key = "" then
      Attempt.refuse (Refusal.malformed (some aggregate) (.keyOfField position aggregate))
    else .ok key
  | _ => Attempt.refuse (Refusal.malformed (some aggregate) (.keyOfField position aggregate))

/-- The name of the declared type, before it is looked up. -/
def documentType (aggregate name : Text) : Option Json → Attempt Refusal Text
  | none => .ok "string"
  | some (.string type) => .ok type
  | some _ => Attempt.refuse (Refusal.malformed (some aggregate) (.typeOfField name aggregate))

def documentAsync (aggregate name : Text) : Option Json → Attempt Refusal Bool
  | none => .ok false
  | some (.bool b) => .ok b
  | some _ => Attempt.refuse (Refusal.malformed (some aggregate) (.asyncOfField name aggregate))

/-- The field that the object at `position` declares; `key` is its storage key as given. -/
def ofDocument (aggregate : Text) (position : Nat) (raw : Json) (key : Json) :
    Attempt Refusal Field := do
  let key ← documentKey aggregate position key
  let name ← documentName aggregate position key (raw.member? "name")
  let declared ← documentType aggregate name (raw.member? "type")
  let isAsync ← documentAsync aggregate name (raw.member? "async")
  let default ← documentDefault aggregate name (raw.member? "default")
  declare aggregate name key (.ok (typeNamed? declared)) (.ok declared) default isAsync

/-- The field that the member at `position` of a list of fields declares; without a key it declares
none. -/
def ofEntry (aggregate : Text) (position : Nat) (raw : Json) : Attempt Refusal (List Field) :=
  match raw with
  | .object _ =>
    match raw.member? "key" with
    | none => .ok []
    | some key => do
      let field ← ofDocument aggregate position raw key
      .ok [field]
  | _ => Attempt.refuse (Refusal.malformed (some aggregate) (.fieldNotObject position aggregate))

def ofDocuments (aggregate : Text) (raws : List Json) : Attempt Refusal (List Field) :=
  Attempt.collect (fun e => ofEntry aggregate e.2 e.1) raws.zipIdx

end Field

namespace Schema

/-- A package as given, where null stands for the empty one. -/
def packageText (aggregate : Text) : Json → Attempt Refusal Text
  | .null => .ok ""
  | .string package => .ok package
  | _ => Attempt.refuse (Refusal.malformed (some aggregate) (.packageNotString aggregate))

/-- The package of a document, which a null or missing member leaves to `fallback`. -/
def documentPackage (aggregate : Text) (fallback : Json) : Option Json → Attempt Refusal Text
  | none => packageText aggregate fallback
  | some .null => packageText aggregate fallback
  | some package => packageText aggregate package

/-- The name of the aggregate, without which nothing can be laid to it. -/
def documentName (data : Json) : Attempt Refusal Text :=
  match data with
  | .object _ =>
    match data.member? "name" with
    | some (.string name) =>
      if name = "" then Attempt.refuse (Refusal.malformed none .nameMissing) else .ok name
    | _ => Attempt.refuse (Refusal.malformed none .nameMissing)
  | _ => Attempt.refuse (Refusal.malformed none (.notAnObject data.kindName))

def documentStore (name : Text) : Option Json → Attempt Refusal Text
  | none => .ok name
  | some (.string store) =>
    if store = "" then Attempt.refuse (Refusal.malformed (some name) (.storeName name))
    else .ok store
  | some _ => Attempt.refuse (Refusal.malformed (some name) (.storeName name))

def documentDescription (name : Text) : Option Json → Attempt Refusal (Option Text)
  | none => .ok none
  | some .null => .ok none
  | some (.string text) => .ok (some text)
  | some _ => Attempt.refuse (Refusal.malformed (some name) (.descriptionNotString name))

/-- The list of fields, before any of them is looked at. -/
def documentFields (name : Text) : Option Json → Attempt Refusal (List Json)
  | none => .ok []
  | some (.array raws) => .ok raws
  | some _ => Attempt.refuse (Refusal.malformed (some name) (.fieldsNotList name))

/-- The schema that a document declares; `package` is its package where it sets none itself. -/
def ofDocument (data : Json) (package : Json) : Attempt Refusal Schema := do
  let name ← documentName data
  let storeName ← documentStore name (data.member? "store")
  let package ← documentPackage name package (data.member? "package")
  let description ← documentDescription name (data.member? "description")
  let raws ← documentFields name (data.member? "fields")
  let fields ← Field.ofDocuments name raws
  if fields = [] then Attempt.refuse ⟨.empty name, some name⟩
  else .ok ⟨name, package, storeName, fields, description⟩

end Schema

namespace Document

/-- The first member of a list of aggregates, counted from `position`, that is no object. -/
def firstOther (path : Text) : Nat → List Json → Option SchemaProblem
  | _, [] => none
  | position, item :: rest =>
    match item with
    | .object _ => firstOther path (position + 1) rest
    | _ => some (.aggregateNotObject position path item.kindName)

/-- A document under the package of its file, which its own package overrides. -/
def inheritPackage (package : Json) : Json → Json
  | .object members => .object (Entries.merge [("package", package)] members)
  | item => item

def ofValue (path : Text) (value : Json) : Attempt Refusal (List Json) :=
  match value.member? "aggregates" with
  | none => .ok [value]
  | some (.array items) =>
    match firstOther path 0 items with
    | some problem => Attempt.refuse (Refusal.malformed none problem)
    | none =>
      match value.member? "package" with
      | some package => .ok (if package.isSet then items.map (inheritPackage package) else items)
      | none => .ok items
  | some _ => Attempt.refuse (Refusal.malformed none (.aggregatesNotList path))

def load (tree : FileTree) (path : Path) : Attempt Refusal (List Json) := do
  let shown := path.toString
  let found ← Attempt.ofFaults (tree.exists? path)
  if !found then Attempt.refuse (Refusal.malformed none (.fileNotFound shown))
  let text ← Attempt.mapRefusal (fun e => Refusal.malformed none (.fileUnreadable shown e))
    (tree.readText path)
  match Json.read text with
  | .ok value => ofValue shown value
  | .error .malformed => Attempt.refuse (Refusal.malformed none (.fileMalformed shown))
  | .error .numeralTooLong => Attempt.stop .badValue

end Document

end PrefAccessor
