import PrefAccessor.Annotation
import PrefAccessor.FileTree

/-!
# Why an aggregate is not generated

The causes for which one aggregate is refused, each with its wording, and the aggregate that the
refusal belongs to where it is known.
-/

namespace PrefAccessor

set_option autoImplicit false

/-- Why a declaration is malformed. `aggregate` is its name; a position counts from zero. -/
inductive SchemaProblem where
  | untagged (aggregate : Text)
  | storeName (aggregate : Text)
  /-- In the words in which reading the annotations failed. -/
  | annotations (aggregate : Text) (reason : Text)
  | keyOfAttribute (aggregate member : Text)
  | asyncOfAttribute (aggregate member : Text)
  | notAnObject (kind : Text)
  | nameMissing
  | packageNotString (aggregate : Text)
  | descriptionNotString (aggregate : Text)
  | fieldsNotList (aggregate : Text)
  | fieldNotObject (position : Nat) (aggregate : Text)
  | keyOfField (position : Nat) (aggregate : Text)
  | nameOfField (position : Nat) (aggregate : Text)
  | typeOfField (field aggregate : Text)
  | asyncOfField (field aggregate : Text)
  | defaultOfField (field aggregate : Text)
  | noDeclaration (kind : Text)
  | fileNotFound (path : Text)
  | fileMalformed (path : Text)
  | fileUnreadable (path : Text) (reason : OsError)
  | aggregatesNotList (path : Text)
  | aggregateNotObject (position : Nat) (path kind : Text)
  deriving DecidableEq

inductive RefusalCause where
  | malformed (problem : SchemaProblem)
  /-- No field carries a storage key. -/
  | empty (aggregate : Text)
  /-- Storage keys and the fields that share them. -/
  | duplicateKeys (aggregate : Text) (shared : Entries Text (List Text))
  /-- A declared type, by its label, outside the supported set; the field may be unknown. -/
  | unsupportedType (field : Text) (label : Text)
  | invalidDefault (problem : DefaultProblem)
  /-- The generated file could not be written. -/
  | notWritten (target : Text) (reason : OsError)
  deriving DecidableEq

structure Refusal where
  cause : RefusalCause
  aggregate : Option Text
  deriving DecidableEq

def positionText (n : Nat) : Text :=
  "#" ++ Text.ofList (Number.writeNat n)

/-- What stands for the decoder's own words on malformed input. -/
def decoderText : Text := "<json>"

def SchemaProblem.message : SchemaProblem → Text
  | .untagged aggregate => aggregate ++ " is not tagged with PrefStore"
  | .storeName aggregate => "Invalid store name in " ++ aggregate
  | .annotations aggregate reason =>
    "Cannot read annotations of " ++ aggregate ++ ": " ++ reason
  | .keyOfAttribute aggregate member =>
    "PrefKey of " ++ aggregate ++ "." ++ member ++ " must be a non-empty string"
  | .asyncOfAttribute aggregate member =>
    "async_ of " ++ aggregate ++ "." ++ member ++ " must be True or False"
  | .notAnObject kind => "Aggregate must be a JSON object, got " ++ kind
  | .nameMissing => "Aggregate is missing a 'name'"
  | .packageNotString aggregate => "'package' of " ++ aggregate ++ " must be a string"
  | .descriptionNotString aggregate => "'description' of " ++ aggregate ++ " must be a string"
  | .fieldsNotList aggregate => "'fields' of " ++ aggregate ++ " must be a list"
  | .fieldNotObject position aggregate =>
    "Field " ++ positionText position ++ " of " ++ aggregate ++ " must be an object"
  | .keyOfField position aggregate =>
    "Key of field " ++ positionText position ++ " in " ++ aggregate ++ " must be a non-empty string"
  | .nameOfField position aggregate =>
    "Name of field " ++ positionText position ++ " in " ++ aggregate ++ " must be a non-empty string"
  | .typeOfField field aggregate =>
    "Type of field '" ++ field ++ "' in " ++ aggregate ++ " must be a string"
  | .asyncOfField field aggregate =>
    "'async' of field '" ++ field ++ "' in " ++ aggregate ++ " must be true or false"
  | .defaultOfField field aggregate =>
    "Default of field '" ++ field ++ "' in " ++ aggregate ++ " must be a scalar"
  | .noDeclaration kind => "Cannot build a schema from " ++ kind
  | .fileNotFound path => "Schema file not found: " ++ path
  | .fileMalformed path => "Invalid JSON in schema file " ++ path ++ ": " ++ decoderText
  | .fileUnreadable path reason => "Error reading schema file " ++ path ++ ": " ++ reason.message
  | .aggregatesNotList path => "'aggregates' in " ++ path ++ " must be a list"
  | .aggregateNotObject position path kind =>
    "Aggregate " ++ positionText position ++ " in " ++ path ++ " must be a JSON object, got " ++ kind

def sharedKeyText (group : Text × List Text) : Text :=
  "'" ++ group.1 ++ "' (" ++ Text.intercalate ", " group.2 ++ ")"

def RefusalCause.message : RefusalCause → Text
  | .malformed problem => problem.message
  | .empty aggregate => "No fields annotated with PrefKey found in " ++ aggregate
  | .duplicateKeys aggregate shared =>
    "Duplicate storage keys in " ++ aggregate ++ ": " ++
      Text.intercalate ", " (shared.map sharedKeyText)
  | .unsupportedType field label =>
    if field = "" then "Unsupported type: " ++ label
    else "Unsupported type for field '" ++ field ++ "': " ++ label
  | .invalidDefault problem => problem.message
  | .notWritten target reason =>
    "Failed to write generated class to " ++ target ++ ": " ++ reason.message

namespace Refusal

def message (r : Refusal) : Text :=
  r.cause.message

/-- The same refusal, laid to `aggregate` unless it is laid to a named aggregate already. -/
def orAggregate (r : Refusal) (aggregate : Option Text) : Refusal :=
  match r.aggregate with
  | some "" => { r with aggregate }
  | some _ => r
  | none => { r with aggregate }

def malformed (aggregate : Option Text) (problem : SchemaProblem) : Refusal :=
  ⟨.malformed problem, aggregate⟩

end Refusal

end PrefAccessor
