import PrefAccessor.TypeName

/-!
# Annotations

The types that a class may declare for its attributes: plain classes, generic types, unions and
types with metadata attached. Unions are kept flat, without repetition and never of one member;
attached metadata of nested annotations is one list, inner first. Supplies the label of a type in
messages and its resolution to a preference type.
-/

namespace PrefAccessor

set_option autoImplicit false

/-- Metadata that can be attached to a type. -/
inductive Marker where
  /-- Storage key and switch of the asynchronous variants, not yet checked. -/
  | key (key : Json) (async : Json)
  | default (value : Json)
  | other (value : Json)
  deriving DecidableEq

/-- Built-in generic types, and the two ways to spell them. -/
inductive GenericOrigin where
  | set
  | frozenset
  | list
  | dict
  | tuple
  deriving DecidableEq, Repr

inductive Spelling where
  /-- `set[str]`, `int | None` -/
  | builtin
  /-- `typing.Set[str]`, `typing.Optional[int]` -/
  | typing
  deriving DecidableEq, Repr

/-- The classes that resolve to a preference type on their own. `long` marks an integer of 64
bits. -/
inductive BasicClass where
  | str
  | int
  | bool
  | float
  | long
  deriving DecidableEq, Repr

def BasicClass.prefType : BasicClass → PrefType
  | .str => .string
  | .int => .int
  | .bool => .boolean
  | .float => .float
  | .long => .long

def BasicClass.name : BasicClass → Text
  | .str => "str"
  | .int => "int"
  | .bool => "bool"
  | .float => "float"
  | .long => "Long"

inductive Annotation where
  | basic (kind : BasicClass)
  /-- The class of the absent value. -/
  | none
  /-- The type of all values. -/
  | any
  | plain (name : Text)
  /-- A preference type itself. -/
  | pref (type : PrefType)
  | generic (origin : GenericOrigin) (spelling : Spelling) (arguments : List Annotation)
  | union (spelling : Spelling) (members : List Annotation)
  | annotated (type : Annotation) (metadata : List Marker)
  /-- A type given by the text of an expression that is yet to be read. -/
  | forward (text : Text)
  deriving Inhabited

namespace Annotation

-- Two unions are the same type when each member of one is a member of the other.
mutual

def same : Annotation → Annotation → Bool
  | .basic s, .basic t => s == t
  | .none, .none => true
  | .any, .any => true
  | .plain m, .plain n => m == n
  | .pref s, .pref t => s == t
  | .generic o s as, .generic p t bs => o == p && s == t && sameList as bs
  | .union _ as, .union _ bs => allAmong as bs && bs.all fun b => oneIs as b
  | .annotated a ms, .annotated b ns => same a b && decide (ms = ns)
  | .forward s, .forward t => s == t
  | _, _ => false

def sameList : List Annotation → List Annotation → Bool
  | [], [] => true
  | a :: as, b :: bs => same a b && sameList as bs
  | _, _ => false

/-- Whether each of the first types is one of the second. -/
def allAmong : List Annotation → List Annotation → Bool
  | [], _ => true
  | a :: as, bs => (bs.any fun b => same a b) && allAmong as bs

def oneIs : List Annotation → Annotation → Bool
  | [], _ => false
  | a :: as, b => same a b || oneIs as b

end

def unionMembers : Annotation → List Annotation
  | .union _ members => members
  | a => [a]

def withoutRepetition : List Annotation → List Annotation
  | [] => []
  | a :: as => a :: (withoutRepetition as).filter fun b => !same a b

/-- Whether a union with this member cannot be spelled with bars. -/
def needsTyping : Annotation → Bool
  | .basic .long => true
  | .generic _ .typing _ => true
  | .union .typing _ => true
  | .annotated .. => true
  | .pref _ => true
  | .forward _ => true
  | _ => false

def unionOf (spelling : Spelling) (members : List Annotation) : Annotation :=
  match withoutRepetition (members.flatMap unionMembers) with
  | [a] => a
  | flat => .union (if members.any needsTyping then .typing else spelling) flat

def annotate (type : Annotation) (metadata : List Marker) : Annotation :=
  match type with
  | .annotated inner before => .annotated inner (before ++ metadata)
  | _ => .annotated type metadata

mutual

/-- The normal form of a type. -/
def normalize : Annotation → Annotation
  | .generic origin spelling arguments => .generic origin spelling (normalizeAll arguments)
  | .union spelling members => unionOf spelling (normalizeAll members)
  | .annotated type metadata => annotate (normalize type) metadata
  | a => a

def normalizeAll : List Annotation → List Annotation
  | [] => []
  | a :: as => normalize a :: normalizeAll as

end

/-- What a text in place of a type stands for where the type is declared, or the words in which its
evaluation fails. -/
abbrev Meaning := Text → Except Text Annotation

mutual

/-- The type with every text replaced by the type that it stands for. -/
def readTexts (meaning : Meaning) : Annotation → Except Text Annotation
  | .forward text => meaning text
  | .generic origin spelling arguments =>
    (readAllTexts meaning arguments).map (.generic origin spelling)
  | .union spelling members => (readAllTexts meaning members).map (.union spelling)
  | .annotated type metadata => (readTexts meaning type).map (.annotated · metadata)
  | a => .ok a

def readAllTexts (meaning : Meaning) : List Annotation → Except Text (List Annotation)
  | [] => .ok []
  | a :: as =>
    match readTexts meaning a with
    | .error reason => .error reason
    | .ok a => (readAllTexts meaning as).map (a :: ·)

end

def GenericOrigin.label : GenericOrigin → Spelling → Text
  | .set, .builtin => "set"
  | .frozenset, .builtin => "frozenset"
  | .list, .builtin => "list"
  | .dict, .builtin => "dict"
  | .tuple, .builtin => "tuple"
  | .set, .typing => "typing.Set"
  | .frozenset, .typing => "typing.FrozenSet"
  | .list, .typing => "typing.List"
  | .dict, .typing => "typing.Dict"
  | .tuple, .typing => "typing.Tuple"

def prefLabel : PrefType → Text
  | .string => "<PrefType.STRING: 'string'>"
  | .int => "<PrefType.INT: 'int'>"
  | .boolean => "<PrefType.BOOLEAN: 'boolean'>"
  | .float => "<PrefType.FLOAT: 'float'>"
  | .long => "<PrefType.LONG: 'long'>"
  | .stringSet => "<PrefType.STRING_SET: 'set<string>'>"

def markerLabel : Marker → Text
  | .key key async => "PrefKey(key=" ++ key.quoted ++ ", async_=" ++ async.quoted ++ ")"
  | .default value => "DefaultValue(value=" ++ value.quoted ++ ")"
  | .other value => value.quoted

def isNone : Annotation → Bool
  | .none => true
  | _ => false

/-- The label of a union, given its members and their labels. -/
def unionLabel (spelling : Spelling) (members : List Annotation) (labels : List Text) : Text :=
  match spelling with
  | .builtin =>
    Text.intercalate " | " ((members.zip labels).map fun m => if m.1.isNone then "None" else m.2)
  | .typing =>
    match (members.zip labels).filter fun m => !m.1.isNone with
    | [(_, label)] =>
      if members.length = 2 then "typing.Optional[" ++ label ++ "]"
      else "typing.Union[" ++ Text.intercalate ", " labels ++ "]"
    | _ => "typing.Union[" ++ Text.intercalate ", " labels ++ "]"

mutual

/-- The label of a type inside another. -/
def innerLabel : Annotation → Text
  | .basic .long => "sharedpreform.markers.Long"
  | .basic c => c.name
  | .none => "NoneType"
  | .any => "typing.Any"
  | .plain name => name
  | .pref type => prefLabel type
  | .generic origin spelling arguments =>
    GenericOrigin.label origin spelling ++ "[" ++
      Text.intercalate ", " (innerLabels arguments) ++ "]"
  | .union spelling members => unionLabel spelling members (innerLabels members)
  | .annotated type metadata =>
    "typing.Annotated[" ++
      Text.intercalate ", " (innerLabel type :: metadata.map markerLabel) ++ "]"
  | .forward text => "ForwardRef(" ++ Text.quoted text ++ ")"

def innerLabels : List Annotation → List Text
  | [] => []
  | a :: as => innerLabel a :: innerLabels as

end

def label : Annotation → Text
  | .any => "Any"
  | .basic c => c.name
  | .forward text => text
  | a => innerLabel a

/-- The text of a marker holds no integer that is too long for one. -/
def Marker.isWritable : Marker → Bool
  | .key key async => key.isWritable && async.isWritable
  | .default value => value.isWritable
  | .other value => value.isWritable

mutual

/-- Whether a type has a label, which shows the metadata of all its parts. -/
def isWritable : Annotation → Bool
  | .generic _ _ arguments => areWritable arguments
  | .union _ members => areWritable members
  | .annotated type metadata => type.isWritable && metadata.all Marker.isWritable
  | _ => true

def areWritable : List Annotation → Bool
  | [] => true
  | a :: as => a.isWritable && areWritable as

end

def label? (a : Annotation) : Except Fault Text :=
  if a.isWritable then .ok a.label else .error .badValue

/-- Whether a value can be looked up by its hash. Arrays and objects have none, and neither has a type
with one of them in the metadata of one of its parts. -/
def isHashableValue : Json → Bool
  | .array _ => false
  | .object _ => false
  | _ => true

def Marker.isHashable : Marker → Bool
  | .key key async => isHashableValue key && isHashableValue async
  | .default value => isHashableValue value
  | .other value => isHashableValue value

mutual

/-- Whether a type can be looked up. -/
def isHashable : Annotation → Bool
  | .generic _ _ arguments => areHashable arguments
  | .union _ members => areHashable members
  | .annotated type metadata => type.isHashable && metadata.all Marker.isHashable
  | _ => true

def areHashable : List Annotation → Bool
  | [] => true
  | a :: as => a.isHashable && areHashable as

end

mutual

/-- The preference type of a normal type: that of a basic class, a set of strings, or whatever the
only member of a union besides the absent value resolves to. -/
def resolveNormal? : Annotation → Option PrefType
  | .basic c => some c.prefType
  | .generic .set _ [.basic .str] => some .stringSet
  | .generic .frozenset _ [.basic .str] => some .stringSet
  | .union _ members => resolveOnly? members
  | _ => .none

/-- The preference type of the only member besides the absent value. -/
def resolveOnly? : List Annotation → Option PrefType
  | [] => .none
  | a :: as => if a.isNone then resolveOnly? as
    else if as.all isNone then resolveNormal? a else .none

end

/-- The preference type that a declared type stands for. A text is taken as a type name, and a
preference type stands for itself. -/
def resolve? (declared : Annotation) : Option PrefType :=
  match declared with
  | .pref type => some type
  | .forward text => typeNamed? text
  | a => resolveNormal? a.normalize

/-- Looks a declared type up. A preference type and a text are known without. -/
def resolve (declared : Annotation) : Except Fault (Option PrefType) :=
  if declared.isHashable then .ok declared.resolve? else .error .wrongKind

end Annotation

end PrefAccessor
