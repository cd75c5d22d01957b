import PrefAccessor.Entries
import PrefAccessor.Text.Blank
import PrefAccessor.Text.Case
import PrefAccessor.Text.Digit

/-!
# Names of generated classes and methods

Accessor names are derived from aggregate and field names alone: a name is first reduced to an
ASCII identifier, then written in one of two styles. Nothing is renamed when two fields meet in one
accessor name; such fields are only reported as a group.
-/

namespace PrefAccessor

set_option autoImplicit false

inductive NameStyle where
  /-- `getUserName` -/
  | camel
  /-- `get_user_name` -/
  | snake
  deriving DecidableEq, Repr

namespace Naming

open Text

/-- The first character as a capital, the rest untouched. -/
def capitalizeFirst : List CodePoint → List CodePoint
  | [] => []
  | c :: cs => upperChar c ++ cs

def separatesWords (c : CodePoint) : Bool :=
  c == '_' || c == '-' || isBlank c

/-- The words of a name whose current word began with `started`, last character first. -/
def wordsFrom (started : List CodePoint) : List CodePoint → List (List CodePoint)
  | [] => [started.reverse]
  | c :: cs =>
    if separatesWords c then started.reverse :: wordsFrom [] cs else wordsFrom (c :: started) cs

def words (cs : List CodePoint) : List (List CodePoint) :=
  (wordsFrom [] cs).filter fun w => !w.isEmpty

/-- The words of a name, each with a capital in front; inner capitals stay. -/
def pascalChars (cs : List CodePoint) : List CodePoint :=
  (words cs).flatMap capitalizeFirst

/-- Whether a new word begins at `b` between `a` and `next`: at a capital after a small letter or
digit, and at the last of several capitals when a small letter follows. -/
def startsHump (a b : CodePoint) (next : Option CodePoint) : Bool :=
  isAsciiUpper b &&
    (isAsciiLower a || isAsciiDigit a || (isAsciiUpper a && (next.map isAsciiLower).getD false))

def separateHumps : List CodePoint → List CodePoint
  | a :: b :: cs =>
    if startsHump a b cs.head? then a :: char '_' :: separateHumps (b :: cs)
    else a :: separateHumps (b :: cs)
  | cs => cs

def squeezeUnderscores : List CodePoint → List CodePoint
  | '_' :: '_' :: cs => squeezeUnderscores (char '_' :: cs)
  | c :: cs => c :: squeezeUnderscores cs
  | [] => []

def isUnderscore (c : CodePoint) : Bool :=
  c == '_'

/-- The words of a name in small letters with single underscores between them. -/
def snakeChars (cs : List CodePoint) : List CodePoint :=
  trimWhile isUnderscore <| squeezeUnderscores <| lower <| separateHumps <|
    cs.map fun c : CodePoint => if c = '-' then '_' else c

def isWordChar (c : CodePoint) : Bool :=
  isAsciiUpper c || isAsciiLower c || isAsciiDigit c || c == '_'

def fallbackName : List CodePoint := [char 'f', char 'i', char 'e', char 'l', char 'd']

/-- A name reduced to an ASCII identifier: every other character becomes an underscore, those at
the ends go, and a leading digit is shielded by one. -/
def cleanChars (cs : List CodePoint) : List CodePoint :=
  match trimWhile isUnderscore (cs.map fun c => if isWordChar c then c else '_') with
  | [] => fallbackName
  | c :: rest => if isAsciiDigit c then char '_' :: c :: rest else c :: rest

def clean (name : Text) : Text :=
  Text.ofList (cleanChars name.toList)

def pascalCase (name : Text) : Text :=
  Text.ofList (pascalChars name.toList)

def snakeCase (name : Text) : Text :=
  Text.ofList (snakeChars name.toList)

def capitalize (name : Text) : Text :=
  Text.ofList (capitalizeFirst name.toList)

def className (aggregate suffix : Text) : Text :=
  pascalCase (clean aggregate) ++ suffix

def accessorName (verb field : Text) (style : NameStyle) (isAsync : Bool) : Text :=
  match style with
  | .camel => verb ++ pascalCase (clean field) ++ (if isAsync then "Async" else "")
  | .snake => verb ++ "_" ++ snakeCase (clean field) ++ (if isAsync then "_async" else "")

/-- The fields that share a getter, under its name, in field order. -/
def collisions (style : NameStyle) (fields : List Text) : Entries Text (List Text) :=
  sharedGroups (accessorName "get" · style false) fields

end Naming

/-- Words that a target language does not allow as names. -/
structure ReservedNames where
  keywords : List Text
  taken : List Text
  deriving Repr

namespace ReservedNames

def none : ReservedNames := ⟨[], []⟩

def contains (r : ReservedNames) (name : Text) : Bool :=
  r.keywords.contains name || r.taken.contains name

/-- A reserved name with `suffix` behind it, any other name as it is. -/
def escape (r : ReservedNames) (name suffix : Text) : Text :=
  if r.contains name then name ++ suffix else name

/-- The file name, without extension, of a class in a module of its own. -/
def moduleName (r : ReservedNames) (className : Text) : Text :=
  r.escape (Naming.snakeCase className) "_"

end ReservedNames

end PrefAccessor
