import PrefAccessor.Fault
import PrefAccessor.Json.Display
import PrefAccessor.Number.Decimal
import PrefAccessor.Text.Blank

/-!
# Preference types and their values

The closed set of types that a store can hold, the values of each, and the reading of a declared
default. A default is a literal text; without one a type falls back to its zero. String sets have
no default: theirs is always the absent value.
-/

namespace PrefAccessor

set_option autoImplicit false

open Number Text

inductive PrefType where
  | string
  | int
  | boolean
  | float
  | long
  | stringSet
  deriving DecidableEq, Repr

/-- A value that a store holds or hands out. A set is its members in ascending order, each once. -/
inductive PrefValue where
  | absent
  | bool (b : Bool)
  | int (n : Int)
  | float (x : Binary64)
  | string (s : Text)
  | set (members : List Text)
  deriving DecidableEq, Repr, Inhabited

namespace PrefValue

def setOf (members : List Text) : PrefValue :=
  .set ((distinct members).mergeSort fun a b => decide (a ≤ b))

end PrefValue

/-- Why a literal is not a default of its type. -/
inductive DefaultProblem where
  | malformed (type : PrefType) (literal : Text)
  | outOfRange (type : PrefType) (literal : Text)
  | notBoolean (literal : Text)
  deriving DecidableEq, Repr

namespace PrefType

def all : List PrefType := [.string, .int, .boolean, .float, .long, .stringSet]

def name : PrefType → Text
  | .string => "string"
  | .int => "int"
  | .boolean => "boolean"
  | .float => "float"
  | .long => "long"
  | .stringSet => "set<string>"

/-- The store operation of a type, as it ends the names of the calls. -/
def operation : PrefType → Text
  | .string => "string"
  | .int => "int"
  | .boolean => "boolean"
  | .float => "float"
  | .long => "long"
  | .stringSet => "string_set"

def ofName? (s : Text) : Option PrefType :=
  all.find? fun t => t.name == s

/-- What a getter answers when neither a value nor a default is there. -/
def zero : PrefType → PrefValue
  | .string => .string ""
  | .int => .int 0
  | .boolean => .bool false
  | .float => .float Binary64.zero
  | .long => .int 0
  | .stringSet => .absent

end PrefType

/-- The bounds of the integers of 32 and of 64 bits. -/
def leastInt32 : Int := -2147483648

def greatestInt32 : Int := 2147483647

def leastInt64 : Int := -9223372036854775808

def greatestInt64 : Int := 9223372036854775807

/-- The bound on the magnitude of a float, which a store keeps in single precision. -/
def greatestFloat32 : Binary64 := Binary64.ofDecimal false 34028235 31

namespace PrefType

def isLongMark (c : CodePoint) : Bool :=
  c == 'l' || c == 'L'

def isFloatMark (c : CodePoint) : Bool :=
  c == 'f' || c == 'F'

/-- `cs` without one mark at its end, if there is one. -/
def dropMark (isMark : CodePoint → Bool) (cs : List CodePoint) : List CodePoint :=
  match cs.getLast? with
  | some c => if isMark c then cs.dropLast else cs
  | none => cs

def readInteger (type : PrefType) (least greatest : Int) (literal : Text) (body : List CodePoint) :
    Attempt DefaultProblem PrefValue :=
  match readInt body with
  | .malformed => Attempt.refuse (.malformed type literal)
  | .tooLong => Attempt.stop .badValue
  | .value n =>
    if least ≤ n ∧ n ≤ greatest then .ok (.int n)
    else Attempt.refuse (.outOfRange type literal)

def readFloat (literal : Text) : Attempt DefaultProblem PrefValue :=
  match Decimal.scan? (dropMark isFloatMark (trim literal.toList)) with
  | some (d, []) =>
    let x := d.toBinary64
    if x.isFinite ∧ x.steps ≤ greatestFloat32.steps then .ok (.float x)
    else Attempt.refuse (.outOfRange .float literal)
  | _ => Attempt.refuse (.malformed .float literal)

def readBoolean (literal : Text) : Attempt DefaultProblem PrefValue :=
  if literal = "true" then .ok (.bool true)
  else if literal = "false" then .ok (.bool false)
  else Attempt.refuse (.notBoolean literal)

/-- The default that a literal declares. Blanks around a number do not count; a long may carry an
`L` behind its digits and a float an `F`. -/
def readLiteral (literal : Text) : PrefType → Attempt DefaultProblem PrefValue
  | .string => .ok (.string literal)
  | .int => readInteger .int leastInt32 greatestInt32 literal (trim literal.toList)
  | .long =>
    readInteger .long leastInt64 greatestInt64 literal (dropMark isLongMark (trim literal.toList))
  | .float => readFloat literal
  | .boolean => readBoolean literal
  | .stringSet => .ok .absent

/-- The default of a field of this type, given the literal that it declares, if any. -/
def defaultValue (type : PrefType) : Option Text → Attempt DefaultProblem PrefValue
  | none => .ok type.zero
  | some literal => type.readLiteral literal

end PrefType

namespace DefaultProblem

def message : DefaultProblem → Text
  | .malformed type literal =>
    "Invalid " ++ type.name ++ " default value: " ++ quoted literal
  | .outOfRange type literal =>
    "Default value " ++ quoted literal ++ " is out of range for " ++ type.name
  | .notBoolean literal =>
    "Boolean default value must be 'true' or 'false', got " ++ quoted literal

end DefaultProblem

end PrefAccessor
