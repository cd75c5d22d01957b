import PrefAccessor.Json.Value
import PrefAccessor.Number.Shortest
import PrefAccessor.Text.Quoted

/-!
# JSON values in texts

The text of a value where it becomes part of a name, a default or a message. A string on its own
stands for itself; inside an array or object it is quoted. Truth values and null are written
capitalised. An integer of too many digits has no text.
-/

namespace PrefAccessor

set_option autoImplicit false

open Number

/-- Numbers are positional from `0.0001` up to, but not including, `10 ^ 16`. -/
def displayStyle : FloatStyle where
  positionalFrom := -4
  positionalBelow := 16
  exponentDigits := 2
  nan := ("nan" : Text).toList
  infinity := ("inf" : Text).toList

def displayInt (n : Int) : Text :=
  Text.ofList (writeInt n)

def displayFloat (x : Binary64) : Text :=
  Text.ofList (displayStyle.write x)

def displayBool (b : Bool) : Text :=
  if b then "True" else "False"

namespace Json

mutual

/-- The text of a value inside another. -/
def quoted : Json → Text
  | .null => "None"
  | .bool b => displayBool b
  | .int n => displayInt n
  | .float x => displayFloat x
  | .string s => Text.quoted s
  | .array items => "[" ++ Text.intercalate ", " (quotedItems items) ++ "]"
  | .object members => "\x7b" ++ Text.intercalate ", " (quotedMembers members) ++ "\x7d"

def quotedItems : List Json → List Text
  | [] => []
  | x :: xs => x.quoted :: quotedItems xs

def quotedMembers : List (Text × Json) → List Text
  | [] => []
  | (k, x) :: ms => (Text.quoted k ++ ": " ++ x.quoted) :: quotedMembers ms

end

/-- The text of a value on its own. -/
def display : Json → Text
  | .string s => s
  | v => v.quoted

mutual

/-- Whether no integer in a value has more digits than are converted to a text. -/
def isWritable : Json → Bool
  | .int n => decide ((writeNat n.natAbs).length ≤ maxNumeralDigits)
  | .array items => areWritable items
  | .object members => membersAreWritable members
  | _ => true

def areWritable : List Json → Bool
  | [] => true
  | x :: xs => x.isWritable && areWritable xs

def membersAreWritable : List (Text × Json) → Bool
  | [] => true
  | (_, x) :: ms => x.isWritable && membersAreWritable ms

end

@[simp] theorem display_string (s : Text) : (Json.string s).display = s := rfl

@[simp] theorem isWritable_string (s : Text) : (Json.string s).isWritable = true := by
  simp [isWritable]

end Json

end PrefAccessor
