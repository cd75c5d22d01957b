import PrefAccessor.Entries
import PrefAccessor.Number.Binary64
import PrefAccessor.Text.Basic

/-!
# JSON values

Integers and floating point numbers are different kinds of value, and an object keeps its members
in order, each key once. Supplies decidable equality, lookup of members and the emptiness test by
which a value counts as set or not set.
-/

namespace PrefAccessor

set_option autoImplicit false

open Number

inductive Json where
  | null
  | bool (b : Bool)
  | int (n : Int)
  | float (x : Binary64)
  | string (s : Text)
  | array (items : List Json)
  | object (members : List (Text × Json))
  deriving Inhabited

namespace Json

mutual

/-- Equality of values, by recursion on the first. -/
def decEq : (a b : Json) → Decidable (a = b)
  | .null, b => by cases b <;> first | exact isTrue rfl | exact isFalse (by simp)
  | .bool x, b => by
    cases b with
    | bool y => exact decidable_of_iff (x = y) (by simp)
    | _ => exact isFalse (by simp)
  | .int x, b => by
    cases b with
    | int y => exact decidable_of_iff (x = y) (by simp)
    | _ => exact isFalse (by simp)
  | .float x, b => by
    cases b with
    | float y => exact decidable_of_iff (x = y) (by simp)
    | _ => exact isFalse (by simp)
  | .string x, b => by
    cases b with
    | string y => exact decidable_of_iff (x = y) (by simp)
    | _ => exact isFalse (by simp)
  | .array xs, b => by
    cases b with
    | array ys =>
      haveI := decEqItems xs ys
      exact decidable_of_iff (xs = ys) (by simp)
    | _ => exact isFalse (by simp)
  | .object ms, b => by
    cases b with
    | object ns =>
      haveI := decEqMembers ms ns
      exact decidable_of_iff (ms = ns) (by simp)
    | _ => exact isFalse (by simp)

def decEqItems : (xs ys : List Json) → Decidable (xs = ys)
  | [], ys => by cases ys <;> first | exact isTrue rfl | exact isFalse (by simp)
  | x :: xs, ys => by
    cases ys with
    | nil => exact isFalse (by simp)
    | cons y ys =>
      haveI := decEq x y
      haveI := decEqItems xs ys
      exact decidable_of_iff (x = y ∧ xs = ys) (by simp)

def decEqMembers : (ms ns : List (Text × Json)) → Decidable (ms = ns)
  | [], ns => by cases ns <;> first | exact isTrue rfl | exact isFalse (by simp)
  | (k, x) :: ms, ns => by
    cases ns with
    | nil => exact isFalse (by simp)
    | cons n ns =>
      obtain ⟨l, y⟩ := n
      haveI := decEq x y
      haveI := decEqMembers ms ns
      exact decidable_of_iff ((k = l ∧ x = y) ∧ ms = ns) (by simp)

end

instance : DecidableEq Json := decEq

def kindName : Json → Text
  | .null => "NoneType"
  | .bool _ => "bool"
  | .int _ => "int"
  | .float _ => "float"
  | .string _ => "str"
  | .array _ => "list"
  | .object _ => "dict"

/-- A value counts as set unless it is null, false, zero or empty. -/
def isSet : Json → Bool
  | .null => false
  | .bool b => b
  | .int n => n != 0
  | .float x => !x.isZero
  | .string s => s != ""
  | .array items => !items.isEmpty
  | .object members => !members.isEmpty

def member? : Json → Text → Option Json
  | .object members, key => Entries.find? members key
  | _, _ => none

def string? : Json → Option Text
  | .string s => some s
  | _ => none

def bool? : Json → Option Bool
  | .bool b => some b
  | _ => none

def members? : Json → Option (List (Text × Json))
  | .object members => some members
  | _ => none

def items? : Json → Option (List Json)
  | .array items => some items
  | _ => none

end Json

end PrefAccessor
