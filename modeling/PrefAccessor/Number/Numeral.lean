import PrefAccessor.Text.Digit

/-!
# Numerals

Integers as texts in base ten. Writing uses ASCII digits and a minus sign; reading takes an
optional sign and one or more decimal digits of any script. A numeral of more digits than the limit
is not converted.
-/

namespace PrefAccessor.Number

set_option autoImplicit false

open Text

/-- The longest row of digits that is converted to an integer. -/
def maxNumeralDigits : Nat := 4300

def writeNat (n : Nat) : List CodePoint :=
  (Nat.toDigits 10 n).map char

def writeInt : Int → List CodePoint
  | .ofNat n => writeNat n
  | .negSucc n => char '-' :: writeNat (n + 1)

/-- A leading sign, and what follows it. -/
def splitSign : List CodePoint → Bool × List CodePoint
  | '-' :: cs => (true, cs)
  | '+' :: cs => (false, cs)
  | cs => (false, cs)

def applySign (negative : Bool) (n : Nat) : Int :=
  if negative then -(n : Int) else n

inductive Reading where
  | value (n : Int)
  | tooLong
  | malformed
  deriving DecidableEq, Repr

/-- A sign or none, then digits to the end. -/
def readInt (cs : List CodePoint) : Reading :=
  let (negative, ds) := splitSign cs
  if ds.isEmpty || !ds.all isDigit then .malformed
  else if maxNumeralDigits < ds.length then .tooLong
  else .value (applySign negative (digitsValue ds))

end PrefAccessor.Number
