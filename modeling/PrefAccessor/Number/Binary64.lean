/-!
# Double precision numbers

A finite number is its sign, a coefficient and a power of two, exactly. Supplies correct rounding
(to nearest, ties to the even coefficient) of an arbitrary fraction and of a decimal fraction, and
comparison of magnitudes, all in exact arithmetic on natural numbers. No arithmetic beyond that is
defined.
-/

namespace PrefAccessor.Number

set_option autoImplicit false

/-- The values of the format. A finite number is `± coefficient * 2 ^ exponent`, where the
coefficient is below `2 ^ 53`, and at least `2 ^ 52` unless the exponent is least. -/
inductive Binary64 where
  | nan
  | infinite (negative : Bool)
  | finite (negative : Bool) (coefficient : Nat) (exponent : Int)
  deriving DecidableEq, Repr, Inhabited

namespace Binary64

def leastExponent : Int := -1074

def greatestExponent : Int := 971

def zero : Binary64 := .finite false 0 leastExponent

/-- `num / den` in units of `2 ^ exponent`, again as a fraction. -/
def inUnits (num den : Nat) (exponent : Int) : Nat × Nat :=
  if 0 ≤ exponent then (num, den * Nat.pow 2 exponent.toNat)
  else (num * Nat.pow 2 (-exponent).toNat, den)

/-- The integer nearest to `num / den`, the even one of two. -/
def roundHalfEven (num den : Nat) : Nat :=
  let q := num / den
  let twice := 2 * (num % den)
  if den < twice ∨ (twice = den ∧ q % 2 = 1) then q + 1 else q

/-- The exponent at which `num / den` has a coefficient of 53 bits, or the least one. -/
def exponentFor (num den : Nat) : Int :=
  let guess : Int := (num.log2 : Int) - (den.log2 : Int) - 53
  let units := inUnits num den guess
  max (if units.1 / units.2 < Nat.pow 2 53 then guess else guess + 1) leastExponent

def ofCoefficient (negative : Bool) (coefficient : Nat) (exponent : Int) : Binary64 :=
  if coefficient = Nat.pow 2 53 then
    if greatestExponent < exponent + 1 then .infinite negative
    else .finite negative (Nat.pow 2 52) (exponent + 1)
  else if greatestExponent < exponent then .infinite negative
  else .finite negative coefficient exponent

def ofFraction (negative : Bool) (num den : Nat) : Binary64 :=
  if num = 0 then .finite negative 0 leastExponent
  else
    let exponent := exponentFor num den
    let units := inUnits num den exponent
    ofCoefficient negative (roundHalfEven units.1 units.2) exponent

/-- The number nearest to `coefficient * 10 ^ exponent`. The first two cases only keep the powers
small: no finite number reaches `10 ^ 310`, and none but zero is nearest below `10 ^ -330`. -/
def ofDecimal (negative : Bool) (coefficient : Nat) (exponent : Int) : Binary64 :=
  let magnitude : Int := ((Nat.toDigits 10 coefficient).length : Int) + exponent
  if coefficient = 0 then .finite negative 0 leastExponent
  else if 311 < magnitude then .infinite negative
  else if magnitude < -330 then .finite negative 0 leastExponent
  else if 0 ≤ exponent then ofFraction negative (coefficient * Nat.pow 10 exponent.toNat) 1
  else ofFraction negative coefficient (Nat.pow 10 (-exponent).toNat)

def isFinite : Binary64 → Bool
  | .finite .. => true
  | _ => false

def isZero : Binary64 → Bool
  | .finite _ coefficient _ => coefficient == 0
  | _ => false

/-- The magnitude of a finite number in units of the smallest one. -/
def steps : Binary64 → Nat
  | .finite _ coefficient exponent => coefficient * Nat.pow 2 (exponent - leastExponent).toNat
  | _ => 0

def isBelowOne : Binary64 → Bool
  | .nan => false
  | .infinite negative => negative
  | .finite negative coefficient exponent =>
    negative || decide ((Binary64.finite negative coefficient exponent).steps < Nat.pow 2 1074)

end Binary64

end PrefAccessor.Number
