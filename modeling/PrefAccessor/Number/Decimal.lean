import PrefAccessor.Number.Binary64
import PrefAccessor.Number.Numeral

/-!
# Decimal fractions

Reading a decimal fraction: a sign or none, digits with at most one point among or beside them, and
an optional exponent. The digits may be of any script.
-/

namespace PrefAccessor.Number

set_option autoImplicit false

open Text

/-- The parts of a decimal fraction as written. -/
structure Decimal where
  negative : Bool
  whole : List CodePoint
  fraction : List CodePoint
  exponent : Int
  deriving DecidableEq, Repr

namespace Decimal

def splitDigits (cs : List CodePoint) : List CodePoint × List CodePoint :=
  (cs.takeWhile isDigit, cs.dropWhile isDigit)

/-- The exponent part, if one stands here; a mark without digits is not one. -/
def splitExponent (cs : List CodePoint) : Int × List CodePoint :=
  match cs with
  | c :: rest =>
    if c = 'e' ∨ c = 'E' then
      let (negative, body) := splitSign rest
      let (ds, rest') := splitDigits body
      if ds = [] then (0, cs) else (applySign negative (digitsValue ds), rest')
    else (0, cs)
  | [] => (0, [])

/-- The digits on both sides of the point; the point may be missing. -/
def splitPoint (cs : List CodePoint) : (List CodePoint × List CodePoint) × List CodePoint :=
  let (whole, rest) := splitDigits cs
  match rest with
  | '.' :: rest' =>
    let (fraction, rest'') := splitDigits rest'
    ((whole, fraction), rest'')
  | _ => ((whole, []), rest)

/-- The longest decimal fraction at the front, and what follows it. -/
def scan? (cs : List CodePoint) : Option (Decimal × List CodePoint) :=
  let (negative, body) := splitSign cs
  let ((whole, fraction), rest) := splitPoint body
  if whole = [] ∧ fraction = [] then none
  else
    let (exponent, rest') := splitExponent rest
    some (⟨negative, whole, fraction, exponent⟩, rest')

def toBinary64 (d : Decimal) : Binary64 :=
  Binary64.ofDecimal d.negative (digitsValue (d.whole ++ d.fraction))
    (d.exponent - d.fraction.length)

end Decimal

end PrefAccessor.Number
