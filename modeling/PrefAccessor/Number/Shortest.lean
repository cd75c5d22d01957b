import PrefAccessor.Number.Binary64
import PrefAccessor.Number.Numeral

/-!
# Shortest decimals

The shortest decimal that reads back as a given double: on the coarsest decimal grid that has a
point among the reals which round to the number, the point nearest to it, and the even one of two.
The layout of the digits is a record, so that each output format states its own.
-/

namespace PrefAccessor.Number

set_option autoImplicit false

namespace Binary64

/-- The reals that round to a finite number, in quarters of its last place. -/
structure Interval where
  low : Nat
  value : Nat
  high : Nat
  /-- The exponent of two of one quarter. -/
  unit : Int
  /-- Whether the ends themselves round to the number. -/
  closed : Bool

/-- The distance to the neighbour below halves at a power of two. -/
def interval (coefficient : Nat) (exponent : Int) : Interval where
  low := 4 * coefficient - (if coefficient = Nat.pow 2 52 ∧ leastExponent < exponent then 1 else 2)
  value := 4 * coefficient
  high := 4 * coefficient + 2
  unit := exponent - 2
  closed := coefficient % 2 == 0

/-- Factors that bring a multiple of `10 ^ grid` and one of `2 ^ unit` to a common unit. -/
def commonFactors (grid unit : Int) : Nat × Nat :=
  (Nat.pow 10 grid.toNat * Nat.pow 2 (-unit).toNat,
    Nat.pow 10 (-grid).toNat * Nat.pow 2 unit.toNat)

/-- Whether `digits * 10 ^ grid` rounds to the number. -/
def Interval.holds (i : Interval) (grid : Int) (digits : Nat) : Bool :=
  let f := commonFactors grid i.unit
  let point := digits * f.1
  if i.closed then decide (i.low * f.2 ≤ point) && decide (point ≤ i.high * f.2)
  else decide (i.low * f.2 < point) && decide (point < i.high * f.2)

/-- The best point of one grid: of the two neighbours of the number those that round to it, of
these the nearer, of equally near ones the even one. -/
def Interval.pointOn (i : Interval) (grid : Int) : Option Nat :=
  let f := commonFactors grid i.unit
  let below := i.value * f.2 / f.1
  let rest := 2 * (i.value * f.2 % f.1)
  match decide (0 < below) && i.holds grid below, i.holds grid (below + 1) with
  | true, true =>
    some (if f.1 < rest ∨ (rest = f.1 ∧ below % 2 = 1) then below + 1 else below)
  | true, false => some below
  | false, true => some (below + 1)
  | false, false => none

/-- A power of ten above every finite number with this coefficient and exponent. -/
def gridAbove (coefficient : Nat) (exponent : Int) : Int :=
  ((coefficient.log2 : Int) + 1 + exponent) * 30103 / 100000 + 2

/-- The search from the coarsest grid downwards; the exact value ends it if it finds nothing. -/
def shortestFrom (i : Interval) (grid : Int) : Nat → Nat × Int
  | 0 => (i.value * Nat.pow 2 i.unit.toNat * Nat.pow 5 (-i.unit).toNat, -((-i.unit).toNat : Int))
  | fuel + 1 =>
    match i.pointOn grid with
    | some digits => (digits, grid)
    | none => shortestFrom i (grid - 1) fuel

/-- The shortest decimal `digits * 10 ^ grid` of a positive number. Twenty-four grids are enough:
seventeen digits identify every double. -/
def shortest (coefficient : Nat) (exponent : Int) : Nat × Int :=
  shortestFrom (interval coefficient exponent) (gridAbove coefficient exponent) 24

end Binary64

/-- How a number is laid out in a text. -/
structure FloatStyle where
  /-- The least decimal exponent written without an exponent part. -/
  positionalFrom : Int
  /-- The least decimal exponent beyond, again written with an exponent part. -/
  positionalBelow : Int
  exponentDigits : Nat
  nan : List CodePoint
  infinity : List CodePoint

namespace FloatStyle

/-- `digits` with the point after the first `whole` of them, filled with zeros as needed. -/
def positional (digits : List CodePoint) (whole : Int) : List CodePoint :=
  if whole ≤ 0 then char '0' :: char '.' :: List.replicate (-whole).toNat (char '0') ++ digits
  else
    let n := whole.toNat
    if digits.length ≤ n then
      digits ++ List.replicate (n - digits.length) (char '0') ++ [char '.', char '0']
    else digits.take n ++ char '.' :: digits.drop n

def scientific (style : FloatStyle) (digits : List CodePoint) (exponent : Int) : List CodePoint :=
  let head := digits.take 1
  let tail := digits.drop 1
  let shown := writeNat exponent.natAbs
  head ++ (if tail = [] then [] else char '.' :: tail) ++
    char 'e' :: (if exponent < 0 then '-' else '+') ::
      List.replicate (style.exponentDigits - shown.length) (char '0') ++ shown

def magnitude (style : FloatStyle) (coefficient : Nat) (exponent : Int) : List CodePoint :=
  if coefficient = 0 then [char '0', char '.', char '0']
  else
    let (n, grid) := Binary64.shortest coefficient exponent
    let digits := writeNat n
    let leading := (digits.length : Int) + grid - 1
    if style.positionalFrom ≤ leading ∧ leading < style.positionalBelow then
      positional digits (leading + 1)
    else style.scientific digits leading

def sign (negative : Bool) : List CodePoint :=
  if negative then [char '-'] else []

def write (style : FloatStyle) : Binary64 → List CodePoint
  | .nan => style.nan
  | .infinite negative => sign negative ++ style.infinity
  | .finite negative coefficient exponent => sign negative ++ style.magnitude coefficient exponent

end FloatStyle

end PrefAccessor.Number
