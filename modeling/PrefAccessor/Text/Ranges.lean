import PrefAccessor.Text.Basic

/-!
# Ranges of code points

Membership of a character in a list of closed ranges, the form in which every character table of
this library is stored. The order of the ranges plays no role.
-/

namespace PrefAccessor.Text

set_option autoImplicit false

/-- Whether the code point of `c` lies in one of the closed ranges. -/
def inRanges (ranges : List (Nat × Nat)) (c : CodePoint) : Bool :=
  ranges.any fun r => decide (r.1 ≤ c.toNat) && decide (c.toNat ≤ r.2)

theorem inRanges_iff (ranges : List (Nat × Nat)) (c : CodePoint) :
    inRanges ranges c = true ↔ ∃ r ∈ ranges, r.1 ≤ c.toNat ∧ c.toNat ≤ r.2 := by
  simp [inRanges]

end PrefAccessor.Text
