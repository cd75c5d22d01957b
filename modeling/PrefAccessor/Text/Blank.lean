import PrefAccessor.Text.Ranges

/-!
# Blanks

The characters that separate words: Unicode white space together with the four information
separators U+001C to U+001F. Supplies trimming at either end. A text of blanks only trims to the
empty text.
-/

namespace PrefAccessor.Text

set_option autoImplicit false

def blankRanges : List (Nat × Nat) := [
  (0x9, 0xd), (0x1c, 0x20), (0x85, 0x85), (0xa0, 0xa0), (0x1680, 0x1680), (0x2000, 0x200a),
  (0x2028, 0x2029), (0x202f, 0x202f), (0x205f, 0x205f), (0x3000, 0x3000)]

def isBlank (c : CodePoint) : Bool :=
  inRanges blankRanges c

/-- `cs` without its longest final part of characters in the class. -/
def dropEndWhile (p : CodePoint → Bool) (cs : List CodePoint) : List CodePoint :=
  (cs.reverse.dropWhile p).reverse

/-- `cs` without the characters of the class at both ends. -/
def trimWhile (p : CodePoint → Bool) (cs : List CodePoint) : List CodePoint :=
  dropEndWhile p (cs.dropWhile p)

def trim (cs : List CodePoint) : List CodePoint :=
  trimWhile isBlank cs

def trimEnd (cs : List CodePoint) : List CodePoint :=
  dropEndWhile isBlank cs

@[simp] theorem dropEndWhile_nil (p : CodePoint → Bool) : dropEndWhile p [] = [] := rfl

@[simp] theorem trimWhile_nil (p : CodePoint → Bool) : trimWhile p [] = [] := rfl

theorem trimWhile_sublist (p : CodePoint → Bool) (cs : List CodePoint) :
    (trimWhile p cs).Sublist cs := by
  unfold trimWhile dropEndWhile
  have hdrop := List.dropWhile_sublist (l := (cs.dropWhile p).reverse) p
  have hreverse := hdrop.reverse
  rw [List.reverse_reverse] at hreverse
  exact hreverse.trans (List.dropWhile_sublist p)

/-- A class without a blank, looked at code point by code point. -/
theorem eq_false_of_isBlank (p : CodePoint → Bool)
    (h : ∀ n ∈ blankRanges.flatMap fun r => List.range' r.1 (r.2 + 1 - r.1),
      p (CodePoint.ofNat n) = false) {c : CodePoint} (hc : isBlank c = true) : p c = false := by
  obtain ⟨r, hr, hlow, hhigh⟩ := (inRanges_iff _ c).mp hc
  have hp := h c.toNat (List.mem_flatMap.mpr ⟨r, hr, List.mem_range'_1.mpr ⟨hlow, by omega⟩⟩)
  rwa [CodePoint.ofNat_toNat] at hp

end PrefAccessor.Text
