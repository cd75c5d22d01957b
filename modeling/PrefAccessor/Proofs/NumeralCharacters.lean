import PrefAccessor.Json.Display
import PrefAccessor.Proofs.NameCharacters

/-!
# The characters of numbers

A number is written with digits, letters, signs and a point alone, so its text neither ends a line
nor opens a literal or a comment.
-/

namespace PrefAccessor.Number

set_option autoImplicit false

def isNumeralChar (c : CodePoint) : Bool :=
  Naming.isWordChar c || c == '.' || c == '+' || c == '-'

def IsNumeral (cs : List CodePoint) : Prop :=
  ∀ c ∈ cs, isNumeralChar c = true

theorem isNumeral_iff {cs : List CodePoint} : IsNumeral cs ↔ cs.all isNumeralChar = true :=
  List.all_eq_true.symm

namespace IsNumeral

variable {cs ds : List CodePoint}

theorem append (hc : IsNumeral cs) (hd : IsNumeral ds) : IsNumeral (cs ++ ds) := by
  intro c h
  rcases List.mem_append.mp h with h | h
  · exact hc c h
  · exact hd c h

theorem cons {c : CodePoint} (hc : isNumeralChar c = true) (hd : IsNumeral ds) : IsNumeral (c :: ds) :=
  append (fun _ h => List.mem_singleton.mp h ▸ hc) hd

theorem subset (hc : IsNumeral cs) (h : ds ⊆ cs) : IsNumeral ds :=
  fun c hd => hc c (h hd)

end IsNumeral

theorem isNumeralChar_of_isDigit {c : Char} (h : c.isDigit = true) : isNumeralChar c = true := by
  have hdigit : Text.isAsciiDigit c = true := h
  simp [isNumeralChar, Naming.isWordChar, hdigit]

theorem isBlank_of_isNumeralChar {c : CodePoint} (h : isNumeralChar c = true) :
    Text.isBlank c = false := by
  by_contra hblank
  have hnot := Text.eq_false_of_isBlank isNumeralChar (by decide +kernel)
    (Bool.of_not_eq_false hblank)
  rw [h] at hnot
  cases hnot

theorem isNumeral_zeros (n : Nat) : IsNumeral (List.replicate n (char '0')) := by
  intro c h
  rw [List.eq_of_mem_replicate h]
  decide

theorem isNumeral_writeNat (n : Nat) : IsNumeral (writeNat n) :=
  fun c h => by
    obtain ⟨d, hd, rfl⟩ := List.mem_map.mp h
    exact isNumeralChar_of_isDigit (Nat.isDigit_of_mem_toDigits (b := 10) (by decide) (by decide) hd)

theorem isNumeral_writeInt (n : Int) : IsNumeral (writeInt n) := by
  cases n with
  | ofNat n => exact isNumeral_writeNat n
  | negSucc n => exact (isNumeral_writeNat (n + 1)).cons (by decide)

namespace FloatStyle

theorem isNumeral_positional {digits : List CodePoint} (h : IsNumeral digits) (whole : Int) :
    IsNumeral (positional digits whole) := by
  unfold positional
  split
  · exact (((isNumeral_zeros _).cons (by decide)).cons (by decide)).append h
  · simp only
    split
    · exact (h.append (isNumeral_zeros _)).append (isNumeral_iff.mpr (by decide))
    · have htail := (h.subset (List.drop_subset whole.toNat digits)).cons (c := '.') (by decide)
      exact (h.subset (List.take_subset whole.toNat digits)).append htail

theorem isNumeral_scientific (style : FloatStyle) {digits : List CodePoint} (h : IsNumeral digits)
    (exponent : Int) : IsNumeral (style.scientific digits exponent) := by
  have htail : IsNumeral (if digits.drop 1 = [] then [] else char '.' :: digits.drop 1) := by
    split
    · exact isNumeral_iff.mpr rfl
    · exact (h.subset (List.drop_subset 1 digits)).cons (by decide)
  have hsign : isNumeralChar (if exponent < 0 then '-' else '+') = true := by
    split <;> decide
  have hzeros := isNumeral_zeros (style.exponentDigits - (writeNat exponent.natAbs).length)
  have hmark := (hzeros.cons hsign).cons (c := 'e') (by decide)
  have hhead := (h.subset (List.take_subset 1 digits)).append htail
  exact (hhead.append hmark).append (isNumeral_writeNat exponent.natAbs)

theorem isNumeral_magnitude (style : FloatStyle) (coefficient : Nat) (exponent : Int) :
    IsNumeral (style.magnitude coefficient exponent) := by
  unfold magnitude
  split
  · exact isNumeral_iff.mpr (by decide)
  · simp only
    split
    · exact isNumeral_positional (isNumeral_writeNat _) _
    · exact style.isNumeral_scientific (isNumeral_writeNat _) _

theorem isNumeral_sign (negative : Bool) : IsNumeral (sign negative) := by
  cases negative <;> exact isNumeral_iff.mpr (by decide)

theorem isNumeral_write {style : FloatStyle} (hnan : IsNumeral style.nan)
    (hinfinity : IsNumeral style.infinity) (x : Binary64) : IsNumeral (style.write x) := by
  cases x with
  | nan => exact hnan
  | infinite negative => exact (isNumeral_sign negative).append hinfinity
  | finite negative coefficient exponent =>
    exact (isNumeral_sign negative).append (style.isNumeral_magnitude coefficient exponent)

end FloatStyle

theorem isNumeral_displayInt (n : Int) : IsNumeral (displayInt n).toList := by
  rw [displayInt, Text.toList_ofList]
  exact isNumeral_writeInt n

theorem isNumeral_displayFloat (x : Binary64) : IsNumeral (displayFloat x).toList := by
  rw [displayFloat, Text.toList_ofList]
  exact FloatStyle.isNumeral_write (isNumeral_iff.mpr (by decide)) (isNumeral_iff.mpr (by decide)) x

end PrefAccessor.Number
