import PrefAccessor.Text.Digit
import PrefAccessor.Text.IdentifierTable

/-!
# Identifiers

An identifier is a start character (a letter in the wide sense of Unicode, or an underscore)
followed by start characters, digits and marks. No normalisation takes place.
-/

namespace PrefAccessor.Text

set_option autoImplicit false

def isIdentifierStart (c : CodePoint) : Bool :=
  if c.toNat < 0x80 then isAsciiUpper c || isAsciiLower c || c == '_'
  else inRanges identifierStartRanges c

def isIdentifierChar (c : CodePoint) : Bool :=
  isIdentifierStart c ||
    if c.toNat < 0x80 then isAsciiDigit c else inRanges identifierExtendRanges c

def isIdentifier : List CodePoint → Bool
  | [] => false
  | c :: cs => isIdentifierStart c && cs.all isIdentifierChar

theorem isIdentifierChar_of_start {c : CodePoint} (h : isIdentifierStart c = true) :
    isIdentifierChar c = true := by
  simp [isIdentifierChar, h]

theorem isIdentifierChar_of_mem {cs : List CodePoint} (h : isIdentifier cs = true) {c : CodePoint}
    (hc : c ∈ cs) : isIdentifierChar c = true := by
  cases cs with
  | nil => cases hc
  | cons d cs =>
    simp only [isIdentifier, Bool.and_eq_true, List.all_eq_true] at h
    rcases List.mem_cons.mp hc with rfl | hc
    · exact isIdentifierChar_of_start h.1
    · exact h.2 c hc

/-- What begins an identifier may be extended by identifier characters. -/
theorem isIdentifier_append {cs ds : List CodePoint} (hc : isIdentifier cs = true)
    (hd : ds.all isIdentifierChar = true) : isIdentifier (cs ++ ds) = true := by
  cases cs with
  | nil => simp [isIdentifier] at hc
  | cons c cs =>
    simp only [isIdentifier, Bool.and_eq_true] at hc
    simp only [List.cons_append, isIdentifier, List.all_append, Bool.and_eq_true]
    exact ⟨hc.1, hc.2, hd⟩

end PrefAccessor.Text
