import Mathlib.Data.List.Infix
import Mathlib.Data.List.TakeWhile
import PrefAccessor.Json.Reader

/-!
# Integers that are too long to be read

A reader takes a value from the front of a text and leaves the rest as it is. If it stops at an
integer of too many digits, then these digits stand in the text.
-/

namespace PrefAccessor.Json

set_option autoImplicit false

open Number

variable {α β : Type} {cs cs' rest : List CodePoint} {r : Except ReadError (α × List CodePoint)}

/-- So many digits stand in a row that no integer is made of them. -/
def HoldsLongNumeral (cs : List CodePoint) : Prop :=
  ∃ digits, digits <:+: cs ∧ (∀ c ∈ digits, Text.isAsciiDigit c = true) ∧
    maxNumeralDigits < digits.length

theorem HoldsLongNumeral.of_suffix (h : HoldsLongNumeral cs') (hsuffix : cs' <:+ cs) :
    HoldsLongNumeral cs := by
  obtain ⟨digits, hinfix, hdigits, hlong⟩ := h
  exact ⟨digits, hinfix.trans hsuffix.isInfix, hdigits, hlong⟩

/-- What reading the front of a text may come to: a rest of it, or an error that it accounts for. -/
inductive Leaves {α : Type} (cs : List CodePoint) : Except ReadError (α × List CodePoint) → Prop
  | ok {x : α} {rest : List CodePoint} (h : rest <:+ cs) : Leaves cs (.ok (x, rest))
  | malformed : Leaves cs (.error .malformed)
  | tooLong (h : HoldsLongNumeral cs) : Leaves cs (.error .numeralTooLong)

namespace Leaves

theorem of_suffix (h : Leaves cs' r) (hsuffix : cs' <:+ cs) : Leaves cs r := by
  cases h with
  | ok h => exact .ok (h.trans hsuffix)
  | malformed => exact .malformed
  | tooLong h => exact .tooLong (h.of_suffix hsuffix)

theorem map (h : Leaves cs r) (f : α → β) : Leaves cs (r.map fun x => (f x.1, x.2)) := by
  cases h with
  | ok h => exact .ok h
  | malformed => exact .malformed
  | tooLong h => exact .tooLong h

end Leaves

theorem skipSpace_suffix (cs : List CodePoint) : skipSpace cs <:+ cs :=
  List.dropWhile_suffix isSpace

theorem hexUnit?_suffix {n : Nat} (h : hexUnit? cs = some (n, rest)) : rest <:+ cs := by
  unfold hexUnit? at h
  split at h
  · simp only [Option.bind_eq_bind, Option.bind_eq_some_iff, Option.some.injEq, Prod.mk.injEq] at h
    obtain ⟨_, -, _, -, _, -, _, -, -, rfl⟩ := h
    exact ⟨[_, _, _, _], rfl⟩
  · cases h

theorem unicodeEscape?_suffix {c : CodePoint} (h : unicodeEscape? cs = some (c, rest)) :
    rest <:+ cs := by
  unfold unicodeEscape? at h
  split at h
  · cases h
  · rename_i high tail hunit
    have htail := hexUnit?_suffix hunit
    have hown {c' : CodePoint} (h : some (c', tail) = some (c, rest)) : rest <:+ cs :=
      (Prod.mk.inj (Option.some.inj h)).2 ▸ htail
    split at h
    · split at h
      · split at h
        · rename_i low tail' hlow
          split at h
          · -- a second escape has been read, for the other half of a pair
            have hrest := (Prod.mk.inj (Option.some.inj h)).2
            rw [← hrest]
            exact ((hexUnit?_suffix hlow).trans ⟨[char '\\', char 'u'], rfl⟩).trans htail
          · exact hown h
        · exact hown h
      · exact hown h
    · exact hown h

theorem stringBody_leaves (read : List CodePoint) (fuel : Nat) (cs : List CodePoint) :
    Leaves cs (stringBody read fuel cs) := by
  fun_induction stringBody read fuel cs with
  | case1 => exact .malformed
  | case2 => exact .malformed
  | case3 => exact .ok (List.suffix_cons _ _)
  | case4 read fuel cs c rest hescape ih =>
    exact ih.of_suffix ((unicodeEscape?_suffix hescape).trans ⟨[char '\\', char 'u'], rfl⟩)
  | case5 => exact .malformed
  | case6 read fuel c cs hnot c' hescape ih => exact ih.of_suffix ⟨[char '\\', c], rfl⟩
  | case7 => exact .malformed
  | case8 => exact .malformed
  | case9 read fuel c cs hquote hunicode hescape hplain ih =>
    exact ih.of_suffix (List.suffix_cons _ _)

theorem wholePart_append (cs : List CodePoint) : (wholePart cs).1 ++ (wholePart cs).2 = cs := by
  unfold wholePart
  split
  · rfl
  · exact List.takeWhile_append_dropWhile

theorem isAsciiDigit_of_mem_wholePart {c : CodePoint} (h : c ∈ (wholePart cs).1) :
    Text.isAsciiDigit c = true := by
  unfold wholePart at h
  split at h
  · rw [List.mem_singleton.mp h]
    decide
  · exact List.mem_takeWhile_imp h

theorem fractionPart_suffix (cs : List CodePoint) : (fractionPart cs).2 <:+ cs := by
  unfold fractionPart
  split
  · simp only
    split
    · exact List.suffix_refl _
    · exact (List.dropWhile_suffix _).trans (List.suffix_cons _ _)
  · exact List.suffix_refl _

theorem splitSign_suffix (cs : List CodePoint) : (splitSign cs).2 <:+ cs := by
  unfold splitSign
  split
  · exact List.suffix_cons _ _
  · exact List.suffix_cons _ _
  · exact List.suffix_refl _

theorem exponentPart_suffix (cs : List CodePoint) : (exponentPart cs).2 <:+ cs := by
  unfold exponentPart
  split
  · rename_i c tail
    split
    · simp only
      split
      · exact List.suffix_refl _
      · exact ((List.dropWhile_suffix _).trans (splitSign_suffix tail)).trans (List.suffix_cons _ _)
    · exact List.suffix_refl _
  · exact List.suffix_refl _

theorem numberBody_leaves (negative : Bool) (cs : List CodePoint) :
    Leaves cs (numberBody negative cs) := by
  have hwhole : (wholePart cs).2 <:+ cs := ⟨_, wholePart_append cs⟩
  have hrest := ((exponentPart_suffix _).trans (fractionPart_suffix _)).trans hwhole
  unfold numberBody
  simp only
  split
  · exact .malformed
  · split
    · split
      · rename_i hlong
        refine .tooLong ⟨_, ?_, fun c => isAsciiDigit_of_mem_wholePart, hlong⟩
        exact List.IsPrefix.isInfix ⟨_, wholePart_append cs⟩
      · exact .ok hrest
    · exact .ok hrest

theorem keyword_leaves (word : Text) (value : Json) (cs : List CodePoint) :
    Leaves cs (keyword word value cs) := by
  unfold keyword
  split
  · exact .ok (List.drop_suffix _ _)
  · exact .malformed

/-- What the three readers make of a text at one depth. -/
structure ReadersLeave (fuel : Nat) : Prop where
  value : ∀ cs, Leaves cs (readValue fuel cs)
  items : ∀ read cs, Leaves cs (readItems read fuel cs)
  members : ∀ read cs, Leaves cs (readMembers read fuel cs)

namespace ReadersLeave

variable {fuel : Nat}

theorem value_succ (ih : ReadersLeave fuel) (cs : List CodePoint) :
    Leaves cs (readValue (fuel + 1) cs) := by
  unfold readValue
  split
  · exact .malformed
  · exact ((stringBody_leaves _ _ _).map Json.string).of_suffix (List.suffix_cons _ _)
  · rename_i tail
    have htail : skipSpace tail <:+ char '\x7b' :: tail :=
      (skipSpace_suffix tail).trans (List.suffix_cons _ _)
    split
    · rename_i rest hspace
      exact .ok ((hspace ▸ List.suffix_cons _ _ : rest <:+ skipSpace tail).trans htail)
    · exact (ih.members _ _).of_suffix htail
  · rename_i tail
    have htail : skipSpace tail <:+ char '[' :: tail :=
      (skipSpace_suffix tail).trans (List.suffix_cons _ _)
    split
    · rename_i rest hspace
      exact .ok ((hspace ▸ List.suffix_cons _ _ : rest <:+ skipSpace tail).trans htail)
    · exact (ih.items _ _).of_suffix htail
  · exact keyword_leaves _ _ _
  · exact keyword_leaves _ _ _
  · exact keyword_leaves _ _ _
  · exact keyword_leaves _ _ _
  · exact keyword_leaves _ _ _
  · exact keyword_leaves _ _ _
  · exact (numberBody_leaves _ _).of_suffix (List.suffix_cons _ _)
  · exact numberBody_leaves _ _

/-- What stands behind a value and blanks is a rest of the text as well. -/
theorem suffix_of_skipSpace {c : CodePoint} {tail : List CodePoint} (h : rest <:+ cs)
    (hspace : skipSpace rest = c :: tail) : tail <:+ cs := by
  have htail : tail <:+ skipSpace rest := hspace ▸ List.suffix_cons c tail
  exact (htail.trans (skipSpace_suffix rest)).trans h

theorem items_succ (ih : ReadersLeave fuel) (read : List Json) (cs : List CodePoint) :
    Leaves cs (readItems read (fuel + 1) cs) := by
  have hvalue := ih.value cs
  unfold readItems
  revert hvalue
  generalize readValue fuel cs = r
  intro hvalue
  cases hvalue with
  | malformed => exact .malformed
  | tooLong h => exact .tooLong h
  | ok hrest =>
    simp only
    split
    · rename_i tail hcomma
      exact (ih.items _ _).of_suffix
        ((skipSpace_suffix tail).trans (suffix_of_skipSpace hrest hcomma))
    · rename_i tail hbracket
      exact .ok (suffix_of_skipSpace hrest hbracket)
    · exact .malformed

theorem members_succ (ih : ReadersLeave fuel) (read : List (Text × Json)) (cs : List CodePoint) :
    Leaves cs (readMembers read (fuel + 1) cs) := by
  unfold readMembers
  split
  · rename_i tail
    have hkey := (stringBody_leaves [] (tail.length + 1) tail).of_suffix
      (List.suffix_cons (char '"') tail)
    revert hkey
    generalize stringBody [] (tail.length + 1) tail = r
    intro hkey
    cases hkey with
    | malformed => exact .malformed
    | tooLong h => exact .tooLong h
    | ok hrest =>
      simp only
      split
      · rename_i tail' hcolon
        have hvalue := (ih.value (skipSpace tail')).of_suffix
          ((skipSpace_suffix tail').trans (suffix_of_skipSpace hrest hcolon))
        revert hvalue
        generalize readValue fuel (skipSpace tail') = r'
        intro hvalue
        cases hvalue with
        | malformed => exact .malformed
        | tooLong h => exact .tooLong h
        | ok hrest' =>
          simp only
          split
          · rename_i tail'' hcomma
            exact (ih.members _ _).of_suffix
              ((skipSpace_suffix tail'').trans (suffix_of_skipSpace hrest' hcomma))
          · rename_i tail'' hbrace
            exact .ok (suffix_of_skipSpace hrest' hbrace)
          · exact .malformed
      · exact .malformed
  · exact .malformed

end ReadersLeave

theorem readersLeave (fuel : Nat) : ReadersLeave fuel := by
  induction fuel with
  | zero => exact ⟨fun _ => .malformed, fun _ _ => .malformed, fun _ _ => .malformed⟩
  | succ fuel ih => exact ⟨ih.value_succ, ih.items_succ, ih.members_succ⟩

theorem holdsLongNumeral_of_read {text : Text} (h : read text = .error .numeralTooLong) :
    HoldsLongNumeral text.toList := by
  have hvalue := ((readersLeave (2 * (skipSpace text.toList).length + 2)).value _).of_suffix
    (skipSpace_suffix text.toList)
  unfold read at h
  simp only at h
  split at h
  · rename_i e he
    rw [he] at hvalue
    cases h
    cases hvalue with
    | tooLong h => exact h
  · split at h <;> cases h

end PrefAccessor.Json
