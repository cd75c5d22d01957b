import Mathlib.Data.List.TakeWhile
import PrefAccessor.Schema.Basic
import PrefAccessor.Text.Digit

/-!
# Defaults of too many digits

A row of digits beyond a certain length is not converted to an integer, and neither is an integer to
such a row. This is the only way in which a default makes reading stop; a default that is no text
runs into it only as an integer.
-/

namespace PrefAccessor

set_option autoImplicit false

namespace Number

/-- A row of digits, behind a sign or not, that is longer than what is converted. -/
def IsOverlong (cs : List CodePoint) : Prop :=
  (splitSign cs).2.all Text.isDigit = true ∧ maxNumeralDigits < (splitSign cs).2.length

theorem readInt_eq_tooLong {cs : List CodePoint} : readInt cs = .tooLong ↔ IsOverlong cs := by
  unfold readInt IsOverlong
  by_cases hall : (splitSign cs).2.all Text.isDigit = true
  · by_cases hlen : maxNumeralDigits < (splitSign cs).2.length
    · have hne : (splitSign cs).2.isEmpty = false := by
        rw [List.isEmpty_eq_false_iff_exists_mem]
        exact List.exists_mem_of_length_pos (Nat.zero_lt_of_lt hlen)
      simp [hall, hlen, hne]
    · by_cases hne : (splitSign cs).2.isEmpty = true <;> simp [hall, hlen, hne]
  · simp [hall]

end Number

namespace PrefType

/-- The part of a literal that has to be an integer. -/
def numeral? (literal : Text) : PrefType → Option (List CodePoint)
  | .int => some (Text.trim literal.toList)
  | .long => some (dropMark isLongMark (Text.trim literal.toList))
  | _ => none

/-- A default whose numeral is too long to be converted. -/
def IsOverlong (type : PrefType) (default : Option Text) : Prop :=
  ∃ literal cs, default = some literal ∧ type.numeral? literal = some cs ∧ Number.IsOverlong cs

theorem readInteger_eq_fault {type : PrefType} {least greatest : Int} {literal : Text}
    {cs : List CodePoint} {k : Fault} :
    readInteger type least greatest literal cs = .error (.fault k) ↔
      k = .badValue ∧ Number.IsOverlong cs := by
  rw [← Number.readInt_eq_tooLong]
  unfold readInteger
  split
  · rename_i h
    simp [Attempt.refuse, h]
  · rename_i h
    simp [Attempt.stop, h, eq_comm]
  · rename_i h
    split <;> simp [Attempt.refuse, h]

theorem readFloat_ne_fault {literal : Text} {k : Fault} :
    readFloat literal ≠ .error (.fault k) := by
  unfold readFloat
  split
  · simp only
    split <;> simp [Attempt.refuse]
  · simp [Attempt.refuse]

theorem readBoolean_ne_fault {literal : Text} {k : Fault} :
    readBoolean literal ≠ .error (.fault k) := by
  unfold readBoolean
  split
  · simp
  · split <;> simp [Attempt.refuse]

theorem defaultValue_eq_fault {type : PrefType} {default : Option Text} {k : Fault} :
    type.defaultValue default = .error (.fault k) ↔ k = .badValue ∧ type.IsOverlong default := by
  cases default with
  | none => simp [defaultValue, IsOverlong]
  | some literal =>
    cases type <;>
      simp [defaultValue, readLiteral, IsOverlong, numeral?, readInteger_eq_fault,
        readFloat_ne_fault, readBoolean_ne_fault]

end PrefType

/-- A value that can be given as a default. -/
def Json.IsScalar : Json → Prop
  | .null => False
  | .array _ => False
  | .object _ => False
  | _ => True

theorem literalOf_eq_error {v : Json} {k : Fault} :
    literalOf v = .error k ↔ k = .badValue ∧ v.isWritable = false := by
  unfold literalOf
  split
  · simp [Json.isWritable]
  · split
    · rename_i hw
      simp [hw]
    · rename_i hw
      simp [hw, eq_comm]

theorem map_literalOf_eq_error {v : Json} {k : Fault} :
    (literalOf v).map some = .error k ↔ k = .badValue ∧ v.isWritable = false := by
  rw [← literalOf_eq_error]
  cases literalOf v <;> simp [Except.map]

namespace Text

/-- Trimming takes nothing but blanks away. -/
theorem mem_trim {cs : List CodePoint} {c : CodePoint} (hc : c ∈ cs) (hblank : isBlank c = false) :
    c ∈ trim cs := by
  have hkeep (l : List CodePoint) (hl : c ∈ l) : c ∈ l.dropWhile isBlank := by
    rw [← List.takeWhile_append_dropWhile (p := isBlank) (l := l)] at hl
    rcases List.mem_append.mp hl with hl | hl
    · have := List.mem_takeWhile_imp hl
      rw [hblank] at this
      cases this
    · exact hl
  exact List.mem_reverse.mpr (hkeep _ (List.mem_reverse.mpr (hkeep _ hc)))

end Text

namespace Number

theorem splitSign_sublist (cs : List CodePoint) : (splitSign cs).2.Sublist cs := by
  unfold splitSign
  split
  · exact List.sublist_cons_self _ _
  · exact List.sublist_cons_self _ _
  · exact List.Sublist.refl _

theorem mem_splitSign {cs : List CodePoint} {c : CodePoint} (hc : c ∈ cs) (hminus : c ≠ '-')
    (hplus : c ≠ '+') : c ∈ (splitSign cs).2 := by
  unfold splitSign
  split
  · exact (List.mem_cons.mp hc).resolve_left hminus
  · exact (List.mem_cons.mp hc).resolve_left hplus
  · exact hc

end Number

namespace PrefType

theorem dropMark_sublist (isMark : CodePoint → Bool) (cs : List CodePoint) :
    (dropMark isMark cs).Sublist cs := by
  unfold dropMark
  split
  · split
    · exact List.dropLast_sublist cs
    · exact List.Sublist.refl cs
  · exact List.Sublist.refl cs

theorem mem_dropMark {isMark : CodePoint → Bool} {cs : List CodePoint} {c : CodePoint} (hc : c ∈ cs)
    (hmark : isMark c = false) : c ∈ dropMark isMark cs := by
  unfold dropMark
  split
  · rename_i d hd
    split
    · rename_i hisMark
      obtain ⟨ds, rfl⟩ := List.getLast?_eq_some_iff.mp hd
      rw [List.dropLast_concat]
      rcases List.mem_append.mp hc with hc | hc
      · exact hc
      · rw [List.mem_singleton.mp hc, hisMark] at hmark
        cases hmark
    · exact hc
  · exact hc

/-- A literal whose numeral is too long has too many digits, and hardly anything else. -/
theorem IsOverlong.exists_digits {type : PrefType} {literal : Text}
    (h : type.IsOverlong (some literal)) :
    ∃ ds : List CodePoint, ds.Sublist literal.toList ∧ ds.all Text.isDigit = true ∧
      Number.maxNumeralDigits < ds.length ∧
      ∀ c ∈ literal.toList, Text.isBlank c = false → c ≠ '-' → c ≠ '+' → isLongMark c = false →
        c ∈ ds := by
  obtain ⟨_, cs, ⟨⟩, hcs, hall, hlen⟩ := h
  refine ⟨_, ?_, hall, hlen, fun c hc hblank hminus hplus hmark => ?_⟩
  · refine (Number.splitSign_sublist cs).trans ?_
    cases type with
    | int =>
      cases hcs
      exact Text.trimWhile_sublist _ _
    | long =>
      cases hcs
      exact (dropMark_sublist _ _).trans (Text.trimWhile_sublist _ _)
    | _ => cases hcs
  · refine Number.mem_splitSign ?_ hminus hplus
    cases type with
    | int =>
      cases hcs
      exact Text.mem_trim hc hblank
    | long =>
      cases hcs
      exact mem_dropMark (Text.mem_trim hc hblank) hmark
    | _ => cases hcs

end PrefType

/-- No integer of too many digits is given as a default, neither as a number nor as a text. -/
def Json.NumeralFits : Json → Prop
  | .int n => (Json.int n).isWritable = true
  | .string s => ∀ type : PrefType, ¬ type.IsOverlong (some s)
  | _ => True

namespace Number

/-- A written number has a point, a mark of its exponent or a letter. -/
theorem mem_write_displayStyle (x : Binary64) :
    ∃ c ∈ displayStyle.write x, c = '.' ∨ c = 'e' ∨ c = 'n' := by
  cases x with
  | nan => exact ⟨'n', by simp [FloatStyle.write, displayStyle], by simp⟩
  | infinite negative => exact ⟨'n', by simp [FloatStyle.write, displayStyle], by simp⟩
  | finite negative coefficient exponent =>
    have hmagnitude : ∃ c ∈ displayStyle.magnitude coefficient exponent, c = '.' ∨ c = 'e' := by
      unfold FloatStyle.magnitude
      split
      · exact ⟨'.', by simp, Or.inl rfl⟩
      · simp only
        split
        · refine ⟨'.', ?_, Or.inl rfl⟩
          unfold FloatStyle.positional
          split
          · simp
          · simp only
            split <;> simp
        · exact ⟨'e', by simp [FloatStyle.scientific], Or.inr rfl⟩
    obtain ⟨c, hc, hcases⟩ := hmagnitude
    exact ⟨c, List.mem_append_right _ hc, hcases.imp_right Or.inl⟩

theorem not_isOverlong_displayFloat (type : PrefType) (x : Binary64) :
    ¬ type.IsOverlong (some (displayFloat x)) := by
  intro h
  obtain ⟨ds, -, hall, -, hmem⟩ := h.exists_digits
  obtain ⟨c, hc, hcases⟩ := mem_write_displayStyle x
  have hc' : c ∈ (displayFloat x).toList := by simpa [displayFloat] using hc
  have hdigit : Text.isDigit c = true := by
    refine List.all_eq_true.mp hall c ?_
    rcases hcases with rfl | rfl | rfl <;>
      exact hmem _ hc' (by decide) (by decide) (by decide) (by decide)
  rcases hcases with rfl | rfl | rfl <;> exact absurd hdigit (by decide)

theorem length_digits_displayInt (n : Int) :
    ((displayInt n).toList.filter Text.isDigit).length ≤ (writeNat n.natAbs).length := by
  cases n with
  | ofNat n =>
    simp only [displayInt, writeInt, Text.toList_ofList]
    exact List.length_filter_le _ _
  | negSucc n =>
    simp only [displayInt, writeInt, Text.toList_ofList]
    rw [List.filter_cons_of_neg (by decide)]
    exact List.length_filter_le _ _

theorem not_isOverlong_displayInt (type : PrefType) {n : Int}
    (hn : (Json.int n).isWritable = true) : ¬ type.IsOverlong (some (displayInt n)) := by
  intro h
  obtain ⟨ds, hsub, hall, hlen, -⟩ := h.exists_digits
  have hfilter : ds.length ≤ ((displayInt n).toList.filter Text.isDigit).length := by
    have := (hsub.filter Text.isDigit).length_le
    rwa [List.filter_eq_self.mpr (List.all_eq_true.mp hall)] at this
  have hwritten := length_digits_displayInt n
  rw [Json.isWritable, decide_eq_true_eq] at hn
  omega

end Number

theorem not_isOverlong_of_numeralFits {d : Json} (hscalar : d.IsScalar) (hd : d.NumeralFits)
    {literal : Text} (hl : literalOf d = .ok literal) (type : PrefType) :
    ¬ type.IsOverlong (some literal) := by
  cases d with
  | bool b =>
    simp only [literalOf, Except.ok.injEq] at hl
    subst hl
    intro h
    obtain ⟨ds, hsub, -, hlen, -⟩ := h.exists_digits
    have hshort : ds.length ≤ 5 := hsub.length_le.trans (by cases b <;> decide)
    unfold Number.maxNumeralDigits at hlen
    omega
  | string s =>
    simp only [literalOf, Json.isWritable_string, if_true, Json.display_string,
      Except.ok.injEq] at hl
    exact hl ▸ hd type
  | int n =>
    have hn : (Json.int n).isWritable = true := hd
    simp only [literalOf, hn, if_true, Except.ok.injEq] at hl
    exact hl ▸ Number.not_isOverlong_displayInt type hn
  | float x =>
    simp only [literalOf, Json.isWritable, if_true, Except.ok.injEq] at hl
    exact hl ▸ Number.not_isOverlong_displayFloat type x
  | null => exact hscalar.elim
  | array items => exact hscalar.elim
  | object members => exact hscalar.elim

end PrefAccessor
