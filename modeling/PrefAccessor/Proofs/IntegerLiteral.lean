import Mathlib.Data.Nat.Digits.Defs
import PrefAccessor.Proofs.DeclarationAgreement
import PrefAccessor.Proofs.NumeralCharacters
import PrefAccessor.Proofs.PythonLiteral

/-!
# Integers as defaults

Which integer a literal spells, by the value of its digits in base ten, and which literals are read as
a default of an integer type: those that spell an integer in its range, and no others. So an integer
in range reads back from any of its spellings, and a default that is given as an integer is that
integer.
-/

namespace PrefAccessor

set_option autoImplicit false

open Text

namespace Number

/-- Digits of any script that spell a number in base ten. -/
def SpellsNat (ds : List CodePoint) (n : Nat) : Prop :=
  ds ≠ [] ∧ ∃ values, List.Forall₂ (fun c v => digitValue? c = some v) ds values ∧
    n = Nat.ofDigits 10 values.reverse

/-- Digits with a sign in front of them or none. -/
inductive SpellsInt : List CodePoint → Int → Prop where
  | bare {ds : List CodePoint} {n : Nat} (h : SpellsNat ds n) : SpellsInt ds n
  | plus {ds : List CodePoint} {n : Nat} (h : SpellsNat ds n) : SpellsInt (char '+' :: ds) n
  | minus {ds : List CodePoint} {n : Nat} (h : SpellsNat ds n) : SpellsInt (char '-' :: ds) (-n)

/-- An integer with at most one mark behind it. -/
inductive SpellsLong : List CodePoint → Int → Prop where
  | bare {cs : List CodePoint} {n : Int} (h : SpellsInt cs n) : SpellsLong cs n
  | marked {cs : List CodePoint} {n : Int} {mark : CodePoint} (hmark : mark ∈ [char 'l', char 'L'])
      (h : SpellsInt cs n) : SpellsLong (cs ++ [mark]) n

theorem foldl_digits {ds : List CodePoint} {values : List Nat}
    (h : List.Forall₂ (fun c v => digitValue? c = some v) ds values) (start : Nat) :
    ds.foldl (fun n c => 10 * n + (digitValue? c).getD 0) start =
      Nat.ofDigits 10 values.reverse + 10 ^ values.length * start := by
  induction h generalizing start with
  | nil => simp
  | @cons c v ds values hc h ih =>
    rw [List.foldl_cons, ih, hc, Option.getD_some, List.reverse_cons, Nat.ofDigits_append,
      Nat.ofDigits_singleton, List.length_reverse, List.length_cons, pow_succ]
    ring

theorem exists_values {ds : List CodePoint} (h : ds.all isDigit = true) :
    ∃ values, List.Forall₂ (fun c v => digitValue? c = some v) ds values := by
  induction ds with
  | nil => exact ⟨[], .nil⟩
  | cons c ds ih =>
    rw [List.all_cons, Bool.and_eq_true] at h
    obtain ⟨v, hv⟩ := Option.isSome_iff_exists.mp h.1
    obtain ⟨values, hvalues⟩ := ih h.2
    exact ⟨v :: values, .cons hv hvalues⟩

theorem all_isDigit {ds : List CodePoint} {values : List Nat}
    (h : List.Forall₂ (fun c v => digitValue? c = some v) ds values) : ds.all isDigit = true := by
  induction h with
  | nil => rfl
  | cons hc _ ih => rw [List.all_cons, isDigit, hc, ih, Option.isSome_some, Bool.true_and]

theorem spellsNat_iff {ds : List CodePoint} {n : Nat} :
    SpellsNat ds n ↔ ds ≠ [] ∧ ds.all isDigit = true ∧ digitsValue ds = n := by
  have hvalue {values : List Nat}
      (h : List.Forall₂ (fun c v => digitValue? c = some v) ds values) :
      digitsValue ds = Nat.ofDigits 10 values.reverse := by
    rw [digitsValue, foldl_digits h]
    rfl
  constructor
  · rintro ⟨hne, values, hvalues, rfl⟩
    exact ⟨hne, all_isDigit hvalues, hvalue hvalues⟩
  · rintro ⟨hne, hall, rfl⟩
    obtain ⟨values, hvalues⟩ := exists_values hall
    exact ⟨hne, values, hvalues, hvalue hvalues⟩

/-- Digits have no sign in front. -/
theorem splitSign_digits {ds : List CodePoint} (h : ds.all isDigit = true) :
    splitSign ds = (false, ds) := by
  unfold splitSign
  split
  · cases h
  · cases h
  · rfl

theorem spellsInt_iff {cs : List CodePoint} {v : Int} :
    SpellsInt cs v ↔
      ∃ n, SpellsNat (splitSign cs).2 n ∧ v = applySign (splitSign cs).1 n := by
  constructor
  · rintro (@⟨_, n, h⟩ | @⟨_, n, h⟩ | @⟨_, n, h⟩)
    · have hall := (spellsNat_iff.mp h).2.1
      rw [splitSign_digits hall]
      exact ⟨n, h, rfl⟩
    · exact ⟨n, h, rfl⟩
    · exact ⟨n, h, rfl⟩
  · rintro ⟨n, h, rfl⟩
    unfold splitSign at h ⊢
    split at h
    · exact .minus h
    · exact .plus h
    · exact .bare h

/-- Reading where numerals of up to `limit` digits are converted, or all. -/
def readIntUpTo (limit : Option Nat) (cs : List CodePoint) : Reading :=
  let (negative, ds) := splitSign cs
  if ds.isEmpty || !ds.all isDigit then .malformed
  else if limit.any (fun k => decide (k < ds.length)) then .tooLong
  else .value (applySign negative (digitsValue ds))

theorem readIntUpTo_maxNumeralDigits (cs : List CodePoint) :
    readIntUpTo (some maxNumeralDigits) cs = readInt cs := by
  unfold readIntUpTo readInt
  simp

theorem readIntUpTo_of_spells {limit : Option Nat} {cs : List CodePoint} {v : Int} (h : SpellsInt cs v)
    (hlimit : ∀ k ∈ limit, (splitSign cs).2.length ≤ k) : readIntUpTo limit cs = .value v := by
  obtain ⟨n, hn, rfl⟩ := spellsInt_iff.mp h
  obtain ⟨hne, hall, rfl⟩ := spellsNat_iff.mp hn
  have hempty : (splitSign cs).2.isEmpty = false := by simpa using hne
  have hfits : limit.any (fun k => decide (k < (splitSign cs).2.length)) = false := by
    cases limit with
    | none => rfl
    | some k => simpa using hlimit k rfl
  simp [readIntUpTo, hempty, hall, hfits]

theorem readIntUpTo_of_not_spells {limit : Option Nat} {cs : List CodePoint}
    (h : ∀ v, ¬SpellsInt cs v) : readIntUpTo limit cs = .malformed := by
  have hnot : ((splitSign cs).2.isEmpty || !(splitSign cs).2.all isDigit) = true := by
    by_contra hdigits
    rw [Bool.not_eq_true, Bool.or_eq_false_iff, Bool.not_eq_false'] at hdigits
    obtain ⟨hempty, hall⟩ := hdigits
    have hne : (splitSign cs).2 ≠ [] := List.isEmpty_eq_false_iff.mp hempty
    exact h _ (spellsInt_iff.mpr ⟨_, spellsNat_iff.mpr ⟨hne, hall, rfl⟩, rfl⟩)
  exact if_pos hnot

theorem SpellsInt.unique {cs : List CodePoint} {v w : Int} (hv : SpellsInt cs v) (hw : SpellsInt cs w) :
    v = w := by
  have hread {n : Int} (h : SpellsInt cs n) : readIntUpTo none cs = .value n :=
    readIntUpTo_of_spells h nofun
  exact Reading.value.inj ((hread hv).symm.trans (hread hw))

/-- A text of no more digits than are converted. -/
def Converts (limit : Option Nat) (cs : List CodePoint) : Prop :=
  ∀ k ∈ limit, (cs.filter isDigit).length ≤ k

/-- What is left of a text has no more digits than the text. -/
theorem Converts.length_le {limit : Option Nat} {cs numeral : List CodePoint} (h : Converts limit cs)
    (hsub : numeral.Sublist cs) {v : Int} (hv : SpellsInt numeral v) :
    ∀ k ∈ limit, (splitSign numeral).2.length ≤ k := by
  intro k hk
  obtain ⟨n, hn, -⟩ := spellsInt_iff.mp hv
  have hall := (spellsNat_iff.mp hn).2.1
  have hfilter : (splitSign numeral).2.filter isDigit = (splitSign numeral).2 :=
    List.filter_eq_self.mpr (List.all_eq_true.mp hall)
  have hle := (((splitSign_sublist numeral).trans hsub).filter isDigit).length_le
  rw [hfilter] at hle
  exact hle.trans (h k hk)

end Number

namespace PrefType

open Number

/-- What a literal of an integer type spells between the blanks around it. -/
def Spells : PrefType → Text → Int → Prop
  | .int, literal, n => SpellsInt (trim literal.toList) n
  | .long, literal, n => SpellsLong (trim literal.toList) n
  | _, _, _ => False

/-- The integers of a type. -/
def InRange : PrefType → Int → Prop
  | .int, n => -2 ^ 31 ≤ n ∧ n ≤ 2 ^ 31 - 1
  | .long, n => -2 ^ 63 ≤ n ∧ n ≤ 2 ^ 63 - 1
  | _, _ => False

def readIntegerUpTo (limit : Option Nat) (type : PrefType) (least greatest : Int) (literal : Text)
    (body : List CodePoint) : Attempt DefaultProblem PrefValue :=
  match readIntUpTo limit body with
  | .malformed => Attempt.refuse (.malformed type literal)
  | .tooLong => Attempt.stop .badValue
  | .value n =>
    if least ≤ n ∧ n ≤ greatest then .ok (.int n)
    else Attempt.refuse (.outOfRange type literal)

/-- The default that a literal declares, where numerals of up to `limit` digits are converted, or
all. -/
def readLiteralUpTo (limit : Option Nat) (literal : Text) :
    PrefType → Attempt DefaultProblem PrefValue
  | .int => readIntegerUpTo limit .int leastInt32 greatestInt32 literal (trim literal.toList)
  | .long => readIntegerUpTo limit .long leastInt64 greatestInt64 literal
      (dropMark isLongMark (trim literal.toList))
  | type => type.readLiteral literal

theorem readLiteralUpTo_maxNumeralDigits (literal : Text) (type : PrefType) :
    readLiteralUpTo (some maxNumeralDigits) literal type = type.readLiteral literal := by
  have hinteger (type : PrefType) (least greatest : Int) (body : List CodePoint) :
      readIntegerUpTo (some maxNumeralDigits) type least greatest literal body =
        readInteger type least greatest literal body := by
    cases hread : readInt body <;>
      simp only [readIntegerUpTo, readInteger, readIntUpTo_maxNumeralDigits, hread]
  cases type with
  | int => exact hinteger _ _ _ _
  | long => exact hinteger _ _ _ _
  | _ => rfl

theorem isLongMark_iff {c : CodePoint} : isLongMark c = true ↔ c ∈ [char 'l', char 'L'] := by
  simp [isLongMark]

/-- The last character of a numeral is a digit, which is no mark. -/
theorem dropMark_of_spells {cs : List CodePoint} {n : Int} (h : SpellsInt cs n) :
    dropMark isLongMark cs = cs := by
  obtain ⟨m, hm, -⟩ := spellsInt_iff.mp h
  have hall := (spellsNat_iff.mp hm).2.1
  have hmarks : ∀ c ∈ [char 'l', char 'L'], c ≠ '-' ∧ c ≠ '+' ∧ isDigit c = false := by
    intro c hc
    rcases List.mem_pair.mp hc with rfl | rfl <;> exact ⟨by simp, by simp, rfl⟩
  unfold dropMark
  split
  · rename_i c hc
    rw [if_neg]
    intro hmark
    obtain ⟨hminus, hplus, hdigit⟩ := hmarks c (isLongMark_iff.mp hmark)
    have hmem := mem_splitSign (List.mem_of_getLast? hc) hminus hplus
    rw [List.all_eq_true.mp hall c hmem] at hdigit
    cases hdigit
  · rfl

theorem spellsLong_iff {cs : List CodePoint} {n : Int} :
    SpellsLong cs n ↔ SpellsInt (dropMark isLongMark cs) n := by
  constructor
  · rintro (h | ⟨hmark, h⟩)
    · rwa [dropMark_of_spells h]
    · simpa [dropMark, isLongMark_iff.mpr hmark] using h
  · intro h
    unfold dropMark at h
    split at h
    · rename_i c hc
      split at h
      · rename_i hmark
        obtain ⟨ds, rfl⟩ := List.getLast?_eq_some_iff.mp hc
        rw [List.dropLast_concat] at h
        exact .marked (isLongMark_iff.mp hmark) h
      · exact .bare h
    · exact .bare h

theorem readIntegerUpTo_of_spells (type : PrefType) (least greatest : Int) (literal : Text)
    {limit : Option Nat} {body : List CodePoint} {n : Int} (h : SpellsInt body n)
    (hlimit : ∀ k ∈ limit, (splitSign body).2.length ≤ k) :
    readIntegerUpTo limit type least greatest literal body =
      if least ≤ n ∧ n ≤ greatest then .ok (.int n)
      else Attempt.refuse (.outOfRange type literal) := by
  rw [readIntegerUpTo, readIntUpTo_of_spells h hlimit]

theorem readIntegerUpTo_of_not_spells {limit : Option Nat} {type : PrefType} {least greatest : Int}
    {literal : Text} {body : List CodePoint} (h : ∀ n, ¬SpellsInt body n) :
    readIntegerUpTo limit type least greatest literal body =
      Attempt.refuse (.malformed type literal) := by
  rw [readIntegerUpTo, readIntUpTo_of_not_spells h]

/-- The part of a literal that a type reads as an integer, and the bounds of the type. -/
theorem exists_body {type : PrefType} (htype : type = .int ∨ type = .long) (literal : Text) :
    ∃ body least greatest, body.Sublist literal.toList ∧
      (∀ n, type.Spells literal n ↔ SpellsInt body n) ∧
      (∀ n, type.InRange n ↔ least ≤ n ∧ n ≤ greatest) ∧
      ∀ limit, readLiteralUpTo limit literal type =
        readIntegerUpTo limit type least greatest literal body := by
  have htrim : (trim literal.toList).Sublist literal.toList := trimWhile_sublist _ _
  rcases htype with rfl | rfl
  · exact ⟨trim literal.toList, leastInt32, greatestInt32, htrim, fun _ => Iff.rfl,
      fun _ => Iff.rfl, fun _ => rfl⟩
  · exact ⟨dropMark isLongMark (trim literal.toList), leastInt64, greatestInt64,
      (dropMark_sublist _ _).trans htrim, fun _ => spellsLong_iff, fun _ => Iff.rfl, fun _ => rfl⟩

/-- A literal is read as the integer that it spells, and refused where that is out of range or where
it spells none. -/
theorem readLiteralUpTo_cases {type : PrefType} (htype : type = .int ∨ type = .long)
    {limit : Option Nat} {literal : Text} (h : Converts limit literal.toList) :
    (∃ n, type.Spells literal n ∧ type.InRange n ∧
      readLiteralUpTo limit literal type = .ok (.int n)) ∨
    (∃ n, type.Spells literal n ∧ ¬type.InRange n ∧
      readLiteralUpTo limit literal type = Attempt.refuse (.outOfRange type literal)) ∨
    (∀ n, ¬type.Spells literal n) ∧
      readLiteralUpTo limit literal type = Attempt.refuse (.malformed type literal) := by
  obtain ⟨body, least, greatest, hsub, hspells, hrange, hread⟩ := exists_body htype literal
  by_cases hnone : ∀ n, ¬SpellsInt body n
  · refine Or.inr (Or.inr ⟨fun n hn => hnone n ((hspells n).mp hn), ?_⟩)
    rw [hread, readIntegerUpTo_of_not_spells hnone]
  · obtain ⟨n, hn⟩ := not_forall_not.mp hnone
    have hvalue := readIntegerUpTo_of_spells type least greatest literal hn (h.length_le hsub hn)
    by_cases hin : least ≤ n ∧ n ≤ greatest
    · rw [if_pos hin] at hvalue
      exact Or.inl ⟨n, (hspells n).mpr hn, (hrange n).mpr hin, (hread limit).trans hvalue⟩
    · rw [if_neg hin] at hvalue
      exact Or.inr (Or.inl ⟨n, (hspells n).mpr hn, fun hr => hin ((hrange n).mp hr),
        (hread limit).trans hvalue⟩)

theorem Spells.unique {type : PrefType} {literal : Text} {n m : Int}
    (hn : type.Spells literal n) (hm : type.Spells literal m) : n = m := by
  cases type with
  | int => exact SpellsInt.unique hn hm
  | long => exact SpellsInt.unique (spellsLong_iff.mp hn) (spellsLong_iff.mp hm)
  | _ => exact hn.elim

/-- A literal that spells an integer in range is read as that integer, and no other is read. -/
theorem readLiteralUpTo_eq_ok {type : PrefType} (htype : type = .int ∨ type = .long)
    {limit : Option Nat} {literal : Text} (h : Converts limit literal.toList) {v : PrefValue} :
    readLiteralUpTo limit literal type = .ok v ↔
      ∃ n, v = .int n ∧ type.Spells literal n ∧ type.InRange n := by
  rcases readLiteralUpTo_cases htype h with ⟨n, hn, hrange, hread⟩ | ⟨n, hn, hrange, hread⟩ |
    ⟨hnone, hread⟩
  · rw [hread, Except.ok.injEq]
    constructor
    · rintro rfl
      exact ⟨n, rfl, hn, hrange⟩
    · rintro ⟨m, rfl, hm, -⟩
      rw [hn.unique hm]
  · rw [hread]
    refine ⟨nofun, ?_⟩
    rintro ⟨m, -, hm, hin⟩
    rw [hn.unique hm] at hrange
    exact absurd hin hrange
  · rw [hread]
    refine ⟨nofun, ?_⟩
    rintro ⟨m, -, hm, -⟩
    exact absurd hm (hnone m)

end PrefType

namespace Number

theorem digitsValue_concat (ds : List CodePoint) {c : CodePoint} {v : Nat} (h : digitValue? c = some v) :
    digitsValue (ds ++ [c]) = 10 * digitsValue ds + v := by
  rw [digitsValue, List.foldl_concat, h]
  rfl

theorem digitsValue_writeNat (n : Nat) : digitsValue (writeNat n) = n := by
  have hdigit : ∀ k : Fin 10, digitValue? (Nat.digitChar k) = some k.val := by decide
  unfold writeNat
  induction n using Nat.strongRecOn with
  | ind n ih =>
    rw [Nat.toDigits_eq_if (by decide)]
    split
    · rename_i hlt
      have hlast := digitsValue_concat [] (hdigit ⟨n, hlt⟩)
      simpa [digitsValue] using hlast
    · have hlast := hdigit ⟨n % 10, Nat.mod_lt n (by decide)⟩
      rw [List.map_append, List.map_singleton, digitsValue_concat _ hlast, ih (n / 10) (by omega),
        Nat.div_add_mod]

theorem isDigit_of_mem_writeNat {c : CodePoint} {n : Nat} (h : c ∈ writeNat n) : isDigit c = true := by
  obtain ⟨d, hd, rfl⟩ := List.mem_map.mp h
  have hascii : d.isDigit = true := Nat.isDigit_of_mem_toDigits (by decide) (by decide) hd
  rw [Char.isDigit, Bool.and_eq_true, decide_eq_true_eq, decide_eq_true_eq] at hascii
  have hlow : 0x30 ≤ (char d).toNat := hascii.1
  have hhigh : (char d).toNat ≤ 0x39 := hascii.2
  rw [isDigit, digitValue?, digitZeros, List.find?_cons_of_pos]
  · rfl
  · simp only [Bool.and_eq_true, decide_eq_true_eq]
    omega

/-- Zeros in front of a number do not count. -/
theorem spellsNat_written (zeros n : Nat) :
    SpellsNat (List.replicate zeros (char '0') ++ writeNat n) n := by
  have hzero : isDigit '0' = true := by decide
  refine spellsNat_iff.mpr ⟨?_, ?_, ?_⟩
  · exact List.append_ne_nil_of_right_ne_nil _ (mt List.map_eq_nil_iff.mp Nat.toDigits_ne_nil)
  · rw [List.all_append, Bool.and_eq_true, List.all_eq_true, List.all_eq_true]
    refine ⟨fun c hc => ?_, fun c hc => isDigit_of_mem_writeNat hc⟩
    rw [List.eq_of_mem_replicate hc]
    exact hzero
  · induction zeros with
    | zero => exact digitsValue_writeNat n
    | succ zeros ih => exact ih

end Number

namespace Text

theorem trim_surrounded {front core back : List CodePoint} (hfront : ∀ c ∈ front, isBlank c = true)
    (hcore : ∀ c ∈ core, isBlank c = false) (hne : core ≠ [])
    (hback : ∀ c ∈ back, isBlank c = true) : trim (front ++ (core ++ back)) = core := by
  have hkeep (l rest : List CodePoint) (hl : l ≠ []) (h : ∀ c ∈ l, isBlank c = false) :
      (l ++ rest).dropWhile isBlank = l ++ rest := by
    obtain ⟨c, cs, rfl⟩ := List.exists_cons_of_ne_nil hl
    rw [List.cons_append, List.dropWhile_cons_of_neg (by simp [h c List.mem_cons_self])]
  have hreverse := hkeep core.reverse [] (by simpa using hne)
    fun c hc => hcore c (List.mem_reverse.mp hc)
  rw [List.append_nil] at hreverse
  rw [trim, trimWhile, dropEndWhile, List.dropWhile_append_of_pos hfront, hkeep core back hne hcore,
    List.reverse_append, List.dropWhile_append_of_pos fun c hc => hback c (List.mem_reverse.mp hc),
    hreverse, List.reverse_reverse]

end Text

/-- A way to write an integer as a default: its digits behind zeros and a sign, with blanks around
them, and for a long perhaps a mark. -/
structure IntegerText (type : PrefType) (n : Int) where
  front : List CodePoint
  sign : List CodePoint
  zeros : Nat
  mark : List CodePoint
  back : List CodePoint
  front_blank : ∀ c ∈ front, isBlank c = true
  back_blank : ∀ c ∈ back, isBlank c = true
  sign_fits : n < 0 ∧ sign = [char '-'] ∨ 0 ≤ n ∧ sign ∈ [[], [char '+']]
  mark_fits : mark = [] ∨ type = .long ∧ mark ∈ [[char 'l'], [char 'L']]

namespace IntegerText

open Number

variable {type : PrefType} {n : Int}

/-- What spells the integer itself. -/
def numeral (w : IntegerText type n) : List CodePoint :=
  w.sign ++ (List.replicate w.zeros (char '0') ++ writeNat n.natAbs)

def text (w : IntegerText type n) : Text :=
  Text.ofList (w.front ++ (w.numeral ++ w.mark ++ w.back))

/-- An integer as it is displayed. -/
def plain (type : PrefType) (n : Int) : IntegerText type n where
  front := []
  sign := if n < 0 then [char '-'] else []
  zeros := 0
  mark := []
  back := []
  front_blank := List.forall_mem_nil _
  back_blank := List.forall_mem_nil _
  sign_fits := by split <;> simp_all
  mark_fits := Or.inl rfl

theorem text_plain (type : PrefType) (n : Int) : (plain type n).text = displayInt n := by
  rw [displayInt, text, numeral]
  cases n with
  | ofNat m => simp [plain, writeInt, Int.not_lt.mpr (Int.natCast_nonneg m)]
  | negSucc m => simp [plain, writeInt]

theorem spellsInt_numeral (w : IntegerText type n) : SpellsInt w.numeral n := by
  have hdigits := spellsNat_written w.zeros n.natAbs
  unfold numeral
  rcases w.sign_fits with ⟨hneg, hsign⟩ | ⟨hnonneg, hsign⟩
  · have hn : -(n.natAbs : Int) = n := by omega
    have hminus := SpellsInt.minus hdigits
    rw [hn] at hminus
    rw [hsign]
    exact hminus
  · have hn : (n.natAbs : Int) = n := by omega
    rw [List.mem_pair] at hsign
    rcases hsign with hsign | hsign
    · have hbare := SpellsInt.bare hdigits
      rw [hn] at hbare
      rw [hsign]
      exact hbare
    · have hplus := SpellsInt.plus hdigits
      rw [hn] at hplus
      rw [hsign]
      exact hplus

theorem trim_text (w : IntegerText type n) : trim w.text.toList = w.numeral ++ w.mark := by
  have hsign : IsNumeral w.sign := by
    have hall : ∀ s ∈ [[char '-'], [], [char '+']], IsNumeral s := by
      simp only [isNumeral_iff]
      decide
    refine hall w.sign ?_
    rcases w.sign_fits with ⟨-, hsign⟩ | ⟨-, hsign⟩
    · exact List.mem_cons.mpr (Or.inl hsign)
    · exact List.mem_cons_of_mem _ hsign
  have hmark : IsNumeral w.mark := by
    have hall : ∀ s ∈ [[], [char 'l'], [char 'L']], IsNumeral s := by
      simp only [isNumeral_iff]
      decide
    refine hall w.mark ?_
    rcases w.mark_fits with hmark | ⟨-, hmark⟩
    · exact List.mem_cons.mpr (Or.inl hmark)
    · exact List.mem_cons_of_mem _ hmark
  have hcore : IsNumeral (w.numeral ++ w.mark) :=
    (hsign.append ((isNumeral_zeros _).append (isNumeral_writeNat _))).append hmark
  have hne : w.numeral ++ w.mark ≠ [] := by
    have hdigits : writeNat n.natAbs ≠ [] := mt List.map_eq_nil_iff.mp Nat.toDigits_ne_nil
    simp [numeral, hdigits]
  rw [text, Text.toList_ofList]
  exact trim_surrounded w.front_blank (fun c hc => isBlank_of_isNumeralChar (hcore c hc)) hne
    w.back_blank

theorem spells (w : IntegerText type n) (htype : type = .int ∨ type = .long) :
    type.Spells w.text n := by
  have htrim := w.trim_text
  have hnumeral := w.spellsInt_numeral
  rcases htype with rfl | rfl
  · have hmark : w.mark = [] := w.mark_fits.resolve_right fun h => by cases h.1
    rw [PrefType.Spells, htrim, hmark, List.append_nil]
    exact hnumeral
  · rw [PrefType.Spells, htrim]
    rcases w.mark_fits with hmark | ⟨-, hmark⟩
    · rw [hmark, List.append_nil]
      exact .bare hnumeral
    · rw [List.mem_pair] at hmark
      rcases hmark with hmark | hmark
      · rw [hmark]
        exact .marked (by decide) hnumeral
      · rw [hmark]
        exact .marked (by decide) hnumeral

end IntegerText

theorem PrefType.InRange.isInteger {type : PrefType} {n : Int} (h : type.InRange n) :
    type = .int ∨ type = .long := by
  cases type with
  | int => exact Or.inl rfl
  | long => exact Or.inr rfl
  | _ => exact h.elim

theorem PrefType.InRange.int64 {type : PrefType} {n : Int} (h : type.InRange n) :
    leastInt64 ≤ n ∧ n ≤ greatestInt64 := by
  unfold leastInt64 greatestInt64
  cases type with
  | int =>
    obtain ⟨hleast, hgreatest⟩ := h
    omega
  | long =>
    obtain ⟨hleast, hgreatest⟩ := h
    omega
  | _ => exact h.elim

/-- All spellings of an integer in range are read as it. -/
theorem IntegerText.readLiteralUpTo_eq {type : PrefType} {n : Int} (w : IntegerText type n)
    (hrange : type.InRange n) {limit : Option Nat} (h : Number.Converts limit w.text.toList) :
    type.readLiteralUpTo limit w.text = .ok (.int n) :=
  (PrefType.readLiteralUpTo_eq_ok hrange.isInteger h).mpr
    ⟨n, rfl, w.spells hrange.isInteger, hrange⟩

theorem PrefType.InRange.isWritable {type : PrefType} {n : Int} (h : type.InRange n) :
    (Json.int n).isWritable = true :=
  Python.isWritable_of_int64 h.int64.1 h.int64.2

theorem PrefType.readLiteral_displayInt {type : PrefType} {n : Int} (h : type.InRange n) :
    type.readLiteral (displayInt n) = .ok (.int n) := by
  have hconverts : Number.Converts (some Number.maxNumeralDigits) (displayInt n).toList := by
    intro k hk
    cases hk
    have hwritable := h.isWritable
    rw [Json.isWritable, decide_eq_true_eq] at hwritable
    exact (Number.length_digits_displayInt n).trans hwritable
  rw [← IntegerText.text_plain type] at hconverts
  have hread := (IntegerText.plain type n).readLiteralUpTo_eq h hconverts
  rwa [IntegerText.text_plain, readLiteralUpTo_maxNumeralDigits] at hread

/-- A preference whose default is an integer of its type has a field with that default. -/
theorem Preference.field_of_int {p : Preference} {n : Int} (hrange : p.type.InRange n)
    (hdefault : p.default = some (.int n)) (aggregate : Text) :
    ∃ f, p.field aggregate = .ok f ∧ f.defaultValue = .ok (.int n) := by
  have hwritten : literalOf (.int n) = .ok (displayInt n) := if_pos hrange.isWritable
  have hliteral : Field.literal? p.default = .ok (some (displayInt n)) := by
    rw [hdefault, Field.literal?, hwritten]
    rfl
  have hread : p.type.defaultValue (some (displayInt n)) = .ok (.int n) :=
    PrefType.readLiteral_displayInt hrange
  exact ⟨_, Preference.field_eq_ok.mpr ⟨_, _, hliteral, hread, rfl⟩, hread⟩

theorem Preference.read_of_int {p : Preference} {n : Int} (hrange : p.type.InRange n)
    (hdefault : p.default = some (.int n)) (hkey : p.key ≠ "") (aggregate : Text)
    (problem : SchemaProblem) :
    ∃ f, p.read aggregate problem = .ok [f] ∧ f.defaultValue = .ok (.int n) := by
  obtain ⟨f, hf, hvalue⟩ := p.field_of_int hrange hdefault aggregate
  refine ⟨f, ?_, hvalue⟩
  rw [Preference.read, if_neg hkey, hf]
  rfl

/-- Where numerals of any length are converted, or none that is longer is met, a literal of an integer
type is read as the integer that it spells, if it spells one in the range of the type, and is refused
otherwise. So all spellings of an integer in range are read as it, and a default given as an integer,
in a document or beside an attribute, is that integer. -/
theorem integer_defaults_exact :
    (∀ (literal : Text) (type : PrefType),
      type.readLiteralUpTo (some Number.maxNumeralDigits) literal = type.readLiteral literal) ∧
    (∀ (limit : Option Nat) (literal : Text) (type : PrefType), type = .int ∨ type = .long →
      Number.Converts limit literal.toList →
        (∀ v, type.readLiteralUpTo limit literal = .ok v ↔
          ∃ n, v = .int n ∧ type.Spells literal n ∧ type.InRange n) ∧
        ((∀ n, type.Spells literal n → ¬type.InRange n) →
          ∃ problem ∈ [DefaultProblem.malformed type literal, .outOfRange type literal],
            type.readLiteralUpTo limit literal = Attempt.refuse problem)) ∧
    (∀ (type : PrefType) (n : Int), type.InRange n →
      (IntegerText.plain type n).text = displayInt n ∧
        ∀ (limit : Option Nat) (w : IntegerText type n), Number.Converts limit w.text.toList →
          type.readLiteralUpTo limit w.text = .ok (.int n)) ∧
    ∀ (p : Preference) (n : Int), p.type.InRange n → p.default = some (.int n) → p.key ≠ "" →
      (∀ aggregate position raw, p.IsEntry raw →
        ∃ f, Field.ofEntry aggregate position raw = .ok [f] ∧ f.defaultValue = .ok (.int n)) ∧
      ∀ meaning entry, p.IsAttribute meaning entry →
        ∃ type, entry.2.readTexts meaning = .ok type ∧ ∀ aggregate, ∃ f,
          ClassDeclaration.attributeField aggregate p.name type.normalize = .ok [f] ∧
            f.defaultValue = .ok (.int n) := by
  refine ⟨PrefType.readLiteralUpTo_maxNumeralDigits, ?_, ?_, ?_⟩
  · intro limit literal type htype hconverts
    refine ⟨fun v => PrefType.readLiteralUpTo_eq_ok htype hconverts, fun hnone => ?_⟩
    rcases PrefType.readLiteralUpTo_cases htype hconverts with ⟨n, hn, hrange, -⟩ | ⟨-, -, -, hread⟩ |
      ⟨-, hread⟩
    · exact absurd hrange (hnone n hn)
    · exact ⟨_, List.mem_cons_of_mem _ List.mem_cons_self, hread⟩
    · exact ⟨_, List.mem_cons_self, hread⟩
  · intro type n hrange
    exact ⟨IntegerText.text_plain type n, fun limit w hconverts =>
      w.readLiteralUpTo_eq hrange hconverts⟩
  · intro p n hrange hdefault hkey
    refine ⟨?_, ?_⟩
    · intro aggregate position raw hraw
      rw [Preference.ofEntry_eq_read hraw]
      exact p.read_of_int hrange hdefault hkey aggregate _
    · intro meaning entry hentry
      obtain ⟨type, htype, hread⟩ := hentry.read_eq
      refine ⟨type, htype, fun aggregate => ?_⟩
      rw [hread]
      exact p.read_of_int hrange hdefault hkey aggregate _

/-- A preference whose default is the least integer of its type. -/
def levelPreference : Preference where
  name := "level"
  key := "level"
  type := .int
  default := some (.int (-2147483648))
  isAsync := false
  name_ne := by decide
  default_isScalar := by rintro _ ⟨⟩; trivial

def padded : IntegerText .long 7 where
  front := [char '\t']
  sign := [char '+']
  zeros := 2
  mark := [char 'L']
  back := [char ' ', char '\n']
  front_blank := by simp only [List.forall_mem_singleton]; rfl
  back_blank := by
    intro c hc
    rcases List.mem_pair.mp hc with rfl | rfl <;> rfl
  sign_fits := Or.inr ⟨by decide, by decide⟩
  mark_fits := Or.inr ⟨rfl, by decide⟩

theorem level_default_exact :
    PrefType.readLiteralUpTo none padded.text .long = .ok (.int 7) ∧
      (∃ problem ∈ [DefaultProblem.malformed .int "1_000", .outOfRange .int "1_000"],
        PrefType.readLiteralUpTo none "1_000" .int = Attempt.refuse problem) ∧
      levelPreference.type.InRange (-2147483648) ∧ levelPreference.key ≠ "" ∧
        ∃ f, Field.ofEntry "Theme" 0 levelPreference.plainEntry = .ok [f] ∧
          f.defaultValue = .ok (.int (-2147483648)) := by
  have hseven : PrefType.InRange .long 7 := ⟨by norm_num, by norm_num⟩
  have hleast : levelPreference.type.InRange (-2147483648) := ⟨by norm_num, by norm_num⟩
  have hkey : levelPreference.key ≠ "" := by decide
  have hgroups : ∀ n, PrefType.Spells .int "1_000" n → ¬PrefType.InRange .int n := by
    intro n hn
    obtain ⟨m, hm, -⟩ := Number.spellsInt_iff.mp hn
    have hall := (Number.spellsNat_iff.mp hm).2.1
    have hmark : (Number.splitSign (trim ("1_000" : Text).toList)).2.all isDigit = false := by
      decide +kernel
    rw [hmark] at hall
    cases hall
  obtain ⟨-, hliterals, htexts, hdefaults⟩ := integer_defaults_exact
  obtain ⟨-, hrefused⟩ := hliterals none "1_000" .int (Or.inl rfl) nofun
  obtain ⟨-, hspelled⟩ := htexts .long 7 hseven
  obtain ⟨hentry, -⟩ := hdefaults levelPreference (-2147483648) hleast rfl hkey
  exact ⟨hspelled none padded nofun, hrefused hgroups, hleast, hkey,
    hentry "Theme" 0 levelPreference.plainEntry (Preference.plainEntry_isEntry _)⟩

end PrefAccessor
