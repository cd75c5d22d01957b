import PrefAccessor.Proofs.IntegerLiteral
import PrefAccessor.Proofs.KotlinLiteral
import PrefAccessor.Proofs.PythonString

/-!
# Literals of defaults

What the default of a field is written as, read back in both languages. Python evaluates the literal
to the default itself, and Kotlin reads it as a constant of the type of the field. An integer of Kotlin
stands in digits, and a minus is not part of them: so what the digits denote has to be in bounds by
itself. Main statement: `default_literals_denote`.
-/

namespace PrefAccessor

set_option autoImplicit false

namespace Python

/-- The value of a literal with nothing behind it. A quote at its front begins a string. -/
def evalValue? (cs : List CodePoint) : Option PrefValue :=
  if cs.head? = some (char '"') then
    match evalString? cs with
    | some (s, []) => some (.string s)
    | _ => none
  else readValue? cs

theorem head?_stringLiteral (s : Text) : (stringLiteral s).toList.head? = some (char '"') := by
  rw [toList_stringLiteral]
  rfl

theorem evalValue?_literal {v : PrefValue} (h : HasLiteral v) :
    evalValue? (literal v).toList = some v := by
  by_cases hstring : ∃ s, v = .string s
  · obtain ⟨s, rfl⟩ := hstring
    obtain ⟨s, rfl⟩ := Text.isEncodable_iff.mp h
    have hend : ([] : List CodePoint).head? ≠ some (char '"') := by simp
    have heval := evalString?_stringLiteral s hend
    rw [List.append_nil] at heval
    rw [evalValue?, literal, if_pos (head?_stringLiteral s), heval]
  · have hquote : (literal v).toList.head? ≠ some (char '"') := by
      intro hhead
      have hmem := List.mem_of_head? hhead
      have hchar := isNumeral_literal (fun s hs => hstring ⟨s, hs⟩) _ hmem
      revert hchar
      decide
    rw [evalValue?, if_neg hquote, readValue?_literal h]

theorem evalValue?_literal_broken {s : Text} (h : s.isEncodable = false) :
    evalValue? (literal (.string s)).toList = none := by
  rw [evalValue?, literal, if_pos (head?_stringLiteral s), evalString?_stringLiteral_broken h]

end Python

namespace Kotlin

/-- An integer as it is written: ASCII digits, perhaps with a minus in front of them and with the mark
of a `Long` behind. -/
structure Numeral where
  isNegative : Bool
  digits : List CodePoint
  isLong : Bool
  deriving DecidableEq, Repr

namespace Numeral

def text (u : Numeral) : List CodePoint :=
  (if u.isNegative then [char '-'] else []) ++ (u.digits ++ if u.isLong then [char 'L'] else [])

/-- What the digits denote by themselves. -/
def magnitude (u : Numeral) : Nat :=
  decimalValue u.digits

def value (u : Numeral) : Int :=
  Number.applySign u.isNegative u.magnitude

/-- The digits are within the bounds of the type. Only the least `Int` is taken as one constant with
its minus. -/
def Fits (u : Numeral) : PrefType → Prop
  | .int => u.isLong = false ∧
      (u.magnitude ≤ 2 ^ 31 - 1 ∨ u.isNegative = true ∧ u.magnitude = 2 ^ 31)
  | .long => u.isLong = true ∧ u.magnitude ≤ 2 ^ 63 - 1
  | _ => False

instance (u : Numeral) : (type : PrefType) → Decidable (u.Fits type)
  | .int => inferInstanceAs (Decidable (_ ∧ (_ ∨ _ ∧ _)))
  | .long => inferInstanceAs (Decidable (_ ∧ _))
  | .string | .boolean | .float | .stringSet => inferInstanceAs (Decidable False)

end Numeral

/-- Digits that begin with a zero only if that is all. -/
def IsDecimal (ds : List CodePoint) : Prop :=
  ds ≠ [] ∧ ds.all CodePoint.isDigit = true ∧ (ds.length = 1 ∨ ds.head? ≠ some (char '0'))

instance (ds : List CodePoint) : Decidable (IsDecimal ds) :=
  inferInstanceAs (Decidable (_ ∧ _ ∧ _))

/-- The numeral that a text is behind its sign. -/
def unsigned? (isNegative : Bool) (cs : List CodePoint) : Option Numeral :=
  let digits := cs.takeWhile CodePoint.isDigit
  if IsDecimal digits then
    match cs.dropWhile CodePoint.isDigit with
    | [] => some ⟨isNegative, digits, false⟩
    | [char 'L'] => some ⟨isNegative, digits, true⟩
    | _ => none
  else none

/-- The numeral that a text is. -/
def numeral? : List CodePoint → Option Numeral
  | char '-' :: cs => unsigned? true cs
  | cs => unsigned? false cs

inductive Constant where
  | null
  | boolean (b : Bool)
  | int (n : Int)
  | long (n : Int)
  | string (s : Text)
  deriving DecidableEq, Repr

/-- A numeral without a mark is an `Int`, or a `Long` where it does not fit; digits beyond the bounds of
a `Long` are no constant at all. -/
def Numeral.constant? (u : Numeral) : Option Constant :=
  if u.Fits .int then some (.int u.value)
  else if u.magnitude ≤ 2 ^ 63 - 1 then some (.long u.value)
  else none

/-- The constants that are written by a name. -/
def names : List (Text × Constant) :=
  [("null", .null), ("true", .boolean true), ("false", .boolean false),
    ("Long.MIN_VALUE", .long (-2 ^ 63))]

/-- The constant that a text is. -/
def constant? (cs : List CodePoint) : Option Constant :=
  match names.find? fun e => e.1.toList == cs with
  | some e => some e.2
  | none =>
    match readString? cs with
    | some s => some (.string s)
    | none => (numeral? cs).bind Numeral.constant?

example : constant? ("2147483648" : Text).toList = some (.long 2147483648) ∧
    constant? ("-9223372036854775808L" : Text).toList = none := by decide +kernel

/-- A constant of the type that stands for a value; the absent value is `null`. -/
inductive Denotes : PrefType → Constant → PrefValue → Prop where
  | string (s : Text) : Denotes .string (.string s) (.string s)
  | int (n : Int) : Denotes .int (.int n) (.int n)
  | boolean (b : Bool) : Denotes .boolean (.boolean b) (.bool b)
  | long (n : Int) : Denotes .long (.long n) (.int n)
  | stringSet : Denotes .stringSet .null .absent

theorem unsigned?_append {ds : List CodePoint} (h : IsDecimal ds) (isNegative isLong : Bool) :
    unsigned? isNegative (ds ++ if isLong then [char 'L'] else []) = some ⟨isNegative, ds, isLong⟩ := by
  have hdigits : ∀ c ∈ ds, c.isDigit = true := List.all_eq_true.mp h.2.1
  have hmark : (if isLong then [char 'L'] else []).takeWhile CodePoint.isDigit = [] ∧
      (if isLong then [char 'L'] else []).dropWhile CodePoint.isDigit =
        if isLong then [char 'L'] else [] := by
    cases isLong <;> exact ⟨rfl, rfl⟩
  simp only [unsigned?, List.takeWhile_append_of_pos hdigits, List.dropWhile_append_of_pos hdigits,
    hmark.1, hmark.2, List.append_nil, if_pos h]
  cases isLong <;> rfl

theorem numeral?_text {u : Numeral} (h : IsDecimal u.digits) : numeral? u.text = some u := by
  obtain ⟨isNegative, digits, isLong⟩ := u
  cases isNegative with
  | true => exact unsigned?_append h true isLong
  | false =>
    have hminus : (digits ++ if isLong then [char 'L'] else []).head? ≠ some (char '-') := by
      rw [List.head?_append_of_ne_nil _ h.1]
      intro hhead
      cases List.all_eq_true.mp h.2.1 '-' (List.mem_of_head? hhead)
    rw [Numeral.text, if_neg Bool.false_ne_true, List.nil_append, numeral?]
    · exact unsigned?_append h false isLong
    · intro cs hcs
      rw [hcs] at hminus
      exact hminus rfl

namespace Numeral

/-- The numeral of an integer, with a mark or without. -/
def ofInt (n : Int) (isLong : Bool) : Numeral :=
  ⟨decide (n < 0), Number.writeNat n.natAbs, isLong⟩

variable (n : Int) (isLong : Bool)

theorem text_ofInt : (ofInt n isLong).text = Number.writeInt n ++ if isLong then [char 'L'] else [] := by
  cases n with
  | ofNat m =>
    have hnonneg : ¬ (m : Int) < 0 := by omega
    simp [ofInt, text, Number.writeInt, hnonneg]
  | negSucc m => simp [ofInt, text, Number.writeInt]

theorem magnitude_ofInt : (ofInt n isLong).magnitude = n.natAbs :=
  Python.decimalValue_writeNat _

theorem value_ofInt : (ofInt n isLong).value = n := by
  rw [value, magnitude_ofInt, ofInt, Number.applySign]
  by_cases hn : n < 0
  · simp only [hn, decide_true, if_true]
    omega
  · simp only [hn, decide_false, Bool.false_eq_true, if_false]
    omega

theorem numeral?_ofInt : numeral? (ofInt n isLong).text = some (ofInt n isLong) :=
  numeral?_text (Python.decimal_writeNat _)

end Numeral

theorem find?_names {cs : List CodePoint} (h : ∀ e ∈ names, e.1.toList ≠ cs) :
    (names.find? fun e => e.1.toList == cs) = none :=
  List.find?_eq_none.mpr fun e he heq => h e he (eq_of_beq heq)

theorem constant?_stringLiteral (s : Text) :
    constant? (stringLiteral s).toList = some (.string s) := by
  have hquotes : ∀ e ∈ names, e.1.toList.head? ≠ some (char '"') := by decide
  have hnames : ∀ e ∈ names, e.1.toList ≠ (stringLiteral s).toList := by
    intro e he heq
    refine hquotes e he ?_
    rw [heq, toList_stringLiteral]
    rfl
  rw [constant?, find?_names hnames, readString?_stringLiteral]

/-- A numeral is neither a name nor a string. -/
theorem constant?_of_numeral {cs : List CodePoint} {u : Numeral} (h : numeral? cs = some u) :
    constant? cs = u.constant? := by
  have hnone : ∀ e ∈ names, numeral? e.1.toList = none := by decide
  have hnames : ∀ e ∈ names, e.1.toList ≠ cs := by
    rintro e he rfl
    rw [hnone e he] at h
    cases h
  have hquote : ∀ ds, cs ≠ char '"' :: ds := by
    rintro ds rfl
    have hdigit : (char '"').isDigit = false := rfl
    simp [numeral?, unsigned?, IsDecimal, hdigit] at h
  have hscan : scanString? cs = none := by
    rw [scanString?.eq_def]
    split
    · exact absurd rfl (hquote _)
    · exact absurd rfl (hquote _)
    · rfl
  rw [constant?, find?_names hnames, readString?, hscan, h]
  rfl

/-- An integer constant is within the bounds of its type. -/
def Constant.InBounds : Constant → Prop
  | .int n => PrefType.int.InRange n
  | .long n => PrefType.long.InRange n
  | _ => True

/-- What an integer of a type is written as; only the least long is written by a name. -/
theorem integer_literal {type : PrefType} {n : Int} (h : type.InRange n) :
    (∃ u, numeral? (literal type (.int n)).toList = some u ∧ u.Fits type ∧ u.value = n) ∨
      (type = .long ∧ n = -2 ^ 63 ∧ literal type (.int n) = "Long.MIN_VALUE") := by
  have hread (isLong : Bool) := Numeral.numeral?_ofInt n isLong
  rcases h.isInteger with rfl | rfl
  · have htext : (literal .int (.int n)).toList = (Numeral.ofInt n false).text := by
      simp [literal, displayInt, Numeral.text_ofInt]
    refine Or.inl ⟨_, htext ▸ hread false, ⟨rfl, ?_⟩, Numeral.value_ofInt n false⟩
    obtain ⟨hleast, hgreatest⟩ := h
    rw [Numeral.magnitude_ofInt, Numeral.ofInt, decide_eq_true_eq]
    omega
  · by_cases hmin : n = leastInt64
    · refine Or.inr ⟨rfl, hmin, ?_⟩
      rw [hmin]
      rfl
    · have htext : (literal .long (.int n)).toList = (Numeral.ofInt n true).text := by
        simp [literal, displayInt, Numeral.text_ofInt, hmin]
      refine Or.inl ⟨_, htext ▸ hread true, ⟨rfl, ?_⟩, Numeral.value_ofInt n true⟩
      obtain ⟨hleast, hgreatest⟩ := h
      unfold leastInt64 at hmin
      rw [Numeral.magnitude_ofInt]
      omega

theorem Numeral.constant?_of_fits_int {u : Numeral} (h : u.Fits .int) :
    u.constant? = some (.int u.value) :=
  if_pos h

theorem Numeral.constant?_of_fits_long {u : Numeral} (h : u.Fits .long) :
    u.constant? = some (.long u.value) := by
  have hnot : ¬ u.Fits .int := fun hint => Bool.false_ne_true (hint.1.symm.trans h.1)
  rw [constant?, if_neg hnot, if_pos h.2]

theorem Numeral.isInteger_of_constant? {u : Numeral} {c : Constant} (h : u.constant? = some c) :
    ∃ n, c = .int n ∨ c = .long n := by
  unfold constant? at h
  split at h
  · cases h
    exact ⟨u.value, Or.inl rfl⟩
  · split at h
    · cases h
      exact ⟨u.value, Or.inr rfl⟩
    · cases h

theorem constant?_literal {type : PrefType} {c : Constant} {v : PrefValue} (h : Denotes type c v)
    (hbounds : c.InBounds) : constant? (literal type v).toList = some c := by
  cases h with
  | string s => exact constant?_stringLiteral s
  | int n =>
    have hrange : PrefType.int.InRange n := hbounds
    rcases integer_literal hrange with ⟨u, hu, hfits, hvalue⟩ | ⟨htype, -⟩
    · rw [constant?_of_numeral hu, Numeral.constant?_of_fits_int hfits, hvalue]
    · cases htype
  | boolean b => cases b <;> decide +kernel
  | long n =>
    have hrange : PrefType.long.InRange n := hbounds
    rcases integer_literal hrange with ⟨u, hu, hfits, hvalue⟩ | ⟨-, rfl, htext⟩
    · rw [constant?_of_numeral hu, Numeral.constant?_of_fits_long hfits, hvalue]
    · rw [htext]
      decide +kernel
  | stringSet => decide +kernel

theorem Denotes.ne_float {type : PrefType} {c : Constant} {v : PrefValue} (h : Denotes type c v)
    (x : Number.Binary64) : v ≠ .float x := by
  cases h <;> simp

/-- The integers that a constant of their type denotes. -/
theorem Denotes.inRange {type : PrefType} {c : Constant} {n : Int} (h : Denotes type c (.int n))
    (hbounds : c.InBounds) : type.InRange n := by
  cases h <;> exact hbounds

/-- Where a default is written with digits, it is the integer that they spell. -/
theorem numeral_of_denotes {type : PrefType} {c : Constant} {v : PrefValue} (h : Denotes type c v)
    (hbounds : c.InBounds) {u : Numeral} (hu : numeral? (literal type v).toList = some u) :
    u.Fits type ∧ v = .int u.value := by
  have hread := constant?_literal h hbounds
  rw [constant?_of_numeral hu] at hread
  have hinteger : ∃ n, v = .int n := by
    obtain ⟨n, rfl | rfl⟩ := Numeral.isInteger_of_constant? hread <;> cases h <;> exact ⟨n, rfl⟩
  obtain ⟨n, rfl⟩ := hinteger
  -- the constant alone does not tell whether its digits have a mark
  rcases integer_literal (h.inRange hbounds) with ⟨w, hw, hfits, hvalue⟩ | ⟨-, -, htext⟩
  · obtain rfl : w = u := Option.some.inj (hw.symm.trans hu)
    exact ⟨hfits, by rw [hvalue]⟩
  · have hnone : numeral? ("Long.MIN_VALUE" : Text).toList = none := by decide
    rw [htext, hnone] at hu
    cases hu

end Kotlin

theorem PrefType.int_of_readInteger {type : PrefType} {least greatest : Int} {literal : Text}
    {body : List CodePoint} {v : PrefValue} (h : readInteger type least greatest literal body = .ok v) :
    ∃ n, v = .int n ∧ least ≤ n ∧ n ≤ greatest := by
  unfold readInteger at h
  split at h
  · cases h
  · cases h
  · rename_i n _
    split at h
    · rename_i hrange
      exact ⟨n, (Except.ok.inj h).symm, hrange⟩
    · cases h

/-- A default is a value that a constant of its type denotes. -/
theorem PrefType.exists_constant {type : PrefType} (hfloat : type ≠ .float) {literal : Option Text}
    {v : PrefValue} (h : type.defaultValue literal = .ok v) :
    ∃ c, Kotlin.Denotes type c v ∧ c.InBounds := by
  cases literal with
  | none =>
    cases h
    cases type with
    | string => exact ⟨_, .string "", trivial⟩
    | int => exact ⟨_, .int 0, by decide, by decide⟩
    | boolean => exact ⟨_, .boolean false, trivial⟩
    | float => exact absurd rfl hfloat
    | long => exact ⟨_, .long 0, by decide, by decide⟩
    | stringSet => exact ⟨_, .stringSet, trivial⟩
  | some text =>
    cases type with
    | string =>
      cases h
      exact ⟨_, .string text, trivial⟩
    | int =>
      obtain ⟨n, rfl, hrange⟩ := int_of_readInteger h
      exact ⟨_, .int n, hrange⟩
    | boolean =>
      simp only [defaultValue, readLiteral, readBoolean] at h
      split at h
      · cases h
        exact ⟨_, .boolean true, trivial⟩
      · split at h
        · cases h
          exact ⟨_, .boolean false, trivial⟩
        · cases h
    | float => exact absurd rfl hfloat
    | long =>
      obtain ⟨n, rfl, hrange⟩ := int_of_readInteger h
      exact ⟨_, .long n, hrange⟩
    | stringSet =>
      cases h
      exact ⟨_, .stringSet, trivial⟩

/-- No half of a surrogate pair is in the value. -/
def PrefValue.isEncodable : PrefValue → Bool
  | .string s => s.isEncodable
  | _ => true

/-- A default that is no float is written as a literal that denotes it: Python evaluates its own to the
default, and in Kotlin it is a constant of the type of the field, which is `null` for a string set. Only
a string without an encoded form has no literal that Python evaluates. No integer of Kotlin has digits
beyond the bounds of its type, but that the least `Int` is taken together with its minus; the least
`Long` has no digits and is written by its name. -/
theorem default_literals_denote {f : Field} {v : PrefValue} (hfloat : f.type ≠ .float)
    (hv : f.defaultValue = .ok v) :
    (v.isEncodable = true → Python.evalValue? (Python.literal v).toList = some v ∧
      ∃ c, Kotlin.constant? (Kotlin.literal f.type v).toList = some c ∧
        Kotlin.Denotes f.type c v) ∧
      (v.isEncodable = false → Python.evalValue? (Python.literal v).toList = none) ∧
      (∀ u, Kotlin.numeral? (Kotlin.literal f.type v).toList = some u →
        u.Fits f.type ∧ v = .int u.value) ∧
      (f.type = .int ∨ f.type = .long →
        Kotlin.numeral? (Kotlin.literal f.type v).toList = none →
          f.type = .long ∧ v = .int (-2 ^ 63) ∧ Kotlin.literal f.type v = "Long.MIN_VALUE") := by
  have hdenoted : ∃ c, Kotlin.Denotes f.type c v ∧ c.InBounds := PrefType.exists_constant hfloat hv
  obtain ⟨c, hc, hbounds⟩ := hdenoted
  have hread := Kotlin.constant?_literal hc hbounds
  refine ⟨fun hencodable => ⟨Python.evalValue?_literal ?_, c, hread, hc⟩, fun hbroken => ?_,
    fun u hu => Kotlin.numeral_of_denotes hc hbounds hu, fun htype hnone => ?_⟩
  · refine Python.hasLiteral_of_defaultValue hv ?_ fun x hx => absurd hx (hc.ne_float x)
    rintro s rfl
    exact hencodable
  · cases v with
    | string s => exact Python.evalValue?_literal_broken hbroken
    | _ => cases hbroken
  · have hinteger : ∃ n, v = .int n := by
      rcases htype with htype | htype <;> rw [htype] at hc <;> cases hc <;> exact ⟨_, rfl⟩
    obtain ⟨n, rfl⟩ := hinteger
    rcases Kotlin.integer_literal (hc.inRange hbounds) with ⟨u, hu, -⟩ | ⟨hlong, hleast, htext⟩
    · rw [hnone] at hu
      cases hu
    · exact ⟨hlong, congrArg _ hleast, htext⟩

/-- A field with a default and nothing that would alter how it is written. -/
def levelField (type : PrefType) (literal : Text) : Field :=
  ⟨"level", "level", type, some literal, false⟩

/-- The least integers of both types, and a text with the marks of both languages. -/
theorem level_literals_denote :
    (∃ u : Kotlin.Numeral,
      Kotlin.numeral? ("-2147483648" : Text).toList = some u ∧ u.magnitude = 2 ^ 31 ∧
      u.Fits .int) ∧
    (Kotlin.literal .long (.int (-2 ^ 63)) = "Long.MIN_VALUE" ∧
      Kotlin.constant? ("Long.MIN_VALUE" : Text).toList = some (.long (-2 ^ 63))) ∧
    (Python.evalValue? (Python.literal (.string "$\"\\")).toList = some (.string "$\"\\") ∧
      Kotlin.constant? (Kotlin.literal .string (.string "$\"\\")).toList =
        some (.string "$\"\\")) := by
  have hint : (levelField .int " -2147483648 ").defaultValue = .ok (.int (-2147483648)) := by
    decide +kernel
  have hlong : (levelField .long "-9223372036854775808L").defaultValue = .ok (.int (-2 ^ 63)) := by
    decide +kernel
  have hstring : (levelField .string "$\"\\").defaultValue = .ok (.string "$\"\\") := rfl
  obtain ⟨-, -, hfits, -⟩ := default_literals_denote (by decide) hint
  obtain ⟨hread, -, -, hleast⟩ := default_literals_denote (by decide) hlong
  obtain ⟨hreads, -⟩ := default_literals_denote (by decide) hstring
  obtain ⟨-, c, hc, hdenotes⟩ := hread rfl
  obtain ⟨hpython, d, hd, hdenoted⟩ := hreads rfl
  have hnumeral : Kotlin.numeral? ("-2147483648" : Text).toList =
      some ⟨true, ("2147483648" : Text).toList, false⟩ := by decide +kernel
  refine ⟨⟨_, hnumeral, by decide +kernel, (hfits _ hnumeral).1⟩, ?_, hpython, ?_⟩
  · obtain ⟨-, -, hname⟩ := hleast (Or.inr rfl) (by decide +kernel)
    cases hdenotes
    exact ⟨hname, hc⟩
  · cases hdenoted
    exact hd

/-- Half of a surrogate pair is a default of a string field, and Python takes its literal for none. -/
theorem surrogate_default_unread :
    ∃ t : Text, (levelField .string t).defaultValue = .ok (.string t) ∧
      (Python.literal (.string t)).toList = [char '"', .surrogate 0, char '"'] ∧
      Python.evalValue? (Python.literal (.string t)).toList = none :=
  ⟨.broken [.surrogate 0] rfl, rfl, by decide +kernel, by decide +kernel⟩

end PrefAccessor
