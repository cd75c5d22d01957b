import Mathlib.Data.List.Basic
import PrefAccessor.Json.Reader
import PrefAccessor.Proofs.DefaultFault
import PrefAccessor.Target.Python

/-!
# Reading literals

The literals of keys and defaults, read by the rules of Python. What is read is what the literal was
written for, `readValue?_literal`, and every default of a schema has such a literal. Only that the
text of a float reads back as the float is left as a hypothesis where a float is met.
-/

namespace PrefAccessor

set_option autoImplicit false

/-- The digits that numerals of source texts have. -/
def CodePoint.isDigit : CodePoint → Bool
  | .char c => c.isDigit
  | .surrogate _ => false

/-- The number that a row of digits denotes. -/
def decimalValue (ds : List CodePoint) : Nat :=
  Nat.ofDigitChars 10 ((chars? ds).getD []) 0

namespace Python

/-- The character that a letter behind a backslash stands for. -/
def escapedChar? : CodePoint → Option CodePoint
  | '"' => some '"'
  | '\\' => some '\\'
  | 'b' => some '\x08'
  | 'f' => some '\x0c'
  | 'n' => some '\n'
  | 'r' => some '\r'
  | 't' => some '\t'
  | _ => none

/-- What may be neither quote nor backslash of a literal: a line may not end in one, and a text with half
of a surrogate pair has no encoded form to be read. -/
def standsForItself : CodePoint → Bool
  | .char c => c != '\n' && c != '\r'
  | .surrogate _ => false

/-- The rest of a string literal behind its opening quote, up to the closing one. Escapes that no
generated text has are not known. -/
def readStringRest : List CodePoint → Option (List CodePoint × List CodePoint)
  | char '"' :: rest => some ([], rest)
  | char '\\' :: char 'u' :: a :: b :: c :: d :: rest =>
    match Json.hexUnit? [a, b, c, d], readStringRest rest with
    | some (n, _), some (cs, rest) => some (CodePoint.ofNat n :: cs, rest)
    | _, _ => none
  | char '\\' :: c :: rest =>
    match escapedChar? c, readStringRest rest with
    | some c, some (cs, rest) => some (c :: cs, rest)
    | _, _ => none
  | c :: rest =>
    if standsForItself c then (readStringRest rest).map fun r => (c :: r.1, r.2) else none
  | [] => none

/-- The string literal at the front, and what follows it. -/
def scanString? : List CodePoint → Option (Text × List CodePoint)
  | char '"' :: rest => (readStringRest rest).map fun r => (Text.ofList r.1, r.2)
  | _ => none

/-- A string literal and nothing behind it. -/
def readString? (cs : List CodePoint) : Option Text :=
  match scanString? cs with
  | some (s, []) => some s
  | _ => none

/-- Digits that do not begin with a zero, unless that is all, and are not too many. -/
def readNat? (ds : List CodePoint) : Option Nat :=
  if ds ≠ [] ∧ ds.all CodePoint.isDigit = true ∧ (ds.length = 1 ∨ ds.head? ≠ some (char '0')) ∧
      ds.length ≤ Number.maxNumeralDigits then
    some (decimalValue ds)
  else none

def readInt? : List CodePoint → Option Int
  | char '-' :: ds => (readNat? ds).map fun n => -Int.ofNat n
  | ds => (readNat? ds).map Int.ofNat

def readFloat? (cs : List CodePoint) : Option Number.Binary64 :=
  if cs.all fun c => decide (c.toNat < 0x80) then
    match Number.Decimal.scan? cs with
    | some (d, []) => some d.toBinary64
    | _ => none
  else none

/-- The literals that are words. -/
def words : List (List CodePoint) := [
  [char 'N', char 'o', char 'n', char 'e'], [char 'T', char 'r', char 'u', char 'e'],
  [char 'F', char 'a', char 'l', char 's', char 'e']]

def readValue? (cs : List CodePoint) : Option PrefValue :=
  if cs = [char 'N', char 'o', char 'n', char 'e'] then some .absent
  else if cs = [char 'T', char 'r', char 'u', char 'e'] then some (.bool true)
  else if cs = [char 'F', char 'a', char 'l', char 's', char 'e'] then some (.bool false)
  else
    match readString? cs, readInt? cs with
    | some s, _ => some (.string s)
    | none, some n => some (.int n)
    | none, none => (readFloat? cs).map .float

theorem hexUnit?_hexDigits (n : Fin 0x20) :
    ∃ a b c d, Text.hexDigits 4 n = [a, b, c, d] ∧ Json.hexUnit? [a, b, c, d] = some (n.1, []) := by
  have h : ∀ n : Fin 0x20, (Text.hexDigits 4 n).length = 4 ∧
      Json.hexUnit? (Text.hexDigits 4 n) = some (n.1, []) := by decide +kernel
  obtain ⟨hlen, hread⟩ := h n
  obtain ⟨a, b, c, d, heq⟩ := List.length_eq_four.mp hlen
  exact ⟨a, b, c, d, heq, heq ▸ hread⟩

theorem readStringRest_plain {c : CodePoint} (hquote : c ≠ '"') (hbackslash : c ≠ '\\')
    (rest : List CodePoint) :
    readStringRest (c :: rest) =
      if standsForItself c then (readStringRest rest).map fun r => (c :: r.1, r.2) else none := by
  rw [readStringRest]
  · exact hquote
  · rintro _ _ _ _ _ rfl
    exact absurd rfl hbackslash
  · rintro _ _ rfl
    exact absurd rfl hbackslash

theorem readStringRest_escape {e c : CodePoint} (he : escapedChar? e = some c) (rest : List CodePoint) :
    readStringRest (char '\\' :: e :: rest) = (readStringRest rest).map fun r => (c :: r.1, r.2) := by
  have hne : e ≠ 'u' := by
    rintro rfl
    cases he
  rw [readStringRest]
  · cases readStringRest rest <;> simp [he]
  · intro _ _ _ _ _ hu
    exact absurd hu hne

/-- A character is written behind a backslash, by its number or as it is. -/
theorem writeChar_cases (c : CodePoint) :
    (∃ e, escapedChar? e = some c ∧ Json.writeChar c = [char '\\', e]) ∨
      (c.toNat < 0x20 ∧ Json.writeChar c = char '\\' :: char 'u' :: Text.hexDigits 4 c.toNat) ∨
      ((c ≠ '"' ∧ c ≠ '\\' ∧ c ≠ '\n' ∧ c ≠ '\r') ∧ Json.writeChar c = [c]) := by
  by_cases hescaped :
      c ∈ [char '"', char '\\', char '\n', char '\r', char '\t', char '\x0c', char '\x08']
  · left
    simp only [List.mem_cons, List.not_mem_nil, or_false] at hescaped
    rcases hescaped with rfl | rfl | rfl | rfl | rfl | rfl | rfl <;> exact ⟨_, rfl, rfl⟩
  · right
    simp only [List.mem_cons, List.not_mem_nil, or_false, not_or] at hescaped
    obtain ⟨hquote, hbackslash, hfeed, hreturn, htab, hform, hback⟩ := hescaped
    unfold Json.writeChar
    rw [if_neg hquote, if_neg hbackslash, if_neg hfeed, if_neg hreturn, if_neg htab, if_neg hform,
      if_neg hback]
    by_cases hcontrol : c.toNat < 0x20
    · exact Or.inl ⟨hcontrol, if_pos hcontrol⟩
    · exact Or.inr ⟨⟨hquote, hbackslash, hfeed, hreturn⟩, if_neg hcontrol⟩

theorem readStringRest_writeChar (c : Char) (rest : List CodePoint) :
    readStringRest (Json.writeChar c ++ rest) =
      (readStringRest rest).map fun r => (char c :: r.1, r.2) := by
  rcases writeChar_cases c with ⟨e, he, hwrite⟩ | ⟨hcontrol, hwrite⟩ |
    ⟨⟨hquote, hbackslash, hfeed, hreturn⟩, hwrite⟩
  · rw [hwrite]
    exact readStringRest_escape he rest
  · obtain ⟨a, b, d, e, hhex, hread⟩ := hexUnit?_hexDigits ⟨(char c).toNat, hcontrol⟩
    simp only [hwrite, hhex, List.cons_append, List.nil_append, readStringRest, hread]
    cases readStringRest rest with
    | none => rfl
    | some r => simp only [CodePoint.ofNat_toNat, Option.map_some]
  · have hraw : standsForItself c = true := by
      rw [standsForItself, Bool.and_eq_true, bne_iff_ne, bne_iff_ne]
      exact ⟨fun hc => hfeed (congrArg char hc), fun hc => hreturn (congrArg char hc)⟩
    rw [hwrite, List.singleton_append, readStringRest_plain hquote hbackslash, if_pos hraw]

/-- What has been written as a string literal reads back, whatever follows. -/
theorem readStringRest_written (cs : List Char) (tail : List CodePoint) :
    readStringRest ((cs.map char).flatMap Json.writeChar ++ char '"' :: tail) =
      some (cs.map char, tail) := by
  induction cs with
  | nil => rw [List.map_nil, List.flatMap_nil, List.nil_append, readStringRest]
  | cons c cs ih =>
    rw [List.map_cons, List.flatMap_cons, List.append_assoc, readStringRest_writeChar, ih,
      Option.map_some]

/-- Half of a surrogate pair is written as it is. -/
theorem writeChar_surrogate (half : Fin 0x800) :
    Json.writeChar (.surrogate half) = [.surrogate half] := by
  have hcontrol : ¬ (CodePoint.surrogate half).toNat < 0x20 := by
    rw [CodePoint.toNat]
    omega
  simp [Json.writeChar, hcontrol]

theorem toList_stringLiteral (s : Text) :
    (stringLiteral s).toList = char '"' :: (s.toList.flatMap Json.writeChar ++ [char '"']) := by
  rw [stringLiteral, Json.stringLiteral, Text.toList_ofList, Json.writeString, List.cons_append]

theorem scanString?_stringLiteral (s : String) (tail : List CodePoint) :
    scanString? ((stringLiteral s).toList ++ tail) = some (.plain s, tail) := by
  rw [toList_stringLiteral, List.cons_append, List.append_assoc, List.singleton_append, scanString?,
    Text.toList_plain, readStringRest_written, Option.map_some, Text.ofList_map_char,
    String.ofList_toList]

theorem readString?_stringLiteral (s : String) :
    readString? (stringLiteral s).toList = some (.plain s) := by
  have hscan := scanString?_stringLiteral s []
  rw [List.append_nil] at hscan
  rw [readString?, hscan]

theorem head?_toDigits {n : Nat} (hn : 0 < n) : (Nat.toDigits 10 n).head? ≠ some '0' := by
  induction n using Nat.strongRecOn with
  | ind n ih =>
    rw [Nat.toDigits_eq_if (by decide)]
    split
    · rename_i hlt
      have hdigit : ∀ k : Fin 10, 0 < k.1 → [Nat.digitChar k].head? ≠ some '0' := by decide
      exact hdigit ⟨n, hlt⟩ hn
    · rename_i hge
      have hpos : 0 < n / 10 := by omega
      rw [List.head?_append_of_ne_nil _ Nat.toDigits_ne_nil]
      exact ih (n / 10) (by omega) hpos

theorem isDigit_of_mem_writeNat {n : Nat} {c : CodePoint} (h : c ∈ Number.writeNat n) :
    c.isDigit = true := by
  obtain ⟨d, hd, rfl⟩ := List.mem_map.mp h
  exact Nat.isDigit_of_mem_toDigits (b := 10) (by decide) (by decide) hd

theorem decimalValue_writeNat (n : Nat) : decimalValue (Number.writeNat n) = n := by
  rw [decimalValue, Number.writeNat, Text.chars?_map_char]
  exact Nat.ofDigitChars_ten_toDigits

/-- A number is written without zeros in front of it. -/
theorem decimal_writeNat (n : Nat) : Number.writeNat n ≠ [] ∧
    (Number.writeNat n).all CodePoint.isDigit = true ∧
    ((Number.writeNat n).length = 1 ∨ (Number.writeNat n).head? ≠ some (char '0')) := by
  refine ⟨mt List.map_eq_nil_iff.mp Nat.toDigits_ne_nil, ?_, ?_⟩
  · exact List.all_eq_true.mpr fun _ hc => isDigit_of_mem_writeNat hc
  · by_cases hlt : n < 10
    · left
      rw [Number.writeNat, Nat.toDigits_of_lt_base hlt, List.length_map, List.length_singleton]
    · right
      have hhead := head?_toDigits (n := n) (by omega)
      rw [Number.writeNat, List.head?_map]
      intro hzero
      obtain ⟨d, hd, hchar⟩ := Option.map_eq_some_iff.mp hzero
      exact hhead (hd.trans (congrArg some (CodePoint.char.inj hchar)))

theorem readNat?_writeNat {n : Nat} (hn : (Number.writeNat n).length ≤ Number.maxNumeralDigits) :
    readNat? (Number.writeNat n) = some n := by
  unfold readNat?
  rw [if_pos]
  · exact congrArg some (decimalValue_writeNat n)
  · obtain ⟨hne, hall, hzero⟩ := decimal_writeNat n
    exact ⟨hne, hall, hzero, hn⟩

theorem readInt?_writeInt {n : Int} (hn : (Json.int n).isWritable = true) :
    readInt? (Number.writeInt n) = some n := by
  rw [Json.isWritable, decide_eq_true_eq] at hn
  cases n with
  | ofNat n =>
    have hread : readNat? (Number.writeNat n) = some n := readNat?_writeNat hn
    rw [Number.writeInt, readInt?, hread]
    · rfl
    · intro ds hds
      have hmem : char '-' ∈ Number.writeNat n := by
        rw [hds]
        exact List.mem_cons_self
      cases isDigit_of_mem_writeNat hmem
  | negSucc n =>
    have hread : readNat? (Number.writeNat (n + 1)) = some (n + 1) := readNat?_writeNat hn
    rw [Number.writeInt, readInt?, hread]
    rfl

/-- The text of a float is no integer, whatever float it reads back as. -/
theorem readInt?_displayFloat (x : Number.Binary64) : readInt? (displayFloat x).toList = none := by
  obtain ⟨c, hc, hcases⟩ := Number.mem_write_displayStyle x
  have hnot {ds : List CodePoint} (hmem : c ∈ ds) : readNat? ds = none := by
    unfold readNat?
    rw [if_neg]
    rintro ⟨-, hall, -⟩
    have hdigit : c.isDigit = true := List.all_eq_true.mp hall c hmem
    rcases hcases with rfl | rfl | rfl <;> cases hdigit
  rw [displayFloat, Text.toList_ofList]
  unfold readInt?
  split
  · rename_i ds hds
    rw [hds] at hc
    have hne : c ≠ char '-' := by rcases hcases with rfl | rfl | rfl <;> decide
    rw [hnot ((List.mem_cons.mp hc).resolve_left hne)]
    rfl
  · rw [hnot hc]
    rfl

/-- The text of a float reads back as the float. -/
def FloatReads (x : Number.Binary64) : Prop :=
  readFloat? (displayFloat x).toList = some x

/-- A value whose literal can be read: an integer has not too many digits, the text of a float reads
back, and a string has an encoded form. The literal of a set is not one of a set. -/
def HasLiteral : PrefValue → Prop
  | .int n => (Json.int n).isWritable = true
  | .string s => s.isEncodable = true
  | .float x => FloatReads x
  | .set _ => False
  | _ => True

theorem readInt?_quote (cs : List CodePoint) : readInt? (char '"' :: cs) = none := by
  have hnot : readNat? (char '"' :: cs) = none := by
    unfold readNat?
    rw [if_neg]
    rintro ⟨-, hall, -⟩
    have hdigit : (char '"').isDigit = true := List.all_eq_true.mp hall _ List.mem_cons_self
    cases hdigit
  rw [readInt?, hnot]
  · rfl
  · intro ds hds
    cases hds

theorem readFloat?_quote (cs : List CodePoint) : readFloat? (char '"' :: cs) = none := by
  have hdigit : Text.isDigit '"' = false := by decide
  have hscan : Number.Decimal.scan? (char '"' :: cs) = none := by
    simp [Number.Decimal.scan?, Number.splitSign, Number.Decimal.splitPoint,
      Number.Decimal.splitDigits, hdigit]
  unfold readFloat?
  rw [hscan]
  split <;> rfl

/-- A text that is read as a number is not one of the words, nor a string. -/
theorem readValue?_number {cs : List CodePoint} (hwords : ∀ w ∈ words, cs ≠ w)
    (hquote : ∀ ds, cs ≠ char '"' :: ds) :
    readValue? cs = match readInt? cs with
      | some n => some (.int n)
      | none => (readFloat? cs).map .float := by
  have hscan : scanString? cs = none := by
    unfold scanString?
    split
    · rename_i rest
      exact absurd rfl (hquote rest)
    · rfl
  have hstring : readString? cs = none := by rw [readString?, hscan]
  unfold readValue?
  rw [if_neg (hwords _ (by simp [words])), if_neg (hwords _ (by simp [words])),
    if_neg (hwords _ (by simp [words])), hstring]
  cases readInt? cs <;> rfl

theorem readValue?_stringLiteral (s : Text) :
    readValue? (stringLiteral s).toList = (readString? (stringLiteral s).toList).map .string := by
  obtain ⟨cs, hcs⟩ : ∃ cs, (stringLiteral s).toList = char '"' :: cs := ⟨_, toList_stringLiteral s⟩
  rw [hcs]
  unfold readValue?
  rw [if_neg (by simp), if_neg (by simp), if_neg (by simp), readInt?_quote, readFloat?_quote]
  cases readString? (char '"' :: cs) <;> rfl

theorem readValue?_literal {v : PrefValue} (h : HasLiteral v) :
    readValue? (literal v).toList = some v := by
  cases v with
  | absent => rfl
  | bool b => cases b <;> rfl
  | int n =>
    have hread : readInt? (displayInt n).toList = some n := by
      rw [displayInt, Text.toList_ofList]
      exact readInt?_writeInt h
    rw [literal, readValue?_number, hread]
    · intro w hw hcs
      rw [hcs] at hread
      have hnone : ∀ w ∈ words, readInt? w = none := by decide
      rw [hnone w hw] at hread
      cases hread
    · intro ds hds
      rw [hds, readInt?_quote] at hread
      cases hread
  | float x =>
    have hread : readFloat? (displayFloat x).toList = some x := h
    rw [literal, readValue?_number, readInt?_displayFloat, hread]
    · rfl
    · intro w hw hcs
      rw [hcs] at hread
      have hnone : ∀ w ∈ words, readFloat? w = none := by decide +kernel
      rw [hnone w hw] at hread
      cases hread
    · intro ds hds
      rw [hds, readFloat?_quote] at hread
      cases hread
  | string s =>
    obtain ⟨s, rfl⟩ := Text.isEncodable_iff.mp h
    rw [literal, readValue?_stringLiteral, readString?_stringLiteral]
    rfl
  | set members => exact h.elim

theorem isWritable_of_int64 {n : Int} (hleast : leastInt64 ≤ n) (hgreatest : n ≤ greatestInt64) :
    (Json.int n).isWritable = true := by
  have hlength : (Nat.toDigits 10 n.natAbs).length ≤ 19 := by
    rw [Nat.length_toDigits_le_iff (by decide) (by decide)]
    unfold leastInt64 greatestInt64 at *
    omega
  rw [Json.isWritable, decide_eq_true_eq, Number.writeNat, List.length_map]
  exact hlength.trans (by decide)

theorem hasLiteral_of_readInteger {type : PrefType} {least greatest : Int} {text : Text}
    {cs : List CodePoint} {v : PrefValue} (h : PrefType.readInteger type least greatest text cs = .ok v)
    (hleast : leastInt64 ≤ least) (hgreatest : greatest ≤ greatestInt64) : HasLiteral v := by
  unfold PrefType.readInteger at h
  split at h
  · cases h
  · cases h
  · split at h
    · rename_i hrange
      cases h
      exact isWritable_of_int64 (Int.le_trans hleast hrange.1) (Int.le_trans hrange.2 hgreatest)
    · cases h

/-- A default that has been read has a literal; only of a float it is not known to read back, and of a
string not to have an encoded form. -/
theorem hasLiteral_of_defaultValue {f : Field} {v : PrefValue} (h : f.defaultValue = .ok v)
    (hstring : ∀ s, v = .string s → s.isEncodable = true)
    (hfloat : ∀ x, v = .float x → FloatReads x) : HasLiteral v := by
  unfold Field.defaultValue PrefType.defaultValue at h
  split at h
  · cases h
    cases htype : f.type with
    | float =>
      rw [htype] at hfloat
      exact hfloat _ rfl
    | int => exact isWritable_of_int64 (by decide) (by decide)
    | long => exact isWritable_of_int64 (by decide) (by decide)
    | _ => trivial
  · rename_i text _
    cases htype : f.type with
    | string =>
      rw [htype] at h
      cases h
      exact hstring _ rfl
    | int =>
      rw [htype] at h
      exact hasLiteral_of_readInteger h (by decide) (by decide)
    | long =>
      rw [htype] at h
      exact hasLiteral_of_readInteger h (by decide) (by decide)
    | boolean =>
      rw [htype] at h
      simp only [PrefType.readLiteral, PrefType.readBoolean] at h
      split at h
      · cases h
        trivial
      · split at h
        · cases h
          trivial
        · cases h
    | float =>
      rw [htype] at h
      simp only [PrefType.readLiteral, PrefType.readFloat] at h
      split at h
      · split at h
        · cases h
          exact hfloat _ rfl
        · cases h
      · cases h
    | stringSet =>
      rw [htype] at h
      cases h
      trivial

end PrefAccessor.Python
