import PrefAccessor.Text.CodePoint

/-!
# Texts

A text is a sequence of code points. One that holds characters only is a string; the others hold half
of a surrogate pair somewhere and have no encoded form. Supplies the operations of strings for texts.
-/

namespace PrefAccessor

set_option autoImplicit false

/-- The characters, if there is nothing else. -/
def chars? : List CodePoint → Option (List Char)
  | [] => some []
  | .char c :: cs => (chars? cs).map (c :: ·)
  | .surrogate _ :: _ => none

inductive Text where
  | plain (s : String)
  /-- Not all of these are characters. -/
  | broken (cs : List CodePoint) (h : chars? cs = none)
  deriving DecidableEq, Repr

instance : Coe String Text := ⟨.plain⟩

namespace Text

instance : Inhabited Text := ⟨""⟩

protected def toList : Text → List CodePoint
  | .plain s => s.toList.map char
  | .broken cs _ => cs

protected def ofList (cs : List CodePoint) : Text :=
  match h : chars? cs with
  | some l => .plain (String.ofList l)
  | none => .broken cs h

protected def append : Text → Text → Text
  | .plain s, .plain t => .plain (s ++ t)
  | s, t => Text.ofList (s.toList ++ t.toList)

instance : Append Text := ⟨Text.append⟩

/-- All texts of a list in one, with a text between each two. -/
protected def intercalate (between : Text) : List Text → Text
  | [] => ""
  | [t] => t
  | t :: u :: rest => t ++ between ++ Text.intercalate between (u :: rest)

protected def length (t : Text) : Nat :=
  t.toList.length

/-- The order of the first code points that differ. -/
instance : LT Text :=
  ⟨fun t u => List.Lex (· < ·) (t.toList.map CodePoint.toNat) (u.toList.map CodePoint.toNat)⟩

instance : LE Text := ⟨fun t u => ¬ u < t⟩

instance (t u : Text) : Decidable (t < u) :=
  @List.decidableLex Nat instDecidableEqNat (· < ·) Nat.decLt _ _

instance (t u : Text) : Decidable (t ≤ u) :=
  inferInstanceAs (Decidable (¬ u < t))

/-- The string of a text that is one. -/
def string? : Text → Option String
  | .plain s => some s
  | .broken _ _ => none

/-- The encoded form of a text. -/
def utf8? (t : Text) : Option ByteArray :=
  t.string?.map String.toUTF8

def isEncodable (t : Text) : Bool :=
  t.utf8?.isSome

theorem chars?_map_char (l : List Char) : chars? (l.map char) = some l := by
  induction l with
  | nil => rfl
  | cons c l ih => rw [List.map_cons, chars?, ih, Option.map_some]

theorem eq_map_char_of_chars? {cs : List CodePoint} {l : List Char} (h : chars? cs = some l) :
    cs = l.map char := by
  induction cs generalizing l with
  | nil =>
    cases h
    rfl
  | cons c cs ih =>
    cases c with
    | surrogate half => cases h
    | char c =>
      obtain ⟨l, hl, rfl⟩ := Option.map_eq_some_iff.mp h
      rw [List.map_cons, ← ih hl]

theorem isSome_chars?_iff {cs : List CodePoint} :
    (chars? cs).isSome = true ↔ ∀ c ∈ cs, ∃ d : Char, c = d := by
  induction cs with
  | nil => simp [chars?]
  | cons c cs ih =>
    rw [List.forall_mem_cons, ← ih]
    cases c <;> simp [chars?]

@[simp] theorem toList_plain (s : String) : (plain s).toList = s.toList.map char := rfl

@[simp] theorem toList_ofList (cs : List CodePoint) : (Text.ofList cs).toList = cs := by
  rw [Text.ofList]
  split
  · rename_i l h
    rw [toList_plain, String.toList_ofList, ← eq_map_char_of_chars? h]
  · rfl

@[simp] theorem ofList_toList (t : Text) : Text.ofList t.toList = t := by
  cases t with
  | plain s =>
    rw [toList_plain, Text.ofList]
    split
    · rename_i l h
      rw [chars?_map_char, Option.some.injEq] at h
      rw [← h, String.ofList_toList]
    · rename_i h
      rw [chars?_map_char] at h
      cases h
  | broken cs h =>
    rw [Text.toList, Text.ofList]
    split
    · rename_i l hl
      rw [h] at hl
      cases hl
    · rfl

theorem toList_inj {t u : Text} : t.toList = u.toList ↔ t = u := by
  refine ⟨fun h => ?_, fun h => h ▸ rfl⟩
  rw [← ofList_toList t, h, ofList_toList]

theorem ofList_map_char (l : List Char) : Text.ofList (l.map char) = String.ofList l := by
  rw [← toList_inj, toList_ofList, toList_plain, String.toList_ofList]

theorem plain_append (s t : String) : (s : Text) ++ (t : Text) = (s ++ t : String) := rfl

@[simp] theorem toList_empty : ("" : Text).toList = [] := rfl

@[simp] theorem toList_append (t u : Text) : (t ++ u).toList = t.toList ++ u.toList := by
  change (Text.append t u).toList = _
  unfold Text.append
  split
  · simp
  · exact toList_ofList _

@[simp] theorem ofList_nil : Text.ofList [] = "" := rfl

@[simp] theorem toList_eq_nil_iff {t : Text} : t.toList = [] ↔ t = "" := by
  rw [← toList_empty, toList_inj]

protected theorem append_assoc (t u v : Text) : t ++ u ++ v = t ++ (u ++ v) := by
  rw [← toList_inj]
  simp only [toList_append, List.append_assoc]

@[simp] protected theorem append_empty (t : Text) : t ++ ("" : Text) = t := by
  rw [← toList_inj, toList_append, toList_empty, List.append_nil]

@[simp] protected theorem empty_append (t : Text) : ("" : Text) ++ t = t := by
  rw [← toList_inj, toList_append, toList_empty, List.nil_append]

@[simp] protected theorem append_right_inj (t : Text) {u v : Text} : t ++ u = t ++ v ↔ u = v := by
  rw [← toList_inj, toList_append, toList_append, List.append_cancel_left_eq, toList_inj]

@[simp] protected theorem append_left_inj (v : Text) {t u : Text} : t ++ v = u ++ v ↔ t = u := by
  rw [← toList_inj, toList_append, toList_append, List.append_cancel_right_eq, toList_inj]

theorem toList_intercalate (between : Text) (ts : List Text) :
    (Text.intercalate between ts).toList = between.toList.intercalate (ts.map Text.toList) := by
  fun_induction Text.intercalate between ts with
  | case1 => rfl
  | case2 t => simp [List.intercalate]
  | case3 t u rest ih => simp [ih, List.intercalate]

@[simp] theorem isEncodable_plain (s : String) : (plain s).isEncodable = true := rfl

@[simp] theorem isEncodable_broken {cs : List CodePoint} (h : chars? cs = none) :
    (broken cs h).isEncodable = false := rfl

theorem isEncodable_iff {t : Text} : t.isEncodable = true ↔ ∃ s : String, t = .plain s := by
  cases t with
  | plain s => simp
  | broken cs h => simp

theorem isEncodable_iff_forall {t : Text} :
    t.isEncodable = true ↔ ∀ c ∈ t.toList, ∃ d : Char, c = d := by
  cases t with
  | plain s => simp
  | broken cs h => rw [← isSome_chars?_iff, Text.toList, h, isEncodable_broken, Option.isSome_none]

theorem isEncodable_ofList {cs : List CodePoint} :
    (Text.ofList cs).isEncodable = true ↔ ∀ c ∈ cs, ∃ d : Char, c = d := by
  rw [isEncodable_iff_forall, toList_ofList]

theorem isEncodable_append {t u : Text} :
    (t ++ u).isEncodable = true ↔ t.isEncodable = true ∧ u.isEncodable = true := by
  simp only [isEncodable_iff_forall, toList_append, List.forall_mem_append]

protected theorem not_le {t u : Text} : ¬ t ≤ u ↔ u < t :=
  Decidable.not_not

protected theorem lt_asymm {t u : Text} (h : t < u) : ¬ u < t :=
  List.lex_asymm (fun hlt hgt => Nat.lt_asymm hlt hgt) h

protected theorem le_total (t u : Text) : t ≤ u ∨ u ≤ t :=
  (Decidable.em (u < t)).symm.imp_right Text.lt_asymm

theorem le_antisymm {t u : Text} (h : t ≤ u) (h' : u ≤ t) : t = u := by
  have hnat : t.toList.map CodePoint.toNat = u.toList.map CodePoint.toNat :=
    List.lex_trichotomous (fun m n hmn hnm => Nat.le_antisymm (Nat.not_lt.mp hnm) (Nat.not_lt.mp hmn))
      h h'
  exact toList_inj.mp ((List.map_inj_right fun _ _ => CodePoint.toNat_inj.mp).mp hnat)

protected theorem le_trans {t u v : Text} (h : t ≤ u) (h' : u ≤ v) : t ≤ v :=
  @List.le_trans Nat _ _ _ _ _ _ _ h h'

end Text

end PrefAccessor
