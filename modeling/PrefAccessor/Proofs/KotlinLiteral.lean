import PrefAccessor.Proofs.KotlinReading

/-!
# String literals of Kotlin

A literal on one line by the lexical rules of Kotlin: up to the quote that closes it, it consists of
characters, escapes and templates. What is written for a text is one whole literal without a
template, and its parts denote the text.
-/

namespace PrefAccessor.Kotlin

set_option autoImplicit false

open Reading Text

inductive StringPart where
  | plain (c : CodePoint)
  | escape (letter : CodePoint)
  /-- A code unit in four hexadecimal digits. -/
  | unit (a b c d : CodePoint)
  deriving DecidableEq, Repr

/-- The character that a letter behind a backslash stands for. -/
def escapedChar? : CodePoint → Option CodePoint
  | 't' => some '\t'
  | 'b' => some '\x08'
  | 'r' => some '\r'
  | 'n' => some '\n'
  | '\'' => some '\''
  | '"' => some '"'
  | '\\' => some '\\'
  | '$' => some '$'
  | _ => none

/-- A dollar in front of this begins a template: a name or an expression in braces. -/
def beginsTemplate : List CodePoint → Bool
  | [] => false
  | c :: _ => c == '\x7b' || c == '`' || isIdentifierStart c

/-- The parts of a literal behind its opening quote, and what stands behind the closing one. A text
that ends its line before, or that holds a template, has no parts. -/
def scanParts : List CodePoint → Option (List StringPart × List CodePoint)
  | [] => none
  | char '"' :: rest => some ([], rest)
  | char '\\' :: char 'u' :: a :: b :: c :: d :: rest =>
    if (Json.hexUnit? [a, b, c, d]).isSome then
      (scanParts rest).map fun r => (.unit a b c d :: r.1, r.2)
    else none
  | char '\\' :: letter :: rest =>
    if (escapedChar? letter).isSome then
      (scanParts rest).map fun r => (.escape letter :: r.1, r.2)
    else none
  | c :: rest =>
    if c = '\\' ∨ c = '\n' ∨ c = '\r' ∨ (c = '$' ∧ beginsTemplate rest) then none
    else (scanParts rest).map fun r => (.plain c :: r.1, r.2)

/-- The literal on one line at the front, and what follows it. Three quotes open one of another
kind. -/
def scanString? : List CodePoint → Option (List StringPart × List CodePoint)
  | char '"' :: char '"' :: char '"' :: _ => none
  | char '"' :: rest => scanParts rest
  | _ => none

namespace StringPart

def text : StringPart → List CodePoint
  | .plain c => [c]
  | .escape letter => [char '\\', letter]
  | .unit a b c d => [char '\\', char 'u', a, b, c, d]

/-- The character that a part denotes; half of a pair of code units denotes none. -/
def char? : StringPart → Option CodePoint
  | .plain c => some c
  | .escape letter => escapedChar? letter
  | .unit a b c d =>
    match Json.hexUnit? [a, b, c, d] with
    | some (n, _) => if n.isValidChar then some (CodePoint.ofNat n) else none
    | none => none

/-- A part that stands for itself wherever it is met: a character that has no other meaning in a
literal, or an escape that is known. -/
def Stands : StringPart → Prop
  | .plain c => c ≠ '"' ∧ c ≠ '\\' ∧ c ≠ '$' ∧ c ≠ '\n' ∧ c ≠ '\r'
  | .escape letter => ∃ c, escapedChar? letter = some c
  | .unit a b c d => ∃ n, Json.hexUnit? [a, b, c, d] = some n

end StringPart

/-- What a literal denotes, with nothing behind it. -/
def readString? (cs : List CodePoint) : Option Text :=
  match scanString? cs with
  | some (parts, []) => (parts.mapM StringPart.char?).map Text.ofList
  | _ => none

example : readString? ("\"\\u0041\\$$ \\'\"" : Text).toList = some ("A$$ '" : Text) := by decide +kernel

theorem scanParts_part {p : StringPart} (h : p.Stands) (rest : List CodePoint) :
    scanParts (p.text ++ rest) = (scanParts rest).map fun r => (p :: r.1, r.2) := by
  cases p with
  | plain c =>
    obtain ⟨hquote, hbackslash, hdollar, hfeed, hreturn⟩ := h
    rw [StringPart.text, List.singleton_append, scanParts.eq_def]
    split <;> simp_all
  | escape letter =>
    obtain ⟨c, hc⟩ := h
    have hne : letter ≠ 'u' := by
      rintro rfl
      cases hc
    rw [StringPart.text, List.cons_append, List.singleton_append, scanParts]
    · rw [hc, Option.isSome_some, if_pos rfl]
    · intro _ _ _ _ _ hu
      exact absurd hu hne
  | unit a b c d =>
    obtain ⟨n, hn⟩ := h
    simp only [StringPart.text, List.cons_append, List.nil_append, scanParts, hn,
      Option.isSome_some, if_true]

/-- Parts that stand for themselves are what is scanned, up to the quote behind them. -/
theorem scanParts_texts {parts : List StringPart} (h : ∀ p ∈ parts, p.Stands) (tail : List CodePoint) :
    scanParts (parts.flatMap StringPart.text ++ char '"' :: tail) = some (parts, tail) := by
  induction parts with
  | nil => rfl
  | cons p parts ih =>
    rw [List.flatMap_cons, List.append_assoc, scanParts_part (h p List.mem_cons_self),
      ih fun q hq => h q (List.mem_cons_of_mem p hq)]
    rfl

/-- No part begins with a quote, so that two quotes in front of one do not open another literal. -/
theorem StringPart.head?_text {p : StringPart} (h : p.Stands) : p.text.head? ≠ some (char '"') := by
  cases p with
  | plain c =>
    intro heq
    exact h.1 (Option.some.inj heq)
  | escape letter => simp [StringPart.text]
  | unit a b c d => simp [StringPart.text]

theorem scanString?_parts {parts : List StringPart} (h : ∀ p ∈ parts, p.Stands) {tail : List CodePoint}
    (htail : tail.head? ≠ some (char '"')) :
    scanString? (char '"' :: (parts.flatMap StringPart.text ++ char '"' :: tail)) =
      some (parts, tail) := by
  have hscan := scanParts_texts h tail
  rw [scanString?]
  · exact hscan
  · intro rest hrest
    cases parts with
    | nil =>
      rw [List.flatMap_nil, List.nil_append] at hrest
      have hhead : tail = char '"' :: rest := (List.cons.inj hrest).2
      rw [hhead] at htail
      exact htail rfl
    | cons p parts =>
      have hp := StringPart.head?_text (h p List.mem_cons_self)
      have hne : p.text ≠ [] := by cases p <;> simp [StringPart.text]
      have hhead := congrArg List.head? hrest
      rw [List.flatMap_cons, List.append_assoc, List.head?_append_of_ne_nil _ hne] at hhead
      exact hp hhead

/-- The part that a character of a text is written as. -/
def writtenPart (c : CodePoint) : StringPart :=
  if c = '\\' ∨ c = '"' ∨ c = '$' then .escape c
  else if c = '\n' then .escape 'n'
  else if c = '\r' then .escape 'r'
  else if c = '\t' then .escape 't'
  else .plain c

theorem text_writtenPart (c : CodePoint) : (writtenPart c).text = stringChar c := by
  simp only [writtenPart, stringChar, apply_ite StringPart.text]
  rfl

theorem writtenPart_cases (c : CodePoint) :
    (∃ letter, escapedChar? letter = some c ∧ writtenPart c = .escape letter) ∨
      ((c ≠ '"' ∧ c ≠ '\\' ∧ c ≠ '$' ∧ c ≠ '\n' ∧ c ≠ '\r') ∧ writtenPart c = .plain c) := by
  by_cases hescaped : c ∈ [char '\\', char '"', char '$', char '\n', char '\r', char '\t']
  · left
    simp only [List.mem_cons, List.not_mem_nil, or_false] at hescaped
    rcases hescaped with rfl | rfl | rfl | rfl | rfl | rfl <;> exact ⟨_, rfl, rfl⟩
  · right
    simp only [List.mem_cons, List.not_mem_nil, or_false, not_or] at hescaped
    obtain ⟨hbackslash, hquote, hdollar, hfeed, hreturn, htab⟩ := hescaped
    refine ⟨⟨hquote, hbackslash, hdollar, hfeed, hreturn⟩, ?_⟩
    simp [writtenPart, hbackslash, hquote, hdollar, hfeed, hreturn, htab]

theorem writtenPart_denotes (c : CodePoint) :
    (writtenPart c).Stands ∧ (writtenPart c).char? = some c := by
  rcases writtenPart_cases c with ⟨letter, hletter, heq⟩ | ⟨hplain, heq⟩
  · rw [heq]
    exact ⟨⟨c, hletter⟩, hletter⟩
  · rw [heq]
    exact ⟨hplain, rfl⟩

theorem toList_stringLiteral_parts (s : Text) :
    (stringLiteral s).toList =
      char '"' :: ((s.toList.map writtenPart).flatMap StringPart.text ++ [char '"']) := by
  rw [toList_stringLiteral, List.flatMap_map]
  simp only [text_writtenPart]

theorem mapM_char?_writtenPart (cs : List CodePoint) :
    (cs.map writtenPart).mapM StringPart.char? = some cs := by
  induction cs with
  | nil => rfl
  | cons c cs ih =>
    rw [List.map_cons, List.mapM_cons, ih, (writtenPart_denotes c).2]
    rfl

theorem stands_writtenPart (cs : List CodePoint) : ∀ p ∈ cs.map writtenPart, p.Stands :=
  List.forall_mem_map.mpr fun c _ => (writtenPart_denotes c).1

theorem scanString?_stringLiteral (s : Text) {tail : List CodePoint}
    (htail : tail.head? ≠ some (char '"')) :
    scanString? ((stringLiteral s).toList ++ tail) = some (s.toList.map writtenPart, tail) := by
  have hscan := scanString?_parts (stands_writtenPart s.toList) htail
  rw [toList_stringLiteral_parts]
  simpa using hscan

theorem readString?_stringLiteral (s : Text) : readString? (stringLiteral s).toList = some s := by
  have hend : ([] : List CodePoint).head? ≠ some (char '"') := by simp
  have hscan := scanString?_stringLiteral s hend
  rw [List.append_nil] at hscan
  rw [readString?, hscan]
  simp only [mapM_char?_writtenPart, Option.map_some, Text.ofList_toList]

theorem isLine_stringChar (c : CodePoint) : IsLine (stringChar c) := by
  rcases stringChar_cases c with ⟨letter, hletter, heq⟩ | ⟨hplain, heq⟩
  · have hescape : ∀ letter ∈ [char '\\', char '"', char '$', char 'n', char 'r', char 't'],
        letter ≠ '\n' ∧ letter ≠ '\r' := by
      simp
    rw [heq]
    exact List.forall_mem_cons.mpr ⟨by simp, List.forall_mem_singleton.mpr (hescape letter hletter)⟩
  · obtain ⟨-, -, -, hfeed, hreturn⟩ := hplain
    intro d hd
    rw [heq, List.mem_singleton] at hd
    rw [hd]
    exact ⟨hfeed, hreturn⟩

theorem isLine_stringLiteral (s : Text) : IsLine (stringLiteral s).toList := by
  intro c hc
  rw [toList_stringLiteral, List.mem_cons, List.mem_append, List.mem_singleton] at hc
  rcases hc with rfl | hc | rfl
  · decide
  · obtain ⟨d, -, hc⟩ := List.mem_flatMap.mp hc
    exact isLine_stringChar d c hc
  · decide

/-- The escapes, put in by one replacement after another. -/
def escapedInTurn (cs : List CodePoint) : List CodePoint :=
  replaced '\t' [char '\\', char 't'] <| replaced '\r' [char '\\', char 'r'] <|
    replaced '\n' [char '\\', char 'n'] <| replaced '$' [char '\\', char '$'] <|
      replaced '"' [char '\\', char '"'] <| replaced '\\' [char '\\', char '\\'] cs

/-- No replacement touches what an earlier one has put in. -/
theorem escapedInTurn_eq (cs : List CodePoint) : escapedInTurn cs = cs.flatMap stringChar := by
  have hchar (c : CodePoint) : escapedInTurn [c] = stringChar c := by
    by_cases hescaped : c ∈ [char '\\', char '"', char '$', char '\n', char '\r', char '\t']
    · simp only [List.mem_cons, List.not_mem_nil, or_false] at hescaped
      rcases hescaped with rfl | rfl | rfl | rfl | rfl | rfl <;> rfl
    · simp only [List.mem_cons, List.not_mem_nil, or_false, not_or] at hescaped
      simp [escapedInTurn, replaced, stringChar, hescaped]
  have hsplit : escapedInTurn cs = cs.flatMap fun c => escapedInTurn [c] := by
    simp only [escapedInTurn, replaced, List.flatMap_assoc, List.flatMap_singleton]
  rw [hsplit]
  simp only [hchar]

/-- A literal is one line, made of parts of which each stands for itself and which denote the text,
and ends with the quote that closes it. -/
theorem stringLiteral_denotes :
    (∀ s : String,
      (stringLiteral s).toList = char '"' :: (escapedInTurn (s.toList.map char) ++ [char '"']) ∧
      IsLine (stringLiteral s).toList ∧
      ∃ parts : List StringPart,
        (stringLiteral s).toList = char '"' :: (parts.flatMap StringPart.text ++ [char '"']) ∧
        (∀ p ∈ parts, p.Stands) ∧ parts.mapM StringPart.char? = some (s.toList.map char) ∧
        ∀ tail : List CodePoint, tail.head? ≠ some (char '"') →
          scanString? ((stringLiteral s).toList ++ tail) = some (parts, tail)) ∧
    Function.Injective stringLiteral := by
  constructor
  · intro s
    refine ⟨?_, isLine_stringLiteral s, (s.toList.map char).map writtenPart,
      toList_stringLiteral_parts s, stands_writtenPart (s.toList.map char),
      mapM_char?_writtenPart (s.toList.map char), fun tail htail => scanString?_stringLiteral s htail⟩
    rw [escapedInTurn_eq, toList_stringLiteral, Text.toList_plain]
  · intro s t h
    have hs := readString?_stringLiteral s
    rw [h, readString?_stringLiteral] at hs
    exact (Option.some.inj hs).symm

/-- The literal of an argument, up to the bracket behind it. -/
theorem stringLiteral_denotes_argument :
    [char ')'].head? ≠ some (char '"') ∧
    (∃ parts : List StringPart, parts.mapM StringPart.char? = some ("\\$\"" : Text).toList ∧
      scanString? ((stringLiteral "\\$\"").toList ++ [char ')']) = some (parts, [char ')'])) ∧
    stringLiteral "\\$\"" ≠ stringLiteral "$\"" := by
  have htail : [char ')'].head? ≠ some (char '"') := by decide
  obtain ⟨hall, hinj⟩ := stringLiteral_denotes
  obtain ⟨-, -, parts, -, -, hdenotes, hscan⟩ := hall "\\$\""
  refine ⟨htail, ⟨parts, hdenotes, hscan [char ')'] htail⟩, ?_⟩
  intro h
  exact absurd (hinj h) (by decide)

end PrefAccessor.Kotlin
