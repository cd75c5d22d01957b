import Mathlib.Algebra.Ring.Parity
import Mathlib.Data.List.Induction
import PrefAccessor.Proofs.PythonReading

/-!
# Escaped text in doc strings

A text of the schema is escaped on its way into a doc string, by two replacements and then character by
character, which comes to one pass. Reading the escapes as Python reads them gives the text back. Each
quote of the escaped text stands behind an odd number of backslashes, and an even number ends it.
-/

namespace PrefAccessor.Python

set_option autoImplicit false

open Reading Text

/-- What the next character of a literal belongs to. -/
inductive EscapeState where
  | plain
  | backslash
  | octal (left value : Nat)
  | hex (left value : Nat)
  deriving DecidableEq

/-- The characters that have a letter of their own. -/
def letterEscape? : CodePoint → Option CodePoint
  | '\\' => some '\\'
  | '\'' => some '\''
  | '"' => some '"'
  | 'a' => some '\x07'
  | 'b' => some '\x08'
  | 'f' => some '\x0c'
  | 'n' => some '\n'
  | 'r' => some '\r'
  | 't' => some '\t'
  | 'v' => some '\x0b'
  | _ => none

def octalValue? (c : CodePoint) : Option Nat :=
  if '0' ≤ c ∧ c ≤ '7' then some (c.toNat - '0'.toNat) else none

def plainStep (c : CodePoint) : EscapeState × List CodePoint :=
  if c = '\\' then (.backslash, []) else (.plain, [c])

/-- One character of a literal and the characters that it adds to the value. A line feed behind a
backslash goes, and a backslash that begins no escape stays. Characters by name are not read. -/
def escapeStep : EscapeState → CodePoint → Option (EscapeState × List CodePoint)
  | .plain, c => some (plainStep c)
  | .backslash, c =>
    if c = '\n' then some (.plain, [])
    else if c = 'x' then some (.hex 2 0, [])
    else if c = 'u' then some (.hex 4 0, [])
    else if c = 'U' then some (.hex 8 0, [])
    else if c = 'N' then none
    else
      match letterEscape? c, octalValue? c with
      | some d, _ => some (.plain, [d])
      | none, some value => some (.octal 2 value, [])
      | none, none => some (.plain, [char '\\', c])
  | .octal (left + 1) value, c =>
    match octalValue? c with
    | some digit => some (.octal left (8 * value + digit), [])
    | none => some ((plainStep c).1, CodePoint.ofNat value :: (plainStep c).2)
  | .octal 0 value, c => some ((plainStep c).1, CodePoint.ofNat value :: (plainStep c).2)
  | .hex left value, c =>
    match Json.hexValue? c with
    | none => none
    | some digit =>
      if 1 < left then some (.hex (left - 1) (16 * value + digit), [])
      else if 16 * value + digit < 0x110000 then
        some (.plain, [CodePoint.ofNat (16 * value + digit)])
      else none

def unescapeFrom : EscapeState → List CodePoint → Option (List CodePoint)
  | .plain, [] => some []
  | .octal _ value, [] => some [CodePoint.ofNat value]
  | .backslash, [] => none
  | .hex _ _, [] => none
  | state, c :: cs =>
    match escapeStep state c with
    | none => none
    | some (next, out) => (unescapeFrom next cs).map (out ++ ·)

/-- The value of what stands between the quotes of a literal. -/
def unescape? (cs : List CodePoint) : Option (List CodePoint) :=
  unescapeFrom .plain cs

theorem unescapeFrom_cons (state : EscapeState) (c : CodePoint) (cs : List CodePoint) :
    unescapeFrom state (c :: cs) = match escapeStep state c with
      | none => none
      | some (next, out) => (unescapeFrom next cs).map (out ++ ·) := by
  cases state <;> rfl

theorem unescapeFrom_plain {c : CodePoint} (h : c ≠ '\\') (cs : List CodePoint) :
    unescapeFrom .plain (c :: cs) = (unescapeFrom .plain cs).map (c :: ·) := by
  rw [unescapeFrom_cons, escapeStep, plainStep, if_neg h]
  rfl

theorem unescapeFrom_escape {c : CodePoint} {next : EscapeState} {out : List CodePoint}
    (h : escapeStep .backslash c = some (next, out)) (cs : List CodePoint) :
    unescapeFrom .plain (char '\\' :: c :: cs) = (unescapeFrom next cs).map (out ++ ·) := by
  have hbackslash : escapeStep .plain '\\' = some (.backslash, []) := rfl
  simp only [unescapeFrom_cons, hbackslash, h, List.nil_append, Option.map_map]
  rfl

/-- An escape of one letter stands for one character. -/
theorem unescapeFrom_letter {c d : CodePoint} (h : escapeStep .backslash c = some (.plain, [d]))
    (cs : List CodePoint) :
    unescapeFrom .plain (char '\\' :: c :: cs) = (unescapeFrom .plain cs).map (d :: ·) :=
  unescapeFrom_escape h cs

/-- The number that digits write behind others that have given `value`. -/
def hexNumber? (value : Nat) : List CodePoint → Option Nat
  | [] => some value
  | c :: cs =>
    match Json.hexValue? c with
    | none => none
    | some digit => hexNumber? (16 * value + digit) cs

theorem hexNumber?_concat {value n : Nat} {cs : List CodePoint} (h : hexNumber? value cs = some n)
    {c : CodePoint} {digit : Nat} (hc : Json.hexValue? c = some digit) :
    hexNumber? value (cs ++ [c]) = some (16 * n + digit) := by
  induction cs generalizing value with
  | nil =>
    cases h
    rw [List.nil_append, hexNumber?, hc]
    rfl
  | cons d cs ih =>
    rw [List.cons_append, hexNumber?]
    rw [hexNumber?] at h
    cases hd : Json.hexValue? d with
    | none =>
      rw [hd] at h
      cases h
    | some digit' =>
      rw [hd] at h
      exact ih h

theorem hexNumber?_toDigits (n : Nat) :
    hexNumber? 0 ((Nat.toDigits 16 n).map char) = some n := by
  have hdigit : ∀ k : Fin 16, Json.hexValue? (char (Nat.digitChar k)) = some k.val := by decide
  induction n using Nat.strongRecOn with
  | ind n ih =>
    rw [Nat.toDigits_eq_if (by decide)]
    split
    · rename_i hlt
      rw [List.map_singleton, hexNumber?, hdigit ⟨n, hlt⟩]
      simp [hexNumber?]
    · have hrest := ih (n / 16) (by omega)
      have hlast := hdigit ⟨n % 16, Nat.mod_lt n (by decide)⟩
      rw [List.map_append, List.map_singleton, hexNumber?_concat hrest hlast, Nat.div_add_mod]

theorem hexNumber?_hexDigits (width n : Nat) : hexNumber? 0 (hexDigits width n) = some n := by
  have hzeros (k : Nat) (cs : List CodePoint) :
      hexNumber? 0 (List.replicate k (char '0') ++ cs) = hexNumber? 0 cs := by
    induction k with
    | zero => rfl
    | succ k ih => exact ih
  rw [hexDigits, hzeros, hexNumber?_toDigits]

theorem length_hexDigits {width n : Nat} (hwidth : 0 < width) (h : n < 16 ^ width) :
    (hexDigits width n).length = width := by
  have hlength : (Nat.toDigits 16 n).length ≤ width :=
    (Nat.length_toDigits_le_iff (by decide) hwidth).mpr h
  rw [hexDigits, List.length_append, List.length_replicate, List.length_map]
  omega

theorem unescapeFrom_hex {ds : List CodePoint} (hne : ds ≠ []) {value n : Nat}
    (h : hexNumber? value ds = some n) (hvalid : n < 0x110000) (cs : List CodePoint) :
    unescapeFrom (.hex ds.length value) (ds ++ cs) =
      (unescapeFrom .plain cs).map (CodePoint.ofNat n :: ·) := by
  induction ds generalizing value with
  | nil => exact absurd rfl hne
  | cons d ds ih =>
    rw [hexNumber?] at h
    rw [List.cons_append, unescapeFrom_cons, escapeStep]
    cases hd : Json.hexValue? d with
    | none =>
      rw [hd] at h
      cases h
    | some digit =>
      rw [hd] at h
      cases ds with
      | nil =>
        -- the last digit gives the character
        cases h
        simp [hvalid]
      | cons e ds =>
        have hlength : 1 < (d :: e :: ds).length := by simp
        have hrest := ih (List.cons_ne_nil e ds) h
        simp only [if_pos hlength]
        simpa using hrest

theorem unescapeFrom_hexDigits {width : Nat} (hwidth : 0 < width) {c : CodePoint}
    (h : c.toNat < 16 ^ width) (cs : List CodePoint) :
    unescapeFrom (.hex width 0) (hexDigits width c.toNat ++ cs) =
      (unescapeFrom .plain cs).map (c :: ·) := by
  have hlength := length_hexDigits hwidth h
  have hne : hexDigits width c.toNat ≠ [] := by
    intro heq
    rw [heq, List.length_nil] at hlength
    omega
  have hread := unescapeFrom_hex hne (hexNumber?_hexDigits width c.toNat) c.toNat_lt cs
  rwa [hlength, CodePoint.ofNat_toNat] at hread

theorem unescapeFrom_codeEscape (c : CodePoint) (cs : List CodePoint) :
    unescapeFrom .plain (codeEscape c ++ cs) = (unescapeFrom .plain cs).map (c :: ·) := by
  have hopen {letter : CodePoint} {width : Nat}
      (hletter : escapeStep .backslash letter = some (.hex width 0, [])) (ds : List CodePoint) :
      unescapeFrom .plain (char '\\' :: letter :: ds) = unescapeFrom (.hex width 0) ds := by
    rw [unescapeFrom_escape hletter]
    simp
  have hrange := c.toNat_lt
  unfold codeEscape
  split
  · rename_i hlt
    rw [List.cons_append, List.cons_append, hopen rfl]
    exact unescapeFrom_hexDigits (by decide) hlt cs
  · split
    · rename_i hlt
      rw [List.cons_append, List.cons_append, hopen rfl]
      exact unescapeFrom_hexDigits (by decide) hlt cs
    · rw [List.cons_append, List.cons_append, hopen rfl]
      exact unescapeFrom_hexDigits (by decide) (by omega) cs

theorem unescapeFrom_docChar (c : CodePoint) (cs : List CodePoint) :
    unescapeFrom .plain (docChar c ++ cs) = (unescapeFrom .plain cs).map (c :: ·) := by
  unfold docChar
  split
  · rename_i hspecial
    have hletter : escapeStep .backslash c = some (.plain, [c]) := by
      rcases hspecial with rfl | rfl <;> rfl
    exact unescapeFrom_letter hletter cs
  · rename_i hspecial
    have hbackslash : c ≠ '\\' := fun heq => hspecial (Or.inl heq)
    split
    · exact unescapeFrom_plain hbackslash cs
    · unfold controlEscape
      split
      · rename_i hfeed
        subst hfeed
        exact unescapeFrom_letter (c := 'n') rfl cs
      · split
        · rename_i hreturn
          subst hreturn
          exact unescapeFrom_letter (c := 'r') rfl cs
        · split
          · rename_i htab
            subst htab
            exact unescapeFrom_letter (c := 't') rfl cs
          · exact unescapeFrom_codeEscape c cs

theorem unescape?_docText (s : Text) : unescape? (docText s).toList = some s.toList := by
  rw [docText, Text.toList_ofList, unescape?]
  induction s.toList with
  | nil => rfl
  | cons c cs ih =>
    rw [List.flatMap_cons, unescapeFrom_docChar, ih]
    rfl

example : unescape? ("\\101\\x42\\u0043\\\n\\q" : Text).toList = some ("ABC\\q" : Text).toList := by
  decide

/-- What stands in a doc string for a character that is neither a backslash nor a quote. -/
def printedChar (c : CodePoint) : List CodePoint :=
  if c = '\n' ∨ c = '\t' ∨ isPrintable c then [c] else controlEscape c

/-- The escapes, put in by one replacement after another and then for each character that is left. -/
def escapedInTurn (cs : List CodePoint) : List CodePoint :=
  (replaced '"' [char '\\', char '"'] <| replaced '\\' [char '\\', char '\\'] cs).flatMap printedChar

/-- No step touches what an earlier one has put in. -/
theorem escapedInTurn_eq (cs : List CodePoint) : escapedInTurn cs = cs.flatMap docChar := by
  have hchar (c : CodePoint) : escapedInTurn [c] = docChar c := by
    have hbackslash : printedChar '\\' = [char '\\'] := by decide +kernel
    have hquote : printedChar '"' = [char '"'] := by decide +kernel
    unfold docChar
    split
    · rename_i hspecial
      rcases hspecial with rfl | rfl <;> simp [escapedInTurn, replaced, hbackslash, hquote]
    · rename_i hspecial
      rw [not_or] at hspecial
      simp [escapedInTurn, replaced, hspecial, printedChar]
  have hsplit : escapedInTurn cs = cs.flatMap fun c => escapedInTurn [c] := by
    simp only [escapedInTurn, replaced, List.flatMap_assoc, List.flatMap_singleton]
  rw [hsplit]
  simp only [hchar]

theorem toList_docText (s : Text) : (docText s).toList = escapedInTurn s.toList := by
  rw [docText, Text.toList_ofList, escapedInTurn_eq]

/-- How many backslashes stand together at the end of a text. -/
def backslashesAtEnd (cs : List CodePoint) : Nat :=
  (cs.reverse.takeWhile fun c => c == char '\\').length

theorem backslashesAtEnd_backslash (cs : List CodePoint) :
    backslashesAtEnd (cs ++ [char '\\']) = backslashesAtEnd cs + 1 := by
  simp [backslashesAtEnd]

theorem backslashesAtEnd_of_ne {c : CodePoint} (h : c ≠ '\\') (cs : List CodePoint) :
    backslashesAtEnd (cs ++ [c]) = 0 := by
  simp [backslashesAtEnd, h]

theorem controlEscape_eq (c : CodePoint) :
    ∃ ds d, controlEscape c = char '\\' :: (ds ++ [d]) ∧
      ∀ e ∈ ds ++ [d], e ≠ char '\"' ∧ e ≠ char '\\' := by
  have hletter (d : CodePoint) (hd : d ≠ char '\"' ∧ d ≠ char '\\') :
      ∃ ds e, [char '\\', d] = char '\\' :: (ds ++ [e]) ∧
        ∀ x ∈ ds ++ [e], x ≠ char '\"' ∧ x ≠ char '\\' :=
    ⟨[], d, rfl, List.forall_mem_singleton.mpr hd⟩
  have hcode (letter : CodePoint) (hl : letter ≠ '"' ∧ letter ≠ '\\') (width n : Nat) :
      ∃ ds e, char '\\' :: letter :: hexDigits width n = char '\\' :: (ds ++ [e]) ∧
        ∀ x ∈ ds ++ [e], x ≠ char '\"' ∧ x ≠ char '\\' := by
    have hne : hexDigits width n ≠ [] :=
      List.append_ne_nil_of_right_ne_nil _ (mt List.map_eq_nil_iff.mp Nat.toDigits_ne_nil)
    obtain ⟨ds, e, heq⟩ := (List.eq_nil_or_concat (hexDigits width n)).resolve_left hne
    rw [List.concat_eq_append] at heq
    refine ⟨letter :: ds, e, by rw [heq]; rfl, ?_⟩
    rw [List.cons_append, ← heq]
    exact List.forall_mem_cons.mpr ⟨hl, fun x hx => not_special_of_mem_hexDigits hx⟩
  unfold controlEscape codeEscape
  split
  · exact hletter 'n' (by decide)
  · split
    · exact hletter 'r' (by decide)
    · split
      · exact hletter 't' (by decide)
      · split
        · exact hcode 'x' (by decide) 2 c.toNat
        · split
          · exact hcode 'u' (by decide) 4 c.toNat
          · exact hcode 'U' (by decide) 8 c.toNat

/-- A backslash and a quote are escaped by a backslash, and what is written by its code has neither
behind the first backslash. -/
theorem docChar_cases (c : CodePoint) :
    ((c = '\\' ∨ c = '"') ∧ docChar c = [char '\\', c]) ∨
      (∃ ds d, (docChar c = ds ++ [d] ∨ docChar c = char '\\' :: (ds ++ [d])) ∧
        ∀ e ∈ ds ++ [d], e ≠ char '\"' ∧ e ≠ char '\\') := by
  unfold docChar
  split
  · rename_i hspecial
    exact Or.inl ⟨hspecial, rfl⟩
  · rename_i hspecial
    right
    split
    · refine ⟨[], c, Or.inl rfl, List.forall_mem_singleton.mpr ⟨?_, ?_⟩⟩
      · exact fun heq => hspecial (Or.inr heq)
      · exact fun heq => hspecial (Or.inl heq)
    · obtain ⟨ds, d, heq, hplain⟩ := controlEscape_eq c
      exact ⟨ds, d, Or.inr heq, hplain⟩

/-- Behind an even number of backslashes a character leaves an even number of them. -/
theorem even_backslashesAtEnd_docChar {cs : List CodePoint} (h : Even (backslashesAtEnd cs))
    (c : CodePoint) :
    Even (backslashesAtEnd (cs ++ docChar c)) := by
  rcases docChar_cases c with ⟨hspecial, heq⟩ | ⟨ds, d, heq, hplain⟩
  · have hsplit : cs ++ [char '\\', c] = cs ++ [char '\\'] ++ [c] := by simp
    rw [heq, hsplit]
    rcases hspecial with rfl | rfl
    · rw [backslashesAtEnd_backslash, backslashesAtEnd_backslash]
      exact h.add_one.add_one
    · rw [backslashesAtEnd_of_ne (by decide)]
      exact Even.zero
  · have hd : d ≠ '\\' := (hplain d (by simp)).2
    have hend : ∃ init, cs ++ docChar c = init ++ [d] := by
      rcases heq with heq | heq
      · exact ⟨cs ++ ds, by simp [heq]⟩
      · exact ⟨cs ++ char '\\' :: ds, by simp [heq]⟩
    obtain ⟨init, hinit⟩ := hend
    rw [hinit, backslashesAtEnd_of_ne hd]
    exact Even.zero

/-- Every quote stands behind an odd number of backslashes. -/
def QuotesEscaped (cs : List CodePoint) : Prop :=
  ∀ before after, cs = before ++ char '"' :: after → Odd (backslashesAtEnd before)

/-- A quote in the form of a character is escaped by the one backslash in front of it. -/
theorem eq_of_quote_mem_docChar {c : CodePoint} {mid after : List CodePoint}
    (h : docChar c = mid ++ char '"' :: after) : mid = [char '\\'] := by
  have hquote : char '"' ∈ docChar c := by
    rw [h]
    exact List.mem_append_right mid List.mem_cons_self
  rcases docChar_cases c with ⟨-, hspecial⟩ | ⟨ds, d, hplain, hnone⟩
  · rw [hspecial] at h
    cases mid with
    | nil => cases h
    | cons e mid =>
      obtain ⟨rfl, hrest⟩ := List.cons.inj h
      cases mid with
      | nil => rfl
      | cons e mid => simp at hrest
  · exfalso
    rcases hplain with hplain | hplain
    · rw [hplain] at hquote
      exact (hnone '"' hquote).1 rfl
    · rw [hplain] at hquote
      rcases List.mem_cons.mp hquote with hbackslash | hquote
      · exact absurd hbackslash (by decide)
      · exact (hnone '"' hquote).1 rfl

theorem quotesEscaped_docChar {cs : List CodePoint} (hcs : QuotesEscaped cs)
    (heven : Even (backslashesAtEnd cs)) (c : CodePoint) : QuotesEscaped (cs ++ docChar c) := by
  intro before after heq
  rcases List.append_eq_append_iff.mp heq with ⟨mid, rfl, hchar⟩ | ⟨mid, rfl, hmid⟩
  · rw [eq_of_quote_mem_docChar hchar, backslashesAtEnd_backslash]
    exact heven.add_one
  · cases mid with
    | nil =>
      have hnil : ([] : List CodePoint) = [char '\\'] := eq_of_quote_mem_docChar hmid.symm
      cases hnil
    | cons e mid =>
      obtain ⟨rfl, -⟩ := List.cons.inj hmid
      exact hcs before mid rfl

/-- By induction on the text from its end. -/
theorem quotesEscaped_docText (s : Text) :
    QuotesEscaped (docText s).toList ∧ Even (backslashesAtEnd (docText s).toList) := by
  rw [docText, Text.toList_ofList]
  induction s.toList using List.reverseRecOn with
  | nil =>
    refine ⟨?_, Even.zero⟩
    intro before after heq
    simp at heq
  | append_singleton cs c ih =>
    rw [List.flatMap_append, List.flatMap_singleton]
    exact ⟨quotesEscaped_docChar ih.1 ih.2 c, even_backslashesAtEnd_docChar ih.2 c⟩

end PrefAccessor.Python
