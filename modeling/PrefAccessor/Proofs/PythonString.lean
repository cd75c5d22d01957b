import PrefAccessor.Proofs.DocString
import PrefAccessor.Proofs.PythonStatement

/-!
# String literals of Python

A literal between single double quotes is evaluated as Python does it, with its full table of
escapes. What is written for a text is one literal on one line, which Python and JSON both evaluate
to the text. So the keys, the store and the defaults of a schema come unchanged to the calls in which
they stand.
-/

namespace PrefAccessor.Python

set_option autoImplicit false

open Reading Text

/-- What stands in a literal behind its opening quote, and what follows it: its end is the first quote
that no backslash takes along, on the same line. -/
def bodyOf? : List CodePoint → Option (List CodePoint × List CodePoint)
  | [] => none
  | char '"' :: rest => some ([], rest)
  | char '\n' :: _ => none
  | char '\r' :: _ => none
  | char '\\' :: c :: rest => (bodyOf? rest).map fun r => (char '\\' :: c :: r.1, r.2)
  | c :: rest => (bodyOf? rest).map fun r => (c :: r.1, r.2)

/-- The value of the literal at the front, and what follows it. Three quotes open one of another
kind, and half of a surrogate pair cannot stand in code. -/
def evalString? : List CodePoint → Option (Text × List CodePoint)
  | char '"' :: char '"' :: char '"' :: _ => none
  | char '"' :: rest =>
    match bodyOf? rest with
    | none => none
    | some (body, tail) =>
      if (chars? body).isSome then (unescape? body).map fun cs => (Text.ofList cs, tail) else none
  | _ => none

example : evalString? ("\"\\101\\x42'\\\"\\t\\u00e9\" # \"" : Text).toList =
    some (.plain "AB'\"\t\u00e9", (" # \"" : Text).toList) := by
  decide +kernel

theorem bodyOf?_plain {c : CodePoint} (hquote : c ≠ '"') (hbackslash : c ≠ '\\') (hfeed : c ≠ '\n')
    (hreturn : c ≠ '\r') (rest : List CodePoint) :
    bodyOf? (c :: rest) = (bodyOf? rest).map fun r => (c :: r.1, r.2) := by
  rw [bodyOf?.eq_def]
  split <;> simp_all

theorem bodyOf?_escape (c : CodePoint) (rest : List CodePoint) :
    bodyOf? (char '\\' :: c :: rest) = (bodyOf? rest).map fun r => (char '\\' :: c :: r.1, r.2) := by
  rw [bodyOf?]

theorem bodyOf?_plains {cs : List CodePoint}
    (h : ∀ c ∈ cs, c ≠ '"' ∧ c ≠ '\\' ∧ c ≠ '\n' ∧ c ≠ '\r') (rest : List CodePoint) :
    bodyOf? (cs ++ rest) = (bodyOf? rest).map fun r => (cs ++ r.1, r.2) := by
  induction cs with
  | nil =>
    rw [List.nil_append]
    exact Option.map_id'.symm
  | cons c cs ih =>
    obtain ⟨hquote, hbackslash, hfeed, hreturn⟩ := h c List.mem_cons_self
    rw [List.cons_append, bodyOf?_plain hquote hbackslash hfeed hreturn,
      ih fun d hd => h d (List.mem_cons_of_mem c hd), Option.map_map]
    rfl

theorem bodyOf?_writeChar (c : CodePoint) (rest : List CodePoint) :
    bodyOf? (Json.writeChar c ++ rest) =
      (bodyOf? rest).map fun r => (Json.writeChar c ++ r.1, r.2) := by
  rcases writeChar_cases c with ⟨e, -, hwrite⟩ | ⟨hcontrol, hwrite⟩ |
    ⟨⟨hquote, hbackslash, hfeed, hreturn⟩, hwrite⟩
  · rw [hwrite]
    exact bodyOf?_escape e rest
  · have hdigits : ∀ d ∈ hexDigits 4 c.toNat, d ≠ '"' ∧ d ≠ '\\' ∧ d ≠ '\n' ∧ d ≠ '\r' := by
      have hdigit : ∀ k : Fin 16,
          char (Nat.digitChar k) ≠ char '\n' ∧ char (Nat.digitChar k) ≠ char '\r' := by decide
      intro d hd
      obtain ⟨hquote, hbackslash⟩ := not_special_of_mem_hexDigits hd
      obtain ⟨k, rfl⟩ := mem_hexDigits hd
      exact ⟨hquote, hbackslash, hdigit k⟩
    rw [hwrite, List.cons_append, List.cons_append, bodyOf?_escape, bodyOf?_plains hdigits,
      Option.map_map]
    rfl
  · rw [hwrite]
    exact bodyOf?_plain hquote hbackslash hfeed hreturn rest

theorem bodyOf?_written (cs tail : List CodePoint) :
    bodyOf? (cs.flatMap Json.writeChar ++ char '"' :: tail) =
      some (cs.flatMap Json.writeChar, tail) := by
  induction cs with
  | nil => rw [List.flatMap_nil, List.nil_append, bodyOf?]
  | cons c cs ih =>
    rw [List.flatMap_cons, List.append_assoc, bodyOf?_writeChar, ih]
    rfl

theorem escapeStep_of_escapedChar? {e c : CodePoint} (h : escapedChar? e = some c) :
    escapeStep .backslash e = some (.plain, [c]) := by
  unfold escapedChar? at h
  split at h <;> cases h <;> rfl

theorem unescapeFrom_writeChar (c : CodePoint) (cs : List CodePoint) :
    unescapeFrom .plain (Json.writeChar c ++ cs) = (unescapeFrom .plain cs).map (c :: ·) := by
  rcases writeChar_cases c with ⟨e, he, hwrite⟩ | ⟨hcontrol, hwrite⟩ | ⟨⟨-, hbackslash, -⟩, hwrite⟩
  · rw [hwrite]
    exact unescapeFrom_letter (escapeStep_of_escapedChar? he) cs
  · have hopen : escapeStep .backslash 'u' = some (.hex 4 0, []) := rfl
    rw [hwrite, List.cons_append, List.cons_append, unescapeFrom_escape hopen,
      unescapeFrom_hexDigits (by decide) (by omega), Option.map_map]
    rfl
  · rw [hwrite]
    exact unescapeFrom_plain hbackslash cs

theorem unescape?_written (cs : List CodePoint) : unescape? (cs.flatMap Json.writeChar) = some cs := by
  unfold unescape?
  induction cs with
  | nil => rfl
  | cons c cs ih =>
    rw [List.flatMap_cons, unescapeFrom_writeChar, ih]
    rfl

/-- A literal has an encoded form if its string has. -/
theorem isSome_chars?_written (s : Text) :
    (chars? (s.toList.flatMap Json.writeChar)).isSome = s.isEncodable := by
  rw [Bool.eq_iff_iff, Text.isSome_chars?_iff, Text.isEncodable_iff_forall]
  constructor
  · intro h c hc
    cases c with
    | char d => exact ⟨d, rfl⟩
    | surrogate half =>
      refine h _ (List.mem_flatMap.mpr ⟨_, hc, ?_⟩)
      rw [writeChar_surrogate]
      exact List.mem_singleton_self _
  · intro h ch hch
    obtain ⟨c, hc, hch⟩ := List.mem_flatMap.mp hch
    rcases writeChar_cases c with ⟨e, he, hwrite⟩ | ⟨-, hwrite⟩ | ⟨-, hwrite⟩
    · rw [hwrite, List.mem_pair] at hch
      rcases hch with rfl | rfl
      · exact ⟨_, rfl⟩
      · unfold escapedChar? at he
        split at he <;> cases he <;> exact ⟨_, rfl⟩
    · rw [hwrite, List.mem_cons, List.mem_cons] at hch
      rcases hch with rfl | rfl | hch
      · exact ⟨_, rfl⟩
      · exact ⟨_, rfl⟩
      · obtain ⟨k, rfl⟩ := mem_hexDigits hch
        exact ⟨_, rfl⟩
    · rw [hwrite, List.mem_singleton] at hch
      rw [hch]
      exact h c hc

theorem evalString?_stringLiteral (s : String) {tail : List CodePoint}
    (htail : tail.head? ≠ some (char '"')) :
    evalString? ((stringLiteral s).toList ++ tail) = some (.plain s, tail) := by
  have hbody := bodyOf?_written (s : Text).toList tail
  have hvalue := unescape?_written (s : Text).toList
  have hchars := (isSome_chars?_written (s : Text)).trans (Text.isEncodable_plain s)
  rw [toList_stringLiteral, List.cons_append, List.append_assoc, List.singleton_append, evalString?]
  · simp only [hbody, hvalue, hchars, if_true, Option.map_some, Text.ofList_toList]
  · intro rest hrest
    cases hs : (s : Text).toList with
    | nil =>
      rw [hs, List.flatMap_nil, List.nil_append] at hrest
      have hhead : tail = char '"' :: rest := (List.cons.inj hrest).2
      rw [hhead] at htail
      exact htail rfl
    | cons c cs =>
      obtain ⟨d, ds, hwrite, hd⟩ := writeChar_eq_cons c
      rw [hs, List.flatMap_cons, hwrite] at hrest
      exact hd (List.cons.inj hrest).1

/-- A literal with half of a surrogate pair has no value. -/
theorem evalString?_stringLiteral_broken {s : Text} (h : s.isEncodable = false) :
    evalString? (stringLiteral s).toList = none := by
  have hbody := bodyOf?_written s.toList []
  have hchars := (isSome_chars?_written s).trans h
  rw [toList_stringLiteral, evalString?.eq_def]
  split
  · rfl
  · rename_i hcons
    rw [← (List.cons.inj hcons).2]
    simp only [hbody, hchars, Bool.false_eq_true, if_false]
  · rfl

theorem le_toNat_of_mem_writeChar {c ch : CodePoint} (h : ch ∈ Json.writeChar c) : 0x20 ≤ ch.toNat := by
  rcases writeChar_cases c with ⟨e, he, hwrite⟩ | ⟨hcontrol, hwrite⟩ | ⟨-, hwrite⟩
  · have hletter : 0x20 ≤ e.toNat := by
      unfold escapedChar? at he
      split at he <;> cases he <;> decide
    rw [hwrite, List.mem_pair] at h
    rcases h with rfl | rfl
    · decide
    · exact hletter
  · have hdigit : ∀ k : Fin 16, 0x20 ≤ (char (Nat.digitChar k)).toNat := by decide
    rw [hwrite, List.mem_cons, List.mem_cons] at h
    rcases h with rfl | rfl | h
    · decide
    · decide
    · obtain ⟨k, rfl⟩ := mem_hexDigits h
      exact hdigit k
  · have hcontrols : ∀ n : Fin 0x20, Json.writeChar (CodePoint.ofNat n) ≠ [CodePoint.ofNat n] := by
      decide +kernel
    rw [hwrite, List.mem_singleton] at h
    rw [h]
    by_contra hlt
    have hne := hcontrols ⟨c.toNat, by omega⟩
    rw [CodePoint.ofNat_toNat] at hne
    exact hne hwrite

theorem hexUnit?_append {a b c d : CodePoint} {n : Nat} (h : Json.hexUnit? [a, b, c, d] = some (n, []))
    (rest : List CodePoint) : Json.hexUnit? (a :: b :: c :: d :: rest) = some (n, rest) := by
  simp only [Json.hexUnit?, Option.bind_eq_bind, Option.bind_eq_some_iff, Option.some.injEq,
    Prod.mk.injEq, and_true] at h ⊢
  exact h

theorem stringBody_writeChar (read : List CodePoint) (fuel : Nat) (c : CodePoint)
    (rest : List CodePoint) :
    Json.stringBody read (fuel + 1) (Json.writeChar c ++ rest) =
      Json.stringBody (c :: read) fuel rest := by
  rcases writeChar_cases c with ⟨e, he, hwrite⟩ | ⟨hcontrol, hwrite⟩ |
    ⟨⟨hquote, hbackslash, -, -⟩, hwrite⟩
  · have hshort : e ≠ 'u' ∧ Json.shortEscape? e = some c := by
      unfold escapedChar? at he
      split at he <;> cases he <;> decide
    rw [hwrite, List.cons_append, List.singleton_append, Json.stringBody]
    · rw [hshort.2]
    · exact fun h => hshort.1 h
  · obtain ⟨a, b, d, e, hhex, hread⟩ := hexUnit?_hexDigits ⟨c.toNat, hcontrol⟩
    have hhigh : Json.isHighSurrogate c.toNat = false := by
      simp [Json.isHighSurrogate]
      omega
    have hescape : Json.unicodeEscape? (a :: b :: d :: e :: rest) = some (c, rest) := by
      rw [Json.unicodeEscape?, hexUnit?_append hread]
      simp [hhigh]
    rw [hwrite, hhex]
    simp only [List.cons_append, List.nil_append, Json.stringBody, hescape]
  · have hle : 0x20 ≤ c.toNat :=
      le_toNat_of_mem_writeChar (c := c) (hwrite ▸ List.mem_singleton_self c)
    rw [hwrite, List.singleton_append, Json.stringBody.eq_def]
    split <;> simp_all

theorem stringBody_written (read cs tail : List CodePoint) {fuel : Nat} (hfuel : cs.length < fuel) :
    Json.stringBody read fuel (cs.flatMap Json.writeChar ++ char '"' :: tail) =
      .ok (Text.ofList (read.reverse ++ cs), tail) := by
  induction cs generalizing read fuel with
  | nil =>
    obtain ⟨fuel, rfl⟩ := Nat.exists_eq_succ_of_ne_zero (Nat.ne_of_gt hfuel)
    rw [List.flatMap_nil, List.nil_append, List.append_nil, Json.stringBody]
  | cons c cs ih =>
    obtain ⟨fuel, rfl⟩ := Nat.exists_eq_succ_of_ne_zero (Nat.ne_of_gt (Nat.zero_lt_of_lt hfuel))
    rw [List.flatMap_cons, List.append_assoc, stringBody_writeChar,
      ih (c :: read) (Nat.lt_of_succ_lt_succ hfuel)]
    simp

theorem length_le_written (cs : List CodePoint) : cs.length ≤ (cs.flatMap Json.writeChar).length := by
  induction cs with
  | nil => exact Nat.le_refl 0
  | cons c cs ih =>
    obtain ⟨d, ds, hwrite, -⟩ := writeChar_eq_cons c
    simp only [List.flatMap_cons, List.length_append, List.length_cons, hwrite]
    omega

theorem read_stringLiteral (s : Text) : Json.read (stringLiteral s) = .ok (.string s) := by
  have hspace : Json.skipSpace (stringLiteral s).toList =
      char '"' :: (s.toList.flatMap Json.writeChar ++ [char '"']) := by
    rw [toList_stringLiteral]
    rfl
  have hfuel : s.toList.length < (s.toList.flatMap Json.writeChar ++ [char '"']).length + 1 := by
    have hle := length_le_written s.toList
    rw [List.length_append]
    omega
  have hbody := stringBody_written [] s.toList [] hfuel
  unfold Json.read
  simp only [hspace, Json.readValue, hbody]
  simp [Except.map, Json.skipSpace]

/-- An escape that stands for one and the same character in Python and in JSON. -/
structure IsSharedEscape (cs : List CodePoint) (c : CodePoint) : Prop where
  escaped : ∃ ds, cs = char '\\' :: ds
  python : unescape? cs = some [c]
  json : Json.read (Text.ofList (char '"' :: (cs ++ [char '"']))) = .ok (.string (Text.ofList [c]))

theorem writeChar_plain_or_shared (c : CodePoint) :
    (Json.writeChar c = [c] ∧ c ≠ '"' ∧ c ≠ '\\') ∨ IsSharedEscape (Json.writeChar c) c := by
  have hpython : unescape? (Json.writeChar c) = some [c] := by
    have hwritten := unescape?_written [c]
    rwa [List.flatMap_singleton] at hwritten
  have hjson : Json.read (Text.ofList (char '"' :: (Json.writeChar c ++ [char '"']))) =
      .ok (.string (Text.ofList [c])) := by
    have hread := read_stringLiteral (Text.ofList [c])
    rw [← Text.ofList_toList (stringLiteral (Text.ofList [c])), toList_stringLiteral] at hread
    simpa using hread
  rcases writeChar_cases c with ⟨e, -, hwrite⟩ | ⟨-, hwrite⟩ | ⟨⟨hquote, hbackslash, -⟩, hwrite⟩
  · exact Or.inr ⟨⟨[e], hwrite⟩, hpython, hjson⟩
  · exact Or.inr ⟨⟨_, hwrite⟩, hpython, hjson⟩
  · exact Or.inl ⟨hwrite, hquote, hbackslash⟩

/-- The texts that a line of code holds behind the character `last`: the values of its literals in
their order. A literal stands alone, behind a blank or bracket and in front of a comma, a bracket or
the end of the line. -/
inductive HoldsTexts : CodePoint → List CodePoint → List Text → Prop where
  | nil (last : CodePoint) : HoldsTexts last [] []
  | code {last c : CodePoint} {cs : List CodePoint} {ts : List Text} (hc : isCodeChar c = true)
      (h : HoldsTexts c cs ts) : HoldsTexts last (c :: cs) ts
  | literal {last : CodePoint} {cs rest : List CodePoint} {t : Text} {ts : List Text}
      (hlast : last ∈ [char ' ', char '(']) (ht : evalString? cs = some (t, rest))
      (hrest : rest.head? ∈ [none, some (char ','), some (char ')')]) (h : HoldsTexts '"' rest ts) :
      HoldsTexts last cs (t :: ts)

namespace HoldsTexts

theorem code_append {cs : List CodePoint} (hcs : ∀ d ∈ cs, isCodeChar d = true) {c : CodePoint}
    (hc : isCodeChar c = true) {ds : List CodePoint} {ts : List Text} (h : HoldsTexts c ds ts)
    (last : CodePoint) : HoldsTexts last (cs ++ c :: ds) ts := by
  induction cs generalizing last with
  | nil => exact .code hc h
  | cons d cs ih =>
    exact .code (hcs d List.mem_cons_self) (ih (fun e he => hcs e (List.mem_cons_of_mem d he)) d)

theorem of_code {cs : List CodePoint} (hcs : ∀ d ∈ cs, isCodeChar d = true) (last : CodePoint) :
    HoldsTexts last cs [] := by
  induction cs generalizing last with
  | nil => exact .nil last
  | cons d cs ih =>
    exact .code (hcs d List.mem_cons_self) (ih (fun e he => hcs e (List.mem_cons_of_mem d he)) d)

theorem stringLiteral_append {s : Text} (hs : s.isEncodable = true) {last : CodePoint}
    (hlast : last ∈ [char ' ', char '(']) {rest : List CodePoint}
    (hrest : rest.head? ∈ [none, some (char ','), some (char ')')]) {ts : List Text}
    (h : HoldsTexts '"' rest ts) : HoldsTexts last ((stringLiteral s).toList ++ rest) (s :: ts) := by
  obtain ⟨s, rfl⟩ := Text.isEncodable_iff.mp hs
  have hquote : rest.head? ≠ some (char '"') := by
    intro hhead
    rw [hhead] at hrest
    revert hrest
    decide
  exact .literal hlast (evalString?_stringLiteral s hquote) hrest h

/-- A line of code holds no other texts than these. -/
theorem unique {last : CodePoint} {cs : List CodePoint} {ts us : List Text} (hts : HoldsTexts last cs ts)
    (hus : HoldsTexts last cs us) : ts = us := by
  have hquote {c : CodePoint} (hc : isCodeChar c = true) (cs : List CodePoint) :
      evalString? (c :: cs) = none := by
    have hne : c ≠ '"' := by
      rintro rfl
      cases hc
    rw [evalString?.eq_def]
    split <;> simp_all
  induction hts generalizing us with
  | nil =>
    cases hus with
    | nil => rfl
    | literal _ ht => cases ht
  | code hc h ih =>
    cases hus with
    | code _ h' => exact ih h'
    | literal _ ht =>
      rw [hquote hc] at ht
      cases ht
  | literal hlast ht hrest h ih =>
    cases hus with
    | nil => cases ht
    | code hc =>
      rw [hquote hc] at ht
      cases ht
    | literal _ ht' _ h' =>
      obtain ⟨rfl, rfl⟩ := Prod.mk.inj (Option.some.inj (ht.symm.trans ht'))
      rw [ih h']

end HoldsTexts

/-- What a value holds of text. -/
def valueTexts : PrefValue → List Text
  | .string s => [s]
  | _ => []

/-- What a statement holds of text: the key, and a default that is one. -/
def Statement.texts : Statement → List Text
  | .returnRead _ key default => key :: valueTexts default
  | .write _ key => [key]
  | _ => []

theorem isEncodable_of_mem_texts {m : Method} (hkey : m.field.key.isEncodable = true)
    (hdefault : ∀ t, m.default = .string t → t.isEncodable = true) {st : Statement}
    (hst : st ∈ statements m) : ∀ t ∈ st.texts, t.isEncodable = true := by
  have hread : ∀ t ∈ m.field.key :: valueTexts m.default, t.isEncodable = true := by
    refine List.forall_mem_cons.mpr ⟨hkey, fun t ht => ?_⟩
    cases hvalue : m.default with
    | string u =>
      rw [hvalue, valueTexts, List.mem_singleton] at ht
      exact ht ▸ hdefault u hvalue
    | _ => simp [hvalue, valueTexts] at ht
  obtain ⟨name, access, field, default, twin⟩ := m
  cases access <;> cases twin <;>
    simp only [statements, List.mem_cons, List.not_mem_nil, or_false] at hst
  · exact hst ▸ hread
  · rcases hst with rfl | rfl <;> simp [Statement.texts]
  · rw [hst]
    exact List.forall_mem_singleton.mpr hkey
  · rcases hst with rfl | rfl <;> simp [Statement.texts]

theorem holdsTexts_default {v : PrefValue} (h : ∀ t ∈ valueTexts v, t.isEncodable = true) :
    HoldsTexts ' ' ((literal v).toList ++ [char ')']) (valueTexts v) := by
  have hclose : HoldsTexts '"' [char ')'] [] := .code (by decide) (.nil ')')
  have hplain {w : PrefValue} (hw : ∀ s, w ≠ .string s) :
      HoldsTexts ' ' ((literal w).toList ++ [char ')']) [] := by
    refine .code_append (fun d hd => ?_) (by decide) (.nil ')') ' '
    exact isCodeChar_of_isNumeralChar d (isNumeral_literal hw d hd)
  cases v with
  | string s =>
    exact .stringLiteral_append (h s (List.mem_singleton_self s)) (by decide) (by decide) hclose
  | _ => exact hplain (by simp)

theorem holdsTexts_statement {m : Method} (h : m.HasWordNames) {st : Statement}
    (hst : st ∈ statements m) (htexts : ∀ t ∈ st.texts, t.isEncodable = true) {indent : Text}
    (hindent : IsPlain isCodeChar indent) :
    HoldsTexts '\n' (indent ++ st.text).toList st.texts := by
  have hopen (head : List CodePoint) (hhead : head.all isCodeChar = true) (type : PrefType) :
      ∀ d ∈ indent.toList ++ (head ++ type.operation.toList), isCodeChar d = true := by
    simp only [List.forall_mem_append]
    exact ⟨fun d hd => hindent.mem hd, List.all_eq_true.mp hhead,
      fun d hd => (isPlain_operation type).mem hd⟩
  have hplain {s : Text} (hs : IsPlain isCodeChar s) : HoldsTexts '\n' (indent ++ s).toList [] :=
    .of_code (fun d hd => (isPlain_append.mpr ⟨hindent, hs⟩).mem hd) '\n'
  have hname {name : Text} (hst' : st = .returnAwaited name ∨ st = .await name) :
      IsPlain isCodeChar name :=
    isPlain_of_isWord isCodeChar_of_isNumeralChar (h.2 name (twin_of_mem_statements hst hst'))
  cases st with
  | returnRead type key default =>
    have hcomma : ∀ d ∈ [char ','], isCodeChar d = true := by simp only [List.forall_mem_singleton]; rfl
    have hkey : HoldsTexts '(' ((stringLiteral key).toList ++ ([char ','] ++ char ' ' ::
        ((literal default).toList ++ [char ')']))) (key :: valueTexts default) :=
      .stringLiteral_append (htexts key List.mem_cons_self) (by decide)
        (List.mem_cons_of_mem _ List.mem_cons_self)
        (.code_append hcomma (by decide)
          (holdsTexts_default fun t ht => htexts t (List.mem_cons_of_mem key ht)) '"')
    have hall := HoldsTexts.code_append (hopen Statement.getHead (by decide +kernel) type)
      (by decide) hkey '\n'
    rw [Text.toList_append, Statement.text_returnRead, Statement.texts]
    simpa only [List.append_assoc, List.cons_append, List.nil_append] using hall
  | write type key =>
    have htail : HoldsTexts '"' Statement.putTail [] :=
      .of_code (List.all_eq_true.mp (by decide +kernel)) '"'
    have hkey : HoldsTexts '(' ((stringLiteral key).toList ++ Statement.putTail) [key] :=
      .stringLiteral_append (htexts key (List.mem_singleton_self key)) (by decide)
        (by decide +kernel) htail
    have hall := HoldsTexts.code_append (hopen Statement.putHead (by decide +kernel) type)
      (by decide) hkey '\n'
    rw [Text.toList_append, Statement.text_write, Statement.texts]
    simpa only [List.append_assoc, List.cons_append, List.nil_append] using hall
  | takeLoop =>
    have hloop : IsPlain isCodeChar "loop = asyncio.get_running_loop()" :=
      isPlain_ofList (by decide)
    exact hplain hloop
  | returnAwaited getter =>
    refine hplain ?_
    unfold Statement.text
    exact isPlain_append.mpr ⟨isPlain_append.mpr ⟨isPlain_ofList (by decide), hname (Or.inl rfl)⟩,
      isPlain_ofList (by decide)⟩
  | await setter =>
    refine hplain ?_
    unfold Statement.text
    exact isPlain_append.mpr ⟨isPlain_append.mpr ⟨isPlain_ofList (by decide), hname (Or.inr rfl)⟩,
      isPlain_ofList (by decide)⟩

/-- The line of a class that names its store, and the one that opens it. -/
def storeLine (o : Options) (c : AccessorClass) : Text :=
  o.indent ++ "STORE_NAME = " ++ stringLiteral c.schema.storeName

def openLine (o : Options) : Text :=
  o.indent ++ o.indent ++ "self._store = store_provider.open_store(self.STORE_NAME)"

/-- The members of a class behind its doc string. -/
def classMembers (o : Options) (c : AccessorClass) : List Text :=
  [storeLine o c,
    "",
    o.indent ++ "def __init__" ++ signature o.typeHints c.parameters ++ ":",
    openLine o,
    o.indent ++ o.indent ++ "self._executor = executor"] ++
  c.methods.flatMap (methodLines o)

theorem holdsTexts_storeLine {o : Options} (hindent : IsPlain isCodeChar o.indent)
    {c : AccessorClass} (hstore : c.schema.storeName.isEncodable = true) :
    HoldsTexts '\n' (storeLine o c).toList [c.schema.storeName] := by
  have hopen : ∀ d ∈ o.indent.toList ++ ("STORE_NAME =" : Text).toList, isCodeChar d = true :=
    List.forall_mem_append.mpr
      ⟨fun d hd => hindent.mem hd, List.all_eq_true.mp (by decide +kernel)⟩
  have hname : HoldsTexts ' ' ((stringLiteral c.schema.storeName).toList ++ [])
      [c.schema.storeName] :=
    .stringLiteral_append hstore (by decide) (by decide) (.nil '"')
  have hall := HoldsTexts.code_append hopen (by decide) hname '\n'
  have hsplit : ("STORE_NAME = " : Text).toList = ("STORE_NAME =" : Text).toList ++ [char ' '] := by
    decide +kernel
  rw [storeLine, Text.toList_append, Text.toList_append, hsplit]
  simpa only [List.append_assoc, List.cons_append, List.nil_append, List.append_nil] using hall

/-- The doc string of a class and the empty line below it. -/
def docLines (o : Options) (c : AccessorClass) : List Text :=
  (o.indent ++ "\"\"\"") :: memberDoc o.indent c.schema ++ [o.indent ++ "\"\"\"", ""]

theorem sourceLines_eq_members (o : Options) (c : AccessorClass) :
    sourceLines o c = (.plain "\"\"\"" :: headDoc c) ++ (.plain "\"\"\"" :: codeLines o c) ++
      (if o.comments then docLines o c else []) ++ classMembers o c ++ ([""] : List Text) := by
  unfold sourceLines commentLines headDoc codeLines docLines memberDoc classMembers storeLine openLine
  simp only [List.append_assoc, List.cons_append, List.nil_append]

/-- The members of a class stand behind a line that stays, with an empty line between them or none. -/
theorem sourceLines_members (o : Options) (c : AccessorClass) :
    ∃ head last gap, head.getLast? = some last ∧ IsFull last.toList ∧ gap ∈ [[], ([""] : List Text)] ∧
      sourceLines o c = head ++ (gap ++ classMembers o c) ++ ([""] : List Text) := by
  rw [sourceLines_eq_members]
  cases o.comments with
  | false =>
    refine ⟨(.plain "\"\"\"" :: headDoc c) ++ (.plain "\"\"\"" :: codeLines o c),
      "class " ++ c.name ++ ":", [], ?_,
      full_append (by decide) _, by simp, by simp⟩
    rw [List.getLast?_append, codeLines, ← List.cons_append, List.getLast?_append]
    rfl
  | true =>
    refine ⟨(.plain "\"\"\"" :: headDoc c) ++ (.plain "\"\"\"" :: codeLines o c) ++
      ((o.indent ++ "\"\"\"") :: memberDoc o.indent c.schema ++ [o.indent ++ "\"\"\""]),
      o.indent ++ "\"\"\"", [""], ?_, full_docQuotes o.indent, by simp, by simp [docLines]⟩
    rw [List.getLast?_append, List.getLast?_concat]
    rfl

theorem isFullLine_storeLine {o : Options} (hindent : Feedless o.indent) (c : AccessorClass) :
    IsFullLine (storeLine o c) := by
  have hname : IsFullLine (stringLiteral c.schema.storeName) := by
    refine ⟨feedless_stringLiteral _, ?_⟩
    rw [toList_stringLiteral]
    exact ⟨char '"' :: c.schema.storeName.toList.flatMap Json.writeChar, char '"', rfl, by decide⟩
  exact hname.append_left (feedless_append.mpr ⟨hindent, by decide⟩)

theorem isFullLine_constructor {o : Options} (hindent : Feedless o.indent) :
    IsFullLine (o.indent ++ "def __init__" ++ signature o.typeHints parameters ++ ":") ∧
      IsFullLine (openLine o) ∧ IsFullLine (o.indent ++ o.indent ++ "self._executor = executor") := by
  have hinner : Feedless (o.indent ++ o.indent) := feedless_append.mpr ⟨hindent, hindent⟩
  have hsignature : Feedless (signature o.typeHints parameters) := by
    cases o.typeHints <;> decide +kernel
  have hopen : IsFullLine "self._store = store_provider.open_store(self.STORE_NAME)" :=
    ⟨feedless_ofList (by decide), full_ofList (by decide)⟩
  have hexecutor : IsFullLine "self._executor = executor" := ⟨by decide, by decide⟩
  refine ⟨⟨?_, full_append (by decide) _⟩, hopen.append_left hinner, hexecutor.append_left hinner⟩
  simp only [feedless_append, hindent, hsignature]
  decide

/-- Under the layout the members of a class stay as they are. -/
theorem isSettled_classMembers {o : Options} (hindent : Feedless o.indent) {c : AccessorClass}
    (hparameters : c.parameters = parameters) (hmethods : ∀ m ∈ c.methods, m.HasWordNames) :
    (∀ l ∈ classMembers o c, Feedless l) ∧
      ∀ empty, IsSettled empty ((classMembers o c).map Text.toList) ∧
        emptyAfter empty ((classMembers o c).map Text.toList) = 0 := by
  have hstore := isFullLine_storeLine hindent c
  obtain ⟨hinit, hopen, hexecutor⟩ := isFullLine_constructor hindent
  have hblock : ∀ m ∈ c.methods, ∀ l ∈ (Profile.python o.typeHints).block o.indent m,
      IsFullLine l :=
    fun m hm => (Profile.python o.typeHints).isFullLine_block hindent (hmethods m hm)
  have htexts : c.methods.flatMap (methodLines o) =
      c.methods.flatMap ((Profile.python o.typeHints).methodText o.indent) ++
        (Profile.python o.typeHints).closing := by
    rw [funext (methodLines_eq o), Profile.closing, List.append_nil]
  obtain ⟨hsettled, hempty⟩ := Generator.isSettled_methods hblock
  rw [classMembers, hparameters, htexts]
  refine ⟨?_, fun empty => ⟨?_, ?_⟩⟩
  · refine List.forall_mem_append.mpr ⟨?_, Generator.feedless_methods hblock⟩
    simp only [List.forall_mem_cons]
    exact ⟨hstore.feedless, by decide, hinit.feedless, hopen.feedless, hexecutor.feedless,
      List.forall_mem_nil _⟩
  · rw [List.map_append]
    exact Or.inr ⟨hstore.full, Or.inl ⟨rfl, by decide, Or.inr ⟨hinit.full, Or.inr ⟨hopen.full,
      Or.inr ⟨hexecutor.full, hsettled⟩⟩⟩⟩⟩
  · have hfront := emptyAfter_concat hexecutor.full empty [(storeLine o c).toList, [],
      (o.indent ++ "def __init__" ++ signature o.typeHints parameters ++ ":").toList,
      (openLine o).toList]
    rw [List.map_append, emptyAfter_append]
    exact (congrArg (emptyAfter · _) hfront).trans hempty

/-- The text of a class ends with its members, if no name or indent in it can end a line. -/
theorem lines_sourceOf_members {o : Options} (hindent : Feedless o.indent) {c : AccessorClass}
    (hparameters : c.parameters = parameters) (hmethods : ∀ m ∈ c.methods, m.HasWordNames) :
    ∃ before, ((Generator.sourceOf (sourceLines o c)).toList.splitOn (char '\n')).map Text.ofList =
      before ++ classMembers o c ++ ([""] : List Text) := by
  obtain ⟨hfeed, hsettled⟩ := isSettled_classMembers hindent hparameters hmethods
  obtain ⟨head, last, gap, hlast, hfull, hgap, hlines⟩ := sourceLines_members o c
  have hends : ∃ before, ((Generator.sourceOf (head ++ (gap ++ classMembers o c) ++
      ([""] : List Text))).toList.splitOn (char '\n')).map Text.ofList =
        before ++ (gap ++ classMembers o c) ++ ([""] : List Text) := by
    simp only [List.mem_cons, List.not_mem_nil, or_false] at hgap
    rcases hgap with rfl | rfl
    · obtain ⟨hsettled, hempty⟩ := hsettled 0
      exact Generator.lines_sourceOf_ends hlast hfull hfeed hsettled hempty
    · obtain ⟨hsettled, hempty⟩ := hsettled 1
      exact Generator.lines_sourceOf_ends hlast hfull
        (List.forall_mem_cons.mpr ⟨by decide, hfeed⟩) (Or.inl ⟨rfl, by decide, hsettled⟩) hempty
  obtain ⟨before, hbefore⟩ := hends
  refine ⟨before ++ gap, ?_⟩
  rw [hlines, hbefore]
  simp only [List.append_assoc]

theorem parameters_of_python {g : Generator} (h : g.target = .python) {ps : List Parameter}
    (hps : g.parameters = .ok ps) : ps = parameters := by
  cases hprofile : g.profile with
  | python typeHints =>
    rw [Generator.parameters, hprofile] at hps
    exact (Except.ok.inj hps).symm
  | kotlin context dispatcher =>
    rw [Generator.target, hprofile] at h
    cases h

/-- Each field has a method that consists of a read and one that consists of a write. -/
theorem exists_statements {g : Generator} {fs : List Field} {ms : List Method}
    (h : g.methods fs = .ok ms) {f : Field} (hf : f ∈ fs) :
    ∃ v, f.defaultValue = .ok v ∧
      (∃ m ∈ ms, m.field = f ∧ statements m = [.returnRead f.type f.key v]) ∧
        ∃ m ∈ ms, m.field = f ∧ statements m = [.write f.type f.key] := by
  have htwin {m : Method} (hsync : m.isAsync = false) : m.twin = none := by
    rw [Method.isAsync, Option.isSome_eq_false_iff, Option.isNone_iff_eq_none] at hsync
    exact hsync
  have hblocking : false = true → f.isAsync = true := fun hx => absurd hx Bool.false_ne_true
  obtain ⟨getter, hgetter, rfl, hget, hgetSync⟩ := g.exists_method h hf .get hblocking
  obtain ⟨setter, hsetter, hfield, hset, hsetSync⟩ := g.exists_method h hf .set hblocking
  obtain ⟨-, hdefault, -⟩ := g.mem_methods h hgetter
  refine ⟨getter.default, hdefault, ⟨getter, hgetter, rfl, ?_⟩, setter, hsetter, hfield, ?_⟩
  · rw [statements, hget, htwin hgetSync]
  · rw [statements, hset, htwin hsetSync, hfield]

/-- A generated text ends with the members of its class. -/
theorem source_ends_with_members {g : Generator} {s : Schema} {a : Artifact}
    (htarget : g.target = .python) (ha : g.generate s = .ok a) :
    ∃ o before, g.indent = .ok o.indent ∧
      (a.source.toList.splitOn (char '\n')).map Text.ofList =
        before ++ classMembers o a.accessorClass ++ ([""] : List Text) := by
  obtain ⟨hc, -⟩ := Generator.generate_eq_ok ha
  obtain ⟨hps, hms, -⟩ := Generator.accessorClass_eq_ok.mp hc
  obtain ⟨indent, package, lines, hindent, -, hlines, hsource, -⟩ := Generator.generate_text ha
  obtain ⟨typeHints, rfl⟩ := sourceLines_of_python htarget hlines
  obtain ⟨before, hbefore⟩ := lines_sourceOf_members
    (o := ⟨typeHints, g.settings.addComments.isSet, indent⟩) (Settings.feedless_indent hindent)
    (parameters_of_python htarget hps) fun m hm => Generator.hasWordNames hms hm
  rw [hsource]
  exact ⟨_, before, hindent, hbefore⟩

/-- What is written for a text is one literal on one line, which Python evaluates to the text, in
which each character stands for itself or is escaped as in JSON. So the name of the store, the keys
and the defaults of a schema stand in the members of the generated class, unchanged. -/
theorem stringLiteral_evaluates :
    (∀ s : String,
      (stringLiteral s).toList =
        char '"' :: ((s.toList.map char).flatMap Json.writeChar ++ [char '"']) ∧
      (∀ ch ∈ (stringLiteral s).toList, 0x20 ≤ ch.toNat) ∧
      (∀ tail : List CodePoint, tail.head? ≠ some (char '"') →
        evalString? ((stringLiteral s).toList ++ tail) = some (.plain s, tail)) ∧
      Json.read (stringLiteral s) = .ok (.string s)) ∧
    (∀ c : Char, (Json.writeChar c = [char c] ∧ c ≠ '"' ∧ c ≠ '\\') ∨
      IsSharedEscape (Json.writeChar c) c) ∧
    ∀ (g : Generator) (s : Schema) (a : Artifact), g.target = .python → s.HasEncodableTexts →
      g.generate s = .ok a →
      ∃ o before, g.indent = .ok o.indent ∧ a.accessorClass.schema = s ∧
        (a.source.toList.splitOn (char '\n')).map Text.ofList =
          before ++ classMembers o a.accessorClass ++ ([""] : List Text) ∧
        HoldsTexts '\n' (storeLine o a.accessorClass).toList [s.storeName] ∧
        (∀ m ∈ a.accessorClass.methods, ∀ st ∈ statements m,
          HoldsTexts '\n' (o.indent ++ o.indent ++ st.text).toList st.texts) ∧
        ∀ f ∈ s.fields, ∃ v, f.defaultValue = .ok v ∧
          (f.type = .string → ∀ d, f.default = some d → v = .string d) ∧
          (∃ m ∈ a.accessorClass.methods, m.field = f ∧
            statements m = [.returnRead f.type f.key v]) ∧
          ∃ m ∈ a.accessorClass.methods, m.field = f ∧ statements m = [.write f.type f.key] := by
  refine ⟨?_, ?_, ?_⟩
  · intro s
    refine ⟨toList_stringLiteral s, ?_, fun tail htail => evalString?_stringLiteral s htail,
      read_stringLiteral s⟩
    intro ch hch
    rw [toList_stringLiteral, List.mem_cons, List.mem_append, List.mem_singleton] at hch
    rcases hch with rfl | hch | rfl
    · decide
    · obtain ⟨c, -, hch⟩ := List.mem_flatMap.mp hch
      exact le_toNat_of_mem_writeChar hch
    · decide
  · intro c
    simpa using writeChar_plain_or_shared c
  · intro g s a htarget hencodable ha
    obtain ⟨hc, -⟩ := Generator.generate_eq_ok ha
    obtain ⟨-, hms, hschema, -⟩ := Generator.accessorClass_eq_ok.mp hc
    obtain ⟨o, before, hindent, hlines⟩ := source_ends_with_members htarget ha
    have hblank : IsPlain isCodeChar o.indent := by
      intro c hc
      rw [Settings.eq_of_mem_indent hindent c hc]
      decide
    refine ⟨o, before, hindent, hschema, hlines, ?_, ?_, ?_⟩
    · rw [← hschema]
      exact holdsTexts_storeLine hblank (hschema ▸ hencodable.store)
    · intro m hm st hst
      obtain ⟨hfield, hdefault, -⟩ := Generator.mem_methods hms hm
      refine holdsTexts_statement (Generator.hasWordNames hms hm) hst
        (isEncodable_of_mem_texts (hencodable.keys m.field hfield) ?_ hst)
        (isPlain_append.mpr ⟨hblank, hblank⟩)
      intro t ht
      exact hencodable.defaults m.field hfield t (ht ▸ hdefault)
    · intro f hf
      obtain ⟨v, hv, hread, hwrite⟩ := exists_statements hms hf
      refine ⟨v, hv, ?_, hread, hwrite⟩
      intro htype d hd
      rw [Field.defaultValue, htype, hd] at hv
      exact (Except.ok.inj hv).symm

/-- A field whose key and default would end a literal or be read as an escape. -/
def escapedField : Field where
  name := "user"
  key := "k\", 0) # \u2028"
  type := .string
  default := some "\t\\n\""
  isAsync := true

def escapedSchema : Schema where
  name := "Log"
  package := "app"
  storeName := "a\"\n$b\\\x07"
  fields := [escapedField]
  description := none

theorem escapedField_texts :
    [char ')'].head? ≠ some (char '"') ∧
      evalString? ((stringLiteral "\t\\n\"").toList ++ [char ')']) =
        some (.plain "\t\\n\"", [char ')']) ∧
        Generator.standard.target = .python ∧ escapedSchema.HasEncodableTexts ∧
        escapedField ∈ escapedSchema.fields ∧
          ∃ a o before, Generator.standard.generate escapedSchema = .ok a ∧
            (a.source.toList.splitOn (char '\n')).map Text.ofList =
              before ++ classMembers o a.accessorClass ++ ([""] : List Text) ∧
            ∃ m ∈ a.accessorClass.methods,
              statements m = [.returnRead .string escapedField.key (.string "\t\\n\"")] ∧
              ∀ st ∈ statements m, HoldsTexts '\n' (o.indent ++ o.indent ++ st.text).toList
                [escapedField.key, "\t\\n\""] := by
  have htail : [char ')'].head? ≠ some (char '"') := by decide
  have htarget : Generator.standard.target = .python := rfl
  have hfield : escapedField ∈ escapedSchema.fields := List.mem_singleton_self _
  have hencodable : escapedSchema.HasEncodableTexts := by decide +kernel
  have hindent : Generator.standard.indent = .ok "    " := by decide
  obtain ⟨ms, hms⟩ : ∃ ms, Generator.standard.methods escapedSchema.fields = .ok ms := by
    refine Generator.methods_ok_iff.mpr fun f hf => ?_
    rw [List.mem_singleton.mp hf]
    exact ⟨_, rfl⟩
  obtain ⟨a, ha⟩ := Generator.standard_wellTyped.exists_artifact rfl hindent hms
  obtain ⟨hliteral, -, hmade⟩ := stringLiteral_evaluates
  obtain ⟨-, -, heval, -⟩ := hliteral "\t\\n\""
  obtain ⟨o, before, -, -, hlines, -, htexts, hfields⟩ :=
    hmade Generator.standard escapedSchema a htarget hencodable ha
  obtain ⟨v, -, hstring, ⟨m, hm, -, hread⟩, -⟩ := hfields escapedField hfield
  have hdefault : v = .string "\t\\n\"" := hstring rfl _ rfl
  rw [hdefault] at hread
  refine ⟨htail, heval [char ')'] htail, htarget, hencodable, hfield, a, o, before, ha, hlines, m, hm,
    hread, ?_⟩
  intro st hst
  have hholds := htexts m hm st hst
  rw [hread] at hst
  rw [List.mem_singleton.mp hst] at hholds ⊢
  exact hholds

end PrefAccessor.Python
