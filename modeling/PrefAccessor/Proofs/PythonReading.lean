import Mathlib.Data.Bool.AllAny
import PrefAccessor.Proofs.CodeReading

/-!
# Reading Python

The lexical rules of Python as far as they tell literals, doc strings and comments from the rest: a
literal stands between double quotes on one line, a doc string between three of them, and a
backslash takes the next character along. A text with any other form of literal has no reading.
-/

namespace PrefAccessor.Python

set_option autoImplicit false

open Reading Text

inductive Mode where
  /-- In code, and whether a word ends here: a quote behind a word would belong to it. -/
  | code (afterWord : Bool)
  | quote
  | twoQuotes
  | short
  | shortEscape
  /-- In a doc string, behind so many quotes. -/
  | long (quotes : Nat)
  | longEscape
  | comment
  | lost
  deriving DecidableEq, Repr

def isWordLike (c : CodePoint) : Bool :=
  Naming.isWordChar c || decide (0x80 ≤ c.toNat)

def codeStep (afterWord : Bool) (c : CodePoint) : Mode × List Piece :=
  if c = '"' then (if afterWord then .lost else .quote, [])
  else if c = '#' then (.comment, [])
  else if c = '\'' ∨ c = '\\' then (.lost, [])
  else (.code (isWordLike c), [.code c])

def shortStep (c : CodePoint) : Mode × List Piece :=
  if c = '"' then (.code false, [.literal])
  else if c = '\\' then (.shortEscape, [])
  else if c = '\n' ∨ c = '\r' then (.lost, [])
  else (.short, [])

def step : Mode → CodePoint → Mode × List Piece
  | .code afterWord, c => codeStep afterWord c
  | .quote, c => if c = '"' then (.twoQuotes, []) else shortStep c
  -- two quotes are an empty literal unless a third one follows
  | .twoQuotes, c =>
    if c = '"' then (.long 0, []) else ((codeStep false c).1, .literal :: (codeStep false c).2)
  | .short, c => shortStep c
  | .shortEscape, _ => (.short, [])
  | .long quotes, c =>
    if c = '"' then if quotes = 2 then (.code false, [.literal]) else (.long (quotes + 1), [])
    else if c = '\\' then (.longEscape, [])
    else (.long 0, [])
  | .longEscape, _ => (.long 0, [])
  | .comment, c =>
    if c = '\n' ∨ c = '\r' then (.code false, [.comment, .code c]) else (.comment, [])
  | .lost, _ => (.lost, [])

/-- What a text is read as, if it ends in code. -/
def readCode? (s : Text) : Option (List Piece) :=
  match run step (.code false) s.toList with
  | (.code _, ps) => some ps
  | _ => none

/-- A character that stands for itself in code. -/
def isCodeChar (c : CodePoint) : Bool :=
  c != '"' && c != '#' && c != '\'' && c != '\\'

theorem codeStep_plain {c : CodePoint} (h : isCodeChar c = true) (afterWord : Bool) :
    codeStep afterWord c = (.code (isWordLike c), [.code c]) := by
  simp only [isCodeChar, Bool.and_eq_true, bne_iff_ne, ne_eq] at h
  simp [codeStep, h]

/-- Whether a word ends where a text ends. -/
def endsWord (afterWord : Bool) : List CodePoint → Bool
  | [] => afterWord
  | c :: cs => endsWord (isWordLike c) cs

theorem reads_plain {cs : List CodePoint} (h : ∀ c ∈ cs, isCodeChar c = true) (afterWord : Bool) :
    Reads step (.code afterWord) cs (.code (endsWord afterWord cs)) (cs.map .code) := by
  induction cs generalizing afterWord with
  | nil => rfl
  | cons c cs ih =>
    have hc : step (.code afterWord) c = (.code (isWordLike c), [.code c]) :=
      codeStep_plain (h c List.mem_cons_self) afterWord
    exact Reads.cons hc (ih (fun d hd => h d (List.mem_cons_of_mem c hd)) (isWordLike c))

theorem isCodeChar_of_isNumeralChar (c : CodePoint) (h : Number.isNumeralChar c = true) :
    isCodeChar c = true := by
  have hspecial : ∀ d ∈ [char '"', char '#', char '\'', char '\\'], Number.isNumeralChar d = false :=
    List.all_iff_forall_prop.mp (by decide)
  have hne {d : CodePoint} (hd : d ∈ [char '"', char '#', char '\'', char '\\']) : c ≠ d := by
    rintro rfl
    rw [hspecial c hd] at h
    cases h
  simp [isCodeChar, hne]

theorem reads_code {s : Text} (h : IsPlain isCodeChar s) (afterWord : Bool) :
    Reads step (.code afterWord) s.toList (.code (endsWord afterWord s.toList)) (code s) :=
  reads_plain (fun _ hc => h.mem hc) afterWord

/-- A line of code up to its end. -/
theorem reads_codeLine {s : Text} (h : IsPlain isCodeChar s) (afterWord : Bool) :
    Reads step (.code afterWord) (s.toList ++ [char '\n']) (.code false) (code s ++ [.code '\n']) :=
  (reads_code h afterWord).append (Reads.single (codeStep_plain (c := '\n') (by decide) _))

theorem reads_short (cs : List CodePoint) :
    Reads step .short (cs.flatMap Json.writeChar ++ [char '"']) (.code false) [.literal] := by
  induction cs with
  | nil => rfl
  | cons c cs ih =>
    rw [List.flatMap_cons, List.append_assoc]
    have hchar : Reads step .short (Json.writeChar c) .short [] := by
      rcases writeChar_cases c with ⟨e, he, hwrite⟩ | ⟨hcontrol, hwrite⟩ |
        ⟨⟨hquote, hbackslash, hfeed, hreturn⟩, hwrite⟩
      · rw [hwrite]
        rfl
      · have hdigits : ∀ n : Fin 0x20, run step .short (char '\\' :: char 'u' :: hexDigits 4 n) =
            (.short, []) := by decide +kernel
        rw [hwrite]
        exact hdigits ⟨c.toNat, hcontrol⟩
      · rw [hwrite]
        refine Reads.single ?_
        simp [step, shortStep, hquote, hbackslash, hfeed, hreturn]
    exact hchar.append ih

theorem writeChar_eq_cons (c : CodePoint) : ∃ d ds, Json.writeChar c = d :: ds ∧ d ≠ '"' := by
  rcases writeChar_cases c with ⟨e, -, hwrite⟩ | ⟨-, hwrite⟩ | ⟨⟨hquote, -⟩, hwrite⟩
  · exact ⟨'\\', [e], hwrite, by decide⟩
  · exact ⟨'\\', _, hwrite, by decide⟩
  · exact ⟨c, [], hwrite, hquote⟩

/-- A string literal is one piece, whatever it holds. Only what follows tells it from the beginning
of a doc string. -/
theorem reads_stringLiteral (s : Text) {c : CodePoint} (hc : isCodeChar c = true) :
    Reads step (.code false) ((stringLiteral s).toList ++ [c]) (.code (isWordLike c))
      [.literal, .code c] := by
  rw [toList_stringLiteral]
  cases hs : s.toList with
  | nil =>
    have hquote : c ≠ '"' := by
      rintro rfl
      cases hc
    have hempty : Reads step (.code false) [char '"', char '"'] .twoQuotes [] := rfl
    have hnext : step .twoQuotes c = (.code (isWordLike c), [.literal, .code c]) := by
      simp [step, hquote, codeStep_plain hc]
    exact hempty.append (Reads.single hnext)
  | cons d ds =>
    obtain ⟨e, es, hwrite, he⟩ := writeChar_eq_cons d
    have hshort := reads_short (d :: ds)
    rw [List.flatMap_cons, hwrite, List.cons_append, List.cons_append] at hshort ⊢
    have hfirst : step .quote e = step .short e := by
      simp [step, he]
    have hquoted : Reads step .quote (e :: (es ++ ds.flatMap Json.writeChar ++ [char '"'])) (.code false)
        [.literal] := by
      unfold Reads at hshort ⊢
      rw [run] at hshort ⊢
      rwa [hfirst]
    have hopen : Reads step (.code false) [char '"'] .quote [] := rfl
    exact (hopen.append hquoted).append (Reads.single (codeStep_plain hc false))

/-- How many quotes stand together where a part of a doc string ends, if no three do and no blank
stands behind a backslash; `quotes` of them precede the part. -/
def quotesAfter? (quotes : Nat) : List CodePoint → Option Nat
  | [] => some quotes
  | c :: cs =>
    if c = '"' then if quotes < 2 then quotesAfter? (quotes + 1) cs else none
    else if c = '\\' then
      match cs with
      | [] => none
      | d :: ds => if isBlank d then none else quotesAfter? 0 ds
    else quotesAfter? 0 cs

theorem quotesAfter?_quote (n : Nat) (cs : List CodePoint) :
    quotesAfter? n (char '"' :: cs) = if n < 2 then quotesAfter? (n + 1) cs else none := by
  rw [quotesAfter?.eq_def]
  rfl

theorem quotesAfter?_escape (n : Nat) (d : CodePoint) (ds : List CodePoint) :
    quotesAfter? n (char '\\' :: d :: ds) = if isBlank d then none else quotesAfter? 0 ds := by
  rw [quotesAfter?.eq_def]
  rfl

theorem quotesAfter?_plain {c : CodePoint} (hquote : c ≠ '"') (hbackslash : c ≠ '\\') (n : Nat)
    (cs : List CodePoint) : quotesAfter? n (c :: cs) = quotesAfter? 0 cs := by
  rw [quotesAfter?.eq_def]
  simp [hquote, hbackslash]

theorem reads_doc {n m : Nat} {cs : List CodePoint} (h : quotesAfter? n cs = some m) :
    Reads step (.long n) cs (.long m) [] := by
  fun_induction quotesAfter? n cs with
  | case1 n =>
    cases h
    rfl
  | case2 n cs hn ih =>
    have hquote : step (.long n) '"' = (.long (n + 1), []) := by
      have hne : n ≠ 2 := by omega
      simp [step, hne]
    exact Reads.cons hquote (ih h)
  | case3 n cs hn => cases h
  | case4 n => cases h
  | case5 n d ds hblank => cases h
  | case6 n d ds hblank _ ih =>
    have hescape : Reads step (.long n) [char '\\', d] (.long 0) [] := rfl
    exact hescape.append (ih h)
  | case7 n c cs hquote hbackslash ih =>
    have hplain : step (.long n) c = (.long 0, []) := by
      simp [step, hquote, hbackslash]
    exact Reads.cons hplain (ih h)

theorem quotesAfter?_append {n m : Nat} {cs : List CodePoint} (ds : List CodePoint)
    (h : quotesAfter? n cs = some m) : quotesAfter? n (cs ++ ds) = quotesAfter? m ds := by
  fun_induction quotesAfter? n cs with
  | case1 n =>
    cases h
    rfl
  | case2 n cs hn ih => rw [List.cons_append, quotesAfter?_quote, if_pos hn, ih h]
  | case3 n cs hn => cases h
  | case4 n => cases h
  | case5 n d es hblank => cases h
  | case6 n d es hblank _ ih =>
    rw [List.cons_append, List.cons_append, quotesAfter?_escape, if_neg hblank, ih h]
  | case7 n c cs hquote hbackslash ih =>
    rw [List.cons_append, quotesAfter?_plain hquote hbackslash, ih h]

/-- A part of a doc string may end in front of a blank. -/
theorem quotesAfter?_of_append {n m : Nat} {cs ds : List CodePoint}
    (h : quotesAfter? n (cs ++ ds) = some m) (hblank : ∀ c ∈ ds.head?, isBlank c = true) :
    ∃ k, quotesAfter? n cs = some k ∧ quotesAfter? k ds = some m := by
  fun_induction quotesAfter? n cs with
  | case1 n => exact ⟨n, rfl, h⟩
  | case2 n cs hn ih =>
    rw [List.cons_append, quotesAfter?_quote, if_pos hn] at h
    exact ih h
  | case3 n cs hn =>
    rw [List.cons_append, quotesAfter?_quote, if_neg hn] at h
    cases h
  | case4 n =>
    cases ds with
    | nil => cases h
    | cons d ds =>
      rw [List.singleton_append, quotesAfter?_escape, if_pos (hblank d rfl)] at h
      cases h
  | case5 n d es hd =>
    rw [List.cons_append, List.cons_append, quotesAfter?_escape, if_pos hd] at h
    cases h
  | case6 n d es hd _ ih =>
    rw [List.cons_append, List.cons_append, quotesAfter?_escape, if_neg hd] at h
    exact ih h
  | case7 n c cs hquote hbackslash ih =>
    rw [List.cons_append, quotesAfter?_plain hquote hbackslash] at h
    exact ih h

/-- A text that can stand on lines of a doc string. -/
def IsDoc (cs : List CodePoint) : Prop :=
  ∃ n, quotesAfter? 0 cs = some n

theorem isDoc_of_mem_splitOn {cs : List CodePoint} (h : IsDoc cs) :
    ∀ l ∈ cs.splitOn (char '\n'), IsDoc l := by
  have hpieces (ps : List (List CodePoint)) (hps : IsDoc ([char '\n'].intercalate ps)) :
      ∀ l ∈ ps, IsDoc l := by
    induction ps with
    | nil => simp
    | cons l ps ih =>
      obtain ⟨n, hn⟩ := hps
      cases ps with
      | nil =>
        rw [List.intercalate_singleton] at hn
        exact fun k hk => List.mem_singleton.mp hk ▸ ⟨n, hn⟩
      | cons k ps =>
        rw [List.intercalate_cons_cons, List.append_assoc] at hn
        have hfeed :
            ∀ c ∈ ([char '\n'] ++ [char '\n'].intercalate (k :: ps)).head?, isBlank c = true := by
          rintro c ⟨⟩
          decide
        obtain ⟨m, hl, hrest⟩ := quotesAfter?_of_append hn hfeed
        rw [List.singleton_append, quotesAfter?_plain (by decide) (by decide)] at hrest
        intro j hj
        rcases List.mem_cons.mp hj with rfl | hj
        · exact ⟨m, hl⟩
        · exact ih ⟨n, hrest⟩ j hj
  refine hpieces _ ?_
  rwa [List.intercalate_splitOn]

theorem IsDoc.trimEnd {cs : List CodePoint} (h : IsDoc cs) : IsDoc (Text.trimEnd cs) := by
  obtain ⟨blanks, heq, hblanks⟩ := exists_trimEnd_append cs
  obtain ⟨n, hn⟩ := h
  rw [heq] at hn
  obtain ⟨m, hm, -⟩ := quotesAfter?_of_append hn fun c hc => hblanks c (List.mem_of_head? hc)
  exact ⟨m, hm⟩

/-- What the layout makes of lines of a doc string are lines of a doc string. -/
theorem isDoc_settleLines {ls : List (List CodePoint)} (h : ∀ l ∈ ls, IsDoc l) (empty : Nat) :
    ∀ l ∈ settleLines empty (ls.flatMap fun l => l.splitOn (char '\n')), IsDoc l := by
  intro l hl
  rcases mem_settleLines hl with rfl | ⟨k, hk, rfl⟩
  · exact ⟨0, rfl⟩
  · obtain ⟨piece, hpiece, hk⟩ := List.mem_flatMap.mp hk
    exact (isDoc_of_mem_splitOn (h piece hpiece) k hk).trimEnd

/-- Lines of a doc string stay in it whatever the layout does to them. -/
theorem readsLines_doc {ls : List (List CodePoint)} (h : ∀ l ∈ ls, IsDoc l) (empty : Nat) :
    ReadsLines step (.long 0) (settleLines empty (ls.flatMap fun l => l.splitOn (char '\n'))) (.long 0)
      [] := by
  refine ReadsLines.skip fun l hl => ?_
  obtain ⟨n, hn⟩ := isDoc_settleLines h empty l hl
  exact (reads_doc hn).append (Reads.single rfl)

theorem quotesAfter?_of_plain {cs : List CodePoint} (h : ∀ c ∈ cs, c ≠ '"' ∧ c ≠ '\\') :
    quotesAfter? 0 cs = some 0 := by
  induction cs with
  | nil => rfl
  | cons c cs ih =>
    obtain ⟨hquote, hbackslash⟩ := h c List.mem_cons_self
    rw [quotesAfter?_plain hquote hbackslash]
    exact ih fun d hd => h d (List.mem_cons_of_mem c hd)

theorem mem_toDigits_sixteen {n : Nat} {c : Char} (h : c ∈ Nat.toDigits 16 n) :
    ∃ k : Fin 16, c = Nat.digitChar k := by
  induction n using Nat.strongRecOn with
  | ind n ih =>
    rw [Nat.toDigits_eq_if (by decide)] at h
    split at h
    · rename_i hlt
      exact ⟨⟨n, hlt⟩, List.mem_singleton.mp h⟩
    · rcases List.mem_append.mp h with h | h
      · exact ih (n / 16) (by omega) h
      · exact ⟨⟨n % 16, by omega⟩, List.mem_singleton.mp h⟩

theorem mem_hexDigits {width n : Nat} {c : CodePoint} (h : c ∈ hexDigits width n) :
    ∃ k : Fin 16, c = char (Nat.digitChar k) := by
  rcases List.mem_append.mp h with h | h
  · exact ⟨0, List.eq_of_mem_replicate h⟩
  · obtain ⟨d, hd, rfl⟩ := List.mem_map.mp h
    obtain ⟨k, rfl⟩ := mem_toDigits_sixteen hd
    exact ⟨k, rfl⟩

theorem not_special_of_mem_hexDigits {width n : Nat} {c : CodePoint} (h : c ∈ hexDigits width n) :
    c ≠ '"' ∧ c ≠ '\\' := by
  have hdigit : ∀ k : Fin 16,
      char (Nat.digitChar k) ≠ char '"' ∧ char (Nat.digitChar k) ≠ char '\\' := by decide
  obtain ⟨k, rfl⟩ := mem_hexDigits h
  exact hdigit k

theorem quotesAfter?_hexDigits (width n : Nat) : quotesAfter? 0 (hexDigits width n) = some 0 :=
  quotesAfter?_of_plain fun _ hc => not_special_of_mem_hexDigits hc

theorem quotesAfter?_controlEscape (n : Nat) (c : CodePoint) :
    quotesAfter? n (controlEscape c) = some 0 := by
  have hescape (d : CodePoint) (hd : isBlank d = false) (cs : List CodePoint) :
      quotesAfter? n (char '\\' :: d :: cs) = quotesAfter? 0 cs := by
    rw [quotesAfter?_escape, if_neg (by simp [hd])]
  unfold controlEscape codeEscape
  split
  · rfl
  · split
    · rfl
    · split
      · rfl
      · split
        · rw [hescape 'x' (by decide), quotesAfter?_hexDigits]
        · split
          · rw [hescape 'u' (by decide), quotesAfter?_hexDigits]
          · rw [hescape 'U' (by decide), quotesAfter?_hexDigits]

theorem quotesAfter?_docChar (n : Nat) (c : CodePoint) : quotesAfter? n (docChar c) = some 0 := by
  unfold docChar
  split
  · rename_i hspecial
    rcases hspecial with rfl | rfl <;> rfl
  · rename_i hspecial
    split
    · rw [quotesAfter?_plain (fun h => hspecial (Or.inr h)) fun h => hspecial (Or.inl h)]
      rfl
    · exact quotesAfter?_controlEscape n c

/-- A text of the schema adds no quote to those that precede it. -/
theorem quotesAfter?_docText (n : Nat) (s : Text) :
    ∃ m ≤ n, quotesAfter? n (docText s).toList = some m := by
  rw [docText, Text.toList_ofList]
  induction s.toList generalizing n with
  | nil => exact ⟨n, Nat.le_refl n, rfl⟩
  | cons c cs ih =>
    obtain ⟨m, hm, hrest⟩ := ih 0
    refine ⟨m, by omega, ?_⟩
    rw [List.flatMap_cons, quotesAfter?_append _ (quotesAfter?_docChar n c), hrest]

end PrefAccessor.Python
