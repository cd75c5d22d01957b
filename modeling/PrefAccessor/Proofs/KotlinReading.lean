import Mathlib.Data.Bool.AllAny
import Mathlib.Data.List.Chain
import PrefAccessor.Proofs.CodeReading

/-!
# Reading Kotlin

The lexical rules of Kotlin as far as they tell literals and comments from the rest: a literal
stands between double quotes on one line, comments end with their line or stand between stars, one
inside the other, and a name between backticks is code. A text with any other form of literal has no
reading, and neither has one with a template in a literal.
-/

namespace PrefAccessor.Kotlin

set_option autoImplicit false

open Reading Text

inductive Mode where
  | code
  /-- In code, behind a slash that may begin a comment. -/
  | slash
  | lineComment
  /-- In a comment that stands in so many others. -/
  | block (depth : Nat)
  | blockStar (depth : Nat)
  | blockSlash (depth : Nat)
  | quote
  | twoQuotes
  | string
  | stringEscape
  | backticks
  | lost
  deriving DecidableEq, Repr

def codeStep (c : CodePoint) : Mode × List Piece :=
  if c = '"' then (.quote, [])
  else if c = '/' then (.slash, [])
  else if c = '`' then (.backticks, [.code c])
  else if c = '\'' ∨ c = '#' then (.lost, [])
  else (.code, [.code c])

def stringStep (c : CodePoint) : Mode × List Piece :=
  if c = '"' then (.code, [.literal])
  else if c = '\\' then (.stringEscape, [])
  else if c = '$' ∨ c = '\n' ∨ c = '\r' then (.lost, [])
  else (.string, [])

def blockStep (depth : Nat) (c : CodePoint) : Mode × List Piece :=
  if c = '*' then (.blockStar depth, [])
  else if c = '/' then (.blockSlash depth, [])
  else (.block depth, [])

def step : Mode → CodePoint → Mode × List Piece
  | .code, c => codeStep c
  | .slash, c =>
    if c = '/' then (.lineComment, [])
    else if c = '*' then (.block 0, [])
    else ((codeStep c).1, .code (char '/') :: (codeStep c).2)
  | .lineComment, c =>
    if c = '\n' ∨ c = '\r' then (.code, [.comment, .code c]) else (.lineComment, [])
  | .block depth, c => blockStep depth c
  | .blockStar depth, c =>
    if c = '/' then
      match depth with
      | 0 => (.code, [.comment])
      | depth + 1 => (.block depth, [])
    else blockStep depth c
  | .blockSlash depth, c => if c = '*' then (.block (depth + 1), []) else blockStep depth c
  | .quote, c => if c = '"' then (.twoQuotes, []) else stringStep c
  -- two quotes are an empty literal unless a third one follows
  | .twoQuotes, c => if c = '"' then (.lost, []) else ((codeStep c).1, .literal :: (codeStep c).2)
  | .string, c => stringStep c
  | .stringEscape, c => if c = '\n' ∨ c = '\r' then (.lost, []) else (.string, [])
  | .backticks, c =>
    if c = '`' then (.code, [.code c])
    else if c = '\n' ∨ c = '\r' then (.lost, [])
    else (.backticks, [.code c])
  | .lost, _ => (.lost, [])

/-- What a text is read as, if it ends in code. -/
def readCode? (s : Text) : Option (List Piece) :=
  match run step .code s.toList with
  | (.code, ps) => some ps
  | _ => none

/-- A character that stands for itself in code. -/
def isCodeChar (c : CodePoint) : Bool :=
  c != '"' && c != '/' && c != '`' && c != '\'' && c != '#'

theorem codeStep_plain {c : CodePoint} (h : isCodeChar c = true) : codeStep c = (.code, [.code c]) := by
  simp only [isCodeChar, Bool.and_eq_true, bne_iff_ne, ne_eq] at h
  simp [codeStep, h]

theorem reads_plain {cs : List CodePoint} (h : ∀ c ∈ cs, isCodeChar c = true) :
    Reads step .code cs .code (cs.map .code) := by
  induction cs with
  | nil => rfl
  | cons c cs ih =>
    have hc : step .code c = (.code, [.code c]) := codeStep_plain (h c List.mem_cons_self)
    exact Reads.cons hc (ih fun d hd => h d (List.mem_cons_of_mem c hd))

theorem isCodeChar_of_isNumeralChar (c : CodePoint) (h : Number.isNumeralChar c = true) :
    isCodeChar c = true := by
  have hspecial : ∀ d ∈ [char '"', char '/', char '`', char '\'', char '#'],
      Number.isNumeralChar d = false :=
    List.all_iff_forall_prop.mp (by decide)
  have hne {d : CodePoint} (hd : d ∈ [char '"', char '/', char '`', char '\'', char '#']) : c ≠ d := by
    rintro rfl
    rw [hspecial c hd] at h
    cases h
  simp [isCodeChar, hne]

theorem reads_code {s : Text} (h : IsPlain isCodeChar s) :
    Reads step .code s.toList .code (code s) :=
  reads_plain fun _ hc => h.mem hc

/-- A line of code up to its end. -/
theorem reads_codeLine {s : Text} (h : IsPlain isCodeChar s) :
    Reads step .code (s.toList ++ [char '\n']) .code (code s ++ [.code '\n']) :=
  (reads_code h).append rfl

theorem reads_string (cs : List CodePoint) :
    Reads step .string (cs.flatMap stringChar ++ [char '"']) .code [.literal] := by
  induction cs with
  | nil => rfl
  | cons c cs ih =>
    rw [List.flatMap_cons, List.append_assoc]
    have hchar : Reads step .string (stringChar c) .string [] := by
      rcases stringChar_cases c with ⟨e, he, hwrite⟩ |
        ⟨⟨hquote, hbackslash, hdollar, hfeed, hreturn⟩, hwrite⟩
      · have hescape : ∀ e ∈ [char '\\', char '"', char '$', char 'n', char 'r', char 't'],
            run step .string [char '\\', e] = (.string, []) := List.all_iff_forall_prop.mp (by decide)
        rw [hwrite]
        exact hescape e he
      · rw [hwrite]
        refine Reads.single ?_
        simp [step, stringStep, hquote, hbackslash, hdollar, hfeed, hreturn]
    exact hchar.append ih

theorem stringChar_eq_cons (c : CodePoint) : ∃ d ds, stringChar c = d :: ds ∧ d ≠ '"' := by
  rcases stringChar_cases c with ⟨e, -, hwrite⟩ | ⟨⟨hquote, -⟩, hwrite⟩
  · exact ⟨'\\', [e], hwrite, by decide⟩
  · exact ⟨c, [], hwrite, hquote⟩

/-- A string literal is one piece, whatever it holds. -/
theorem reads_stringLiteral (s : Text) {c : CodePoint} (hc : isCodeChar c = true) :
    Reads step .code ((stringLiteral s).toList ++ [c]) .code [.literal, .code c] := by
  rw [toList_stringLiteral]
  cases hs : s.toList with
  | nil =>
    have hquote : c ≠ '"' := by
      rintro rfl
      cases hc
    have hempty : Reads step .code [char '"', char '"'] .twoQuotes [] := rfl
    have hnext : step .twoQuotes c = (.code, [.literal, .code c]) := by
      simp [step, hquote, codeStep_plain hc]
    exact hempty.append (Reads.single hnext)
  | cons d ds =>
    obtain ⟨e, es, hwrite, he⟩ := stringChar_eq_cons d
    have hstring := reads_string (d :: ds)
    rw [List.flatMap_cons, hwrite, List.cons_append, List.cons_append] at hstring ⊢
    have hfirst : step .quote e = step .string e := by
      simp [step, he]
    have hquoted : Reads step .quote (e :: (es ++ ds.flatMap stringChar ++ [char '"'])) .code
        [.literal] := by
      unfold Reads at hstring ⊢
      rw [run] at hstring ⊢
      rwa [hfirst]
    have hopen : Reads step .code [char '"'] .quote [] := rfl
    exact (hopen.append hquoted).append (Reads.single (codeStep_plain hc))

/-- A text on one line. -/
def IsLine (cs : List CodePoint) : Prop :=
  ∀ c ∈ cs, c ≠ '\n' ∧ c ≠ '\r'

instance (cs : List CodePoint) : Decidable (IsLine cs) :=
  List.decidableBAll (fun c => c ≠ char '\n' ∧ c ≠ char '\r') cs

theorem reads_lineComment {cs : List CodePoint} (h : IsLine cs) :
    Reads step .code (char '/' :: char '/' :: cs ++ [char '\n']) .code [.comment, .code '\n'] := by
  have hrest : Reads step .lineComment cs .lineComment [] := by
    induction cs with
    | nil => rfl
    | cons c cs ih =>
      have hc : step .lineComment c = (.lineComment, []) := by
        simp [step, h c List.mem_cons_self]
      exact Reads.cons hc (ih fun d hd => h d (List.mem_cons_of_mem c hd))
  have hopen : Reads step .code [char '/', char '/'] .lineComment [] := rfl
  exact (hopen.append hrest).append (Reads.single rfl)

/-- Two characters that neither end a comment nor begin one. -/
def Apart (a b : CodePoint) : Prop :=
  ¬(a = '*' ∧ b = '/') ∧ ¬(a = '/' ∧ b = '*')

instance (a b : CodePoint) : Decidable (Apart a b) :=
  inferInstanceAs (Decidable (_ ∧ _))

/-- A character that has no part in the marks of comments. -/
def IsNeutral (c : CodePoint) : Prop :=
  c ≠ '*' ∧ c ≠ '/'

instance (c : CodePoint) : Decidable (IsNeutral c) :=
  inferInstanceAs (Decidable (_ ∧ _))

theorem IsNeutral.apart_left {a : CodePoint} (h : IsNeutral a) (b : CodePoint) : Apart a b :=
  ⟨fun hclose => h.1 hclose.1, fun hopen => h.2 hopen.1⟩

theorem IsNeutral.apart_right {b : CodePoint} (h : IsNeutral b) (a : CodePoint) : Apart a b :=
  ⟨fun hclose => h.2 hclose.2, fun hopen => h.1 hopen.2⟩

/-- In a comment, behind the given character. -/
def modeBehind (c : CodePoint) : Mode :=
  if c = '*' then .blockStar 0 else if c = '/' then .blockSlash 0 else .block 0

theorem step_modeBehind {a b : CodePoint} (h : Apart a b) :
    step (modeBehind a) b = (modeBehind b, []) := by
  obtain ⟨hclose, hopen⟩ := h
  have hblock : blockStep 0 b = (modeBehind b, []) := by
    unfold blockStep modeBehind
    split
    · rfl
    · split <;> rfl
  unfold modeBehind
  split
  · rename_i ha
    have hb : b ≠ '/' := fun hb => hclose ⟨ha, hb⟩
    have hstep : step (.blockStar 0) b = blockStep 0 b := if_neg hb
    rw [hstep, hblock, modeBehind]
  · split
    · rename_i ha
      have hb : b ≠ '*' := fun hb => hopen ⟨ha, hb⟩
      have hstep : step (.blockSlash 0) b = blockStep 0 b := if_neg hb
      rw [hstep, hblock, modeBehind]
    · exact hblock

/-- A text without marks of comments stays in one. -/
theorem reads_apart {a : CodePoint} {cs : List CodePoint} (h : (a :: cs).IsChain Apart) :
    Reads step (modeBehind a) (cs ++ [char '\n']) (.block 0) [] := by
  induction cs generalizing a with
  | nil =>
    have hfeed : IsNeutral '\n' := by decide
    exact Reads.single (step_modeBehind (hfeed.apart_right a))
  | cons b cs ih =>
    rw [List.isChain_cons_cons] at h
    exact Reads.cons (step_modeBehind h.1) (ih h.2)

/-- A text that can stand on lines of a comment. -/
def IsComment (cs : List CodePoint) : Prop :=
  cs.IsChain Apart

theorem isComment_ofList {cs : List Char} (h : (cs.map char).IsChain Apart) :
    IsComment (String.ofList cs : Text).toList := by
  rwa [Text.toList_plain, String.toList_ofList]

theorem reads_commentLine {cs : List CodePoint} (h : IsComment cs) :
    Reads step (.block 0) (cs ++ [char '\n']) (.block 0) [] := by
  have hfeed : IsNeutral '\n' := by decide
  exact reads_apart (List.isChain_cons.mpr ⟨fun b _ => hfeed.apart_left b, h⟩)

/-- Lines of a comment stay in it whatever the layout does to them. -/
theorem isComment_settleLines {ls : List (List CodePoint)} (h : ∀ l ∈ ls, IsComment l) (empty : Nat) :
    ∀ l ∈ settleLines empty ls, IsComment l := by
  intro l hl
  rcases mem_settleLines hl with rfl | ⟨k, hk, rfl⟩
  · exact .nil
  · obtain ⟨blanks, heq, -⟩ := exists_trimEnd_append k
    have hk := h k hk
    rw [heq] at hk
    exact List.IsChain.left_of_append hk

theorem readsLines_comment {ls : List (List CodePoint)} (h : ∀ l ∈ ls, IsComment l) (empty : Nat) :
    ReadsLines step (.block 0) (settleLines empty ls) (.block 0) [] :=
  ReadsLines.skip fun l hl => reads_commentLine (isComment_settleLines h _ l hl)

theorem mem_maskClosing {cs : List CodePoint} {c : CodePoint} (h : c ∈ maskClosing cs) :
    c ∈ cs ∨ c ∈ slashEntity := by
  fun_induction maskClosing cs with
  | case1 cs ih =>
    simp only [List.mem_cons, List.mem_append] at h ⊢
    tauto
  | case2 d cs hne ih =>
    simp only [List.mem_cons] at h ⊢
    tauto
  | case3 => exact Or.inl h

theorem mem_maskOpening {cs : List CodePoint} {c : CodePoint} (h : c ∈ maskOpening cs) :
    c ∈ cs ∨ c ∈ slashEntity := by
  fun_induction maskOpening cs with
  | case1 cs ih =>
    simp only [List.mem_cons, List.mem_append] at h ⊢
    tauto
  | case2 d cs hne ih =>
    simp only [List.mem_cons] at h ⊢
    tauto
  | case3 => exact Or.inl h

/-- All of a text stands on one line in a comment. -/
theorem isLineBreak_commentText (s : Text) :
    ∀ c ∈ (commentText s).toList, isLineBreak c = false := by
  have hentity : ∀ c ∈ slashEntity, isLineBreak c = false :=
    List.all_iff_forall_prop.mp (by decide)
  have hlines : ∀ c ∈ [char ' '].intercalate (lines s.toList), isLineBreak c = false := by
    intro c hc
    rcases mem_intercalate hc with hc | ⟨l, hl, hc⟩
    · rw [List.mem_singleton.mp hc]
      decide
    · exact isLineBreak_of_mem_lines hl c hc
  intro c hc
  rw [commentText, Text.toList_ofList] at hc
  rcases mem_maskOpening hc with hc | hc
  · rcases mem_maskClosing hc with hc | hc
    · exact hlines c hc
    · exact hentity c hc
  · exact hentity c hc

theorem isLine_commentText (s : Text) : IsLine (commentText s).toList := by
  intro c hc
  have hbreak := isLineBreak_commentText s c hc
  constructor <;> rintro rfl <;> cases hbreak

/-- A line that begins with two slashes is a comment, whatever text of the schema it holds. -/
theorem reads_commentText {cs ds : List Char} (hcs : IsLine (cs.map char)) (s : Text)
    (hds : IsLine (ds.map char)) :
    Reads step .code (((String.ofList ('/' :: '/' :: cs) : Text) ++ commentText s ++
      (String.ofList ds : Text)).toList ++ [char '\n']) .code [.comment, .code '\n'] := by
  have hline : IsLine (cs.map char ++ (commentText s).toList ++ ds.map char) := by
    intro c hc
    rcases List.mem_append.mp hc with hc | hc
    · rcases List.mem_append.mp hc with hc | hc
      · exact hcs c hc
      · exact isLine_commentText s c hc
    · exact hds c hc
  have hall := reads_lineComment hline
  simpa only [Text.toList_append, Text.toList_plain, String.toList_ofList, List.map_cons,
    List.cons_append] using hall

theorem head?_maskClosing (cs : List CodePoint) : (maskClosing cs).head? = cs.head? := by
  fun_cases maskClosing cs <;> rfl

theorem isChain_maskClosing (cs : List CodePoint) :
    (maskClosing cs).IsChain fun a b => ¬(a = char '*' ∧ b = char '/') := by
  fun_induction maskClosing cs with
  | case1 cs ih =>
    simp only [slashEntity, List.cons_append, List.nil_append, List.isChain_cons_cons]
    refine ⟨by decide, by decide, by decide, by decide, by decide, ?_⟩
    exact List.isChain_cons.mpr ⟨fun b _ h => absurd h.1 (by decide), ih⟩
  | case2 c cs hne ih =>
    refine List.isChain_cons.mpr ⟨fun b hb h => ?_, ih⟩
    obtain ⟨rfl, rfl⟩ := h
    rw [head?_maskClosing] at hb
    obtain ⟨rest, rfl⟩ := List.head?_eq_some_iff.mp hb
    exact hne rest rfl rfl
  | case3 => exact .nil

theorem mem_head?_maskOpening {cs : List CodePoint} {b : CodePoint} (h : b ∈ (maskOpening cs).head?) :
    b = '&' ∨ b ∈ cs.head? := by
  revert h
  fun_cases maskOpening cs with
  | case1 cs => exact fun h => Or.inl (Option.some.inj h).symm
  | case2 c cs hne => exact Or.inr
  | case3 => exact Or.inr

/-- What masks openings makes no closing. -/
theorem isComment_maskOpening {cs : List CodePoint}
    (h : cs.IsChain fun a b => ¬(a = char '*' ∧ b = char '/')) :
    IsComment (maskOpening cs) := by
  unfold IsComment
  fun_induction maskOpening cs with
  | case1 cs ih =>
    obtain ⟨-, hrest⟩ := List.isChain_cons_cons.mp h
    obtain ⟨hstar, hcs⟩ := List.isChain_cons.mp hrest
    simp only [slashEntity, List.cons_append, List.nil_append, List.isChain_cons_cons]
    refine ⟨by decide, by decide, by decide, by decide, by decide, ?_⟩
    refine List.isChain_cons.mpr ⟨fun b hb => ?_, ih hcs⟩
    rcases mem_head?_maskOpening hb with rfl | hb
    · decide
    · exact ⟨hstar b hb, fun hopen => absurd hopen.1 (by decide)⟩
  | case2 c cs hne ih =>
    obtain ⟨hc, hcs⟩ := List.isChain_cons.mp h
    refine List.isChain_cons.mpr ⟨fun b hb => ?_, ih hcs⟩
    rcases mem_head?_maskOpening hb with rfl | hb
    · exact IsNeutral.apart_right (by decide) c
    · refine ⟨hc b hb, fun hopen => ?_⟩
      obtain ⟨rfl, rfl⟩ := hopen
      obtain ⟨rest, rfl⟩ := List.head?_eq_some_iff.mp hb
      exact hne rest rfl rfl
  | case3 => exact .nil

theorem isComment_commentText (s : Text) : IsComment (commentText s).toList := by
  rw [commentText, Text.toList_ofList]
  exact isComment_maskOpening (isChain_maskClosing _)

/-- Parts of a comment that meet at a neutral character. -/
theorem IsComment.append {cs ds : List CodePoint} (hcs : IsComment cs) (hds : IsComment ds)
    (h : (∃ c ∈ cs.getLast?, IsNeutral c) ∨ ∃ d ∈ ds.head?, IsNeutral d) :
    IsComment (cs ++ ds) := by
  refine List.isChain_append.mpr ⟨hcs, hds, fun c hc d hd => ?_⟩
  rcases h with ⟨a, ha, h⟩ | ⟨b, hb, h⟩
  · exact Option.mem_unique ha hc ▸ h.apart_left d
  · exact Option.mem_unique hb hd ▸ h.apart_right c

/-- An identifier, which may be a keyword. -/
def IsName (s : Text) : Prop :=
  isIdentifier s.toList = true

instance (s : Text) : Decidable (IsName s) :=
  inferInstanceAs (Decidable (isIdentifier s.toList = true))

theorem isIdentifierChar_of_isBlank {c : CodePoint} (h : isBlank c = true) :
    isIdentifierChar c = false :=
  eq_false_of_isBlank isIdentifierChar (by decide +kernel) h

theorem IsName.isBlank_false {s : Text} (h : IsName s) {c : CodePoint} (hc : c ∈ s.toList) :
    isBlank c = false := by
  by_contra hblank
  have hchar := isIdentifierChar_of_mem h hc
  rw [isIdentifierChar_of_isBlank (Bool.of_not_eq_false hblank)] at hchar
  cases hchar

theorem IsName.ne {s : Text} (h : IsName s) {c d : CodePoint} (hc : c ∈ s.toList)
    (hd : d ∈ [char '"', char '/', char '`', char '\'', char '#', char '\n', char '\r']) : c ≠ d := by
  have hmarks : ∀ d ∈ [char '"', char '/', char '`', char '\'', char '#', char '\n', char '\r'],
      isIdentifierChar d = false :=
    List.all_iff_forall_prop.mp (by decide)
  rintro rfl
  have hchar := isIdentifierChar_of_mem h hc
  rw [hmarks c hd] at hchar
  cases hchar

theorem isPlain_of_isName {s : Text} (h : IsName s) : IsPlain isCodeChar s := by
  intro c hc
  have hne {d : CodePoint}
      (hd : d ∈ [char '"', char '/', char '`', char '\'', char '#', char '\n', char '\r']) : c ≠ d :=
    h.ne hc hd
  simp [isCodeChar, hne]

/-- A name in code, between backticks or not. -/
theorem reads_quoteIdentifier {s : Text} (h : IsName s) :
    Reads step .code (quoteIdentifier s).toList .code (code (quoteIdentifier s)) := by
  unfold quoteIdentifier
  split
  · have hinner (cs : List CodePoint) (hcs : cs ⊆ s.toList) :
        Reads step .backticks cs .backticks (cs.map .code) := by
      induction cs with
      | nil => rfl
      | cons c cs ih =>
        have hne {d : CodePoint}
            (hd : d ∈ [char '"', char '/', char '`', char '\'', char '#', char '\n', char '\r']) :
            c ≠ d :=
          h.ne (hcs List.mem_cons_self) hd
        have hc : step .backticks c = (.backticks, [.code c]) := by
          simp [step, hne]
        exact Reads.cons hc (ih fun d hd => hcs (List.mem_cons_of_mem c hd))
    have hopen : Reads step .code ("`" : Text).toList .backticks (code "`") := rfl
    have hclose : Reads step .backticks ("`" : Text).toList .code (code "`") := rfl
    rw [Text.toList_append, Text.toList_append, code_append, code_append]
    exact (hopen.append (hinner s.toList (List.Subset.refl _))).append hclose
  · exact reads_code (isPlain_of_isName h)

theorem reads_packageName {segments : List Text} (h : ∀ s ∈ segments, IsName s) :
    Reads step .code (packageName segments).toList .code (code (packageName segments)) := by
  rw [packageName, code, Text.toList_intercalate]
  induction segments with
  | nil => rfl
  | cons s segments ih =>
    have hs := reads_quoteIdentifier (h s List.mem_cons_self)
    have hrest := ih fun t ht => h t (List.mem_cons_of_mem s ht)
    cases segments with
    | nil => simpa [code] using hs
    | cons t segments =>
      have hdot : Reads step .code ("." : Text).toList .code (code ".") := rfl
      simp only [List.map_cons, List.intercalate_cons_cons, List.map_append] at hrest ⊢
      exact (hs.append hdot).append hrest

theorem isBlank_packageName {segments : List Text} (h : ∀ s ∈ segments, IsName s) :
    ∀ c ∈ (packageName segments).toList, isBlank c = false := by
  have hmarks : ∀ c ∈ [char '.', char '`'], isBlank c = false := List.all_iff_forall_prop.mp (by decide)
  intro c hc
  rw [packageName, Text.toList_intercalate] at hc
  rcases mem_intercalate hc with hc | ⟨l, hl, hc⟩
  · exact hmarks c (List.mem_cons.mpr (Or.inl (List.mem_singleton.mp hc)))
  · obtain ⟨t, ht, rfl⟩ := List.mem_map.mp hl
    obtain ⟨s, hs, rfl⟩ := List.mem_map.mp ht
    have hname : c ∈ s.toList → isBlank c = false := (h s hs).isBlank_false
    unfold quoteIdentifier at hc
    split at hc
    · simp only [Text.toList_append, List.mem_append] at hc
      rcases hc with (hc | hc) | hc
      · exact hmarks c (List.mem_cons_of_mem _ hc)
      · exact hname hc
      · exact hmarks c (List.mem_cons_of_mem _ hc)
    · exact hname hc

end PrefAccessor.Kotlin
