import Mathlib.Data.List.TakeWhile
import PrefAccessor.Proofs.SettledLines

/-!
# Lines and the gaps between them

The lines of a text that are not blank stand apart by gaps of blank lines, and the layout changes
nothing but white space: each of these lines stays up to its last character that is no blank, a gap
between two of them shrinks to at most two empty lines, and what stands before the first and behind
the last one goes. Main statement: `layout_normalizes`.
-/

namespace PrefAccessor.Text

set_option autoImplicit false

def isBlankLine (l : List CodePoint) : Bool :=
  l.all isBlank

/-- A line that is not blank: what it says, and the blanks behind it. -/
structure TextLine where
  kept : List CodePoint
  blanks : List CodePoint
  kept_isFull : IsFull kept
  blanks_isBlankLine : isBlankLine blanks = true

/-- Blank lines in a row, or none. -/
structure Gap where
  lines : List (List CodePoint)
  isBlankLine_of_mem : ∀ l ∈ lines, isBlankLine l = true

/-- The lines of a text that does not consist of blank lines only: one that is not blank, more of
them behind a gap each, and a gap at either end. -/
structure Outline where
  before : Gap
  first : TextLine
  rest : List (Gap × TextLine)
  behind : Gap

namespace TextLine

def text (l : TextLine) : List CodePoint :=
  l.kept ++ l.blanks

/-- The line without the blanks behind it. -/
def settle (l : TextLine) : TextLine where
  kept := l.kept
  blanks := []
  kept_isFull := l.kept_isFull
  blanks_isBlankLine := rfl

@[simp] theorem settle_text (l : TextLine) : l.settle.text = l.kept :=
  List.append_nil _

end TextLine

namespace Gap

/-- A gap of `n` empty lines. -/
def ofEmpty (n : Nat) : Gap where
  lines := List.replicate n []
  isBlankLine_of_mem := by
    intro l hl
    rw [List.eq_of_mem_replicate hl]
    rfl

@[simp] theorem ofEmpty_lines (n : Nat) : (ofEmpty n).lines = List.replicate n [] := rfl

def length (g : Gap) : Nat :=
  g.lines.length

@[simp] theorem ofEmpty_length (n : Nat) : (ofEmpty n).length = n :=
  List.length_replicate

/-- The gap with at most two lines, which are empty. -/
def settle (g : Gap) : Gap :=
  ofEmpty (min g.length 2)

end Gap

namespace Outline

/-- The lines of a text behind the first one that is not blank, without the gap at its end. -/
def restLines (rest : List (Gap × TextLine)) : List (List CodePoint) :=
  rest.flatMap fun part => part.1.lines ++ [part.2.text]

theorem restLines_cons_append (part : Gap × TextLine) (rest : List (Gap × TextLine))
    (ls : List (List CodePoint)) : restLines (part :: rest) ++ ls =
      part.1.lines ++ part.2.text :: (restLines rest ++ ls) := by
  simp [restLines]

def lines (o : Outline) : List (List CodePoint) :=
  o.before.lines ++ o.first.text :: (restLines o.rest ++ o.behind.lines)

/-- The lines that are not blank, in their order. -/
def textLines (o : Outline) : List TextLine :=
  o.first :: o.rest.map Prod.snd

/-- The same lines without blanks at their ends and with at most two empty lines between them. -/
def settle (o : Outline) : Outline where
  before := .ofEmpty 0
  first := o.first.settle
  rest := o.rest.map fun part => (part.1.settle, part.2.settle)
  behind := .ofEmpty 0

end Outline

theorem isBlankLine_iff {l : List CodePoint} : isBlankLine l = true ↔ trimEnd l = [] := by
  rw [trimEnd, dropEndWhile, List.reverse_eq_nil_iff, List.dropWhile_eq_nil_iff, isBlankLine,
    List.all_eq_true]
  simp only [List.mem_reverse]

theorem isFull_trimEnd {l : List CodePoint} (h : isBlankLine l = false) : IsFull (trimEnd l) := by
  have hne : l.reverse.dropWhile isBlank ≠ [] := by
    intro hnil
    have hblank : trimEnd l = [] := by rw [trimEnd, dropEndWhile, hnil, List.reverse_nil]
    rw [isBlankLine_iff.mpr hblank] at h
    cases h
  obtain ⟨c, cs, hcs⟩ := List.exists_cons_of_ne_nil hne
  refine ⟨cs.reverse, c, by rw [trimEnd, dropEndWhile, hcs, List.reverse_cons], ?_⟩
  have hhead := List.head_dropWhile_not isBlank hne
  simpa only [hcs, List.head_cons, Bool.not_eq_true] using hhead

theorem IsFull.not_isBlankLine {l : List CodePoint} (h : IsFull l) : isBlankLine l = false := by
  rw [← Bool.not_eq_true, isBlankLine_iff, h.trimEnd_eq]
  exact h.ne_nil

namespace TextLine

theorem trimEnd_text (l : TextLine) : trimEnd l.text = l.kept := by
  have hblanks : l.blanks.reverse.dropWhile isBlank = [] := by
    rw [List.dropWhile_eq_nil_iff]
    exact fun c hc => List.all_eq_true.mp l.blanks_isBlankLine c (List.mem_reverse.mp hc)
  rw [← l.kept_isFull.trimEnd_eq, trimEnd, trimEnd, dropEndWhile, dropEndWhile, text,
    List.reverse_append, List.dropWhile_append, hblanks]
  rfl

theorem not_isBlankLine (l : TextLine) : isBlankLine l.text = false := by
  rw [← Bool.not_eq_true, isBlankLine_iff, trimEnd_text]
  exact l.kept_isFull.ne_nil

theorem exists_text {l : List CodePoint} (h : isBlankLine l = false) : ∃ t : TextLine, l = t.text := by
  obtain ⟨blanks, heq, hblanks⟩ := exists_trimEnd_append l
  exact ⟨⟨trimEnd l, blanks, isFull_trimEnd h, List.all_eq_true.mpr hblanks⟩, heq⟩

end TextLine

/-- By induction on the lines: a blank one widens the gap in front, and any other one opens a new
outline. -/
theorem exists_outline (ls : List (List CodePoint)) :
    (∀ l ∈ ls, isBlankLine l = true) ∨ ∃ o : Outline, ls = o.lines := by
  induction ls with
  | nil => exact Or.inl (List.forall_mem_nil _)
  | cons l ls ih =>
    cases hl : isBlankLine l with
    | true =>
      refine ih.imp (fun hls => List.forall_mem_cons.mpr ⟨hl, hls⟩) ?_
      rintro ⟨o, rfl⟩
      exact ⟨{ o with before := ⟨l :: o.before.lines,
        List.forall_mem_cons.mpr ⟨hl, o.before.isBlankLine_of_mem⟩⟩ }, rfl⟩
    | false =>
      obtain ⟨t, rfl⟩ := TextLine.exists_text hl
      rcases ih with hls | ⟨o, rfl⟩
      · exact Or.inr ⟨⟨.ofEmpty 0, t, [], ⟨ls, hls⟩⟩, rfl⟩
      · refine Or.inr ⟨⟨.ofEmpty 0, t, (o.before, o.first) :: o.rest, o.behind⟩, ?_⟩
        simp [Outline.lines, Outline.restLines]

namespace Outline

theorem filter_gap (g : Gap) : g.lines.filter (fun l => !isBlankLine l) = [] := by
  rw [List.filter_eq_nil_iff]
  intro l hl
  simp [g.isBlankLine_of_mem l hl]

/-- The lines that are not blank are those of the outline. -/
theorem filter_lines (o : Outline) :
    o.lines.filter (fun l => !isBlankLine l) = o.textLines.map TextLine.text := by
  have hrest : (restLines o.rest).filter (fun l => !isBlankLine l) =
      o.rest.map fun part => part.2.text := by
    induction o.rest with
    | nil => rfl
    | cons part rest ih =>
      rw [restLines, List.flatMap_cons, List.filter_append, List.filter_append, filter_gap]
      simp only [restLines] at ih
      simp [ih, part.2.not_isBlankLine]
  rw [lines, List.filter_append, filter_gap, List.filter_cons_of_pos
    (by rw [o.first.not_isBlankLine]; rfl), List.filter_append, filter_gap, hrest, textLines]
  simp

end Outline

/-- Of a gap behind `empty` empty lines there remain as many as there is room for. -/
theorem settleLines_gap (g : Gap) (empty : Nat) (ls : List (List CodePoint)) :
    settleLines empty (g.lines ++ ls) =
      List.replicate (min g.length (2 - empty)) [] ++ settleLines (empty + g.length) ls := by
  obtain ⟨blank, hblank⟩ := g
  simp only [Gap.length]
  induction blank generalizing empty with
  | nil => simp
  | cons l blank ih =>
    obtain ⟨hl, hblank⟩ := List.forall_mem_cons.mp hblank
    have hnext := ih (empty + 1) hblank
    rw [List.cons_append, settleLines, if_pos (isBlankLine_iff.mp hl), hnext, List.length_cons,
      Nat.add_right_comm, Nat.add_assoc]
    -- either there is room for the first line of the gap, or for none of it
    split
    · rename_i hroom
      have hcount : min (blank.length + 1) (2 - empty) = min blank.length (2 - (empty + 1)) + 1 := by
        rw [maxEmptyLines] at hroom
        omega
      rw [hcount, List.replicate_succ, List.cons_append]
    · rename_i hroom
      have hcount : min (blank.length + 1) (2 - empty) = min blank.length (2 - (empty + 1)) := by
        rw [maxEmptyLines] at hroom
        omega
      rw [hcount]

theorem settleLines_text (l : TextLine) (empty : Nat) (ls : List (List CodePoint)) :
    settleLines empty (l.text :: ls) = l.kept :: settleLines 0 ls := by
  rw [settleLines, l.trimEnd_text, if_neg l.kept_isFull.ne_nil]

theorem settleLines_rest (rest : List (Gap × TextLine)) (behind : Gap) :
    settleLines 0 (Outline.restLines rest ++ behind.lines) =
      Outline.restLines (rest.map fun part => (part.1.settle, part.2.settle)) ++
        behind.settle.lines := by
  induction rest with
  | nil => simpa [Outline.restLines, settleLines, Gap.settle] using settleLines_gap behind 0 []
  | cons part rest ih =>
    rw [Outline.restLines_cons_append, settleLines_gap, settleLines_text, ih, List.map_cons,
      Outline.restLines_cons_append, TextLine.settle_text]
    rfl

theorem trimLines_surrounded {ls : List (List CodePoint)} {first last : List CodePoint}
    (hfirst : ls.head? = some first) (hlast : ls.getLast? = some last) (hfirst_ne : first ≠ [])
    (hlast_ne : last ≠ []) (m n : Nat) :
    trimLines (List.replicate m [] ++ (ls ++ List.replicate n [])) = ls := by
  have hempty (k : Nat) : ∀ l ∈ List.replicate k ([] : List CodePoint), l.isEmpty = true := by
    intro l hl
    rw [List.eq_of_mem_replicate hl]
    rfl
  have hkeep {l : List CodePoint} (hl : l ≠ []) (ls : List (List CodePoint)) :
      (l :: ls).dropWhile List.isEmpty = l :: ls := by
    rw [List.dropWhile_cons_of_neg (by simpa using hl)]
  obtain ⟨tail, htail⟩ := List.head?_eq_some_iff.mp hfirst
  obtain ⟨init, hinit⟩ := List.getLast?_eq_some_iff.mp hlast
  have hreverse : ls.reverse.dropWhile List.isEmpty = ls.reverse := by
    rw [hinit, List.reverse_concat]
    exact hkeep hlast_ne _
  have hfront : (ls ++ List.replicate n []).dropWhile List.isEmpty = ls ++ List.replicate n [] := by
    rw [htail, List.cons_append]
    exact hkeep hfirst_ne _
  unfold trimLines
  simp only [List.dropWhile_append_of_pos (hempty m), hfront, List.reverse_append,
    List.reverse_replicate, List.dropWhile_append_of_pos (hempty n), hreverse, List.reverse_reverse]

namespace Outline

theorem first_text_ne_nil (o : Outline) : o.first.text ≠ [] :=
  List.append_ne_nil_of_left_ne_nil o.first.kept_isFull.ne_nil _

/-- What the layout leaves of a text ends with a line that is not blank. -/
theorem exists_last_settle (o : Outline) :
    ∃ init last, o.settle.lines = init ++ [last] ∧ IsFull last := by
  rcases List.eq_nil_or_concat o.rest with hrest | ⟨parts, part, hrest⟩
  · exact ⟨[], o.first.kept, by simp [lines, settle, restLines, hrest], o.first.kept_isFull⟩
  · refine ⟨o.first.kept :: (restLines (parts.map fun part => (part.1.settle, part.2.settle)) ++
      part.1.settle.lines), part.2.kept, ?_, part.2.kept_isFull⟩
    simp [lines, settle, restLines, hrest]

theorem layoutLines_eq_settle (o : Outline) : layoutLines o.lines = o.settle.lines := by
  have hsettled : settleLines 0 o.lines = List.replicate (min o.before.length 2) [] ++
      (o.settle.lines ++ List.replicate (min o.behind.length 2) []) := by
    rw [lines, settleLines_gap, settleLines_text, settleLines_rest]
    simp [lines, settle, Gap.settle]
  obtain ⟨init, last, hlast, hfull⟩ := o.exists_last_settle
  have hend : o.settle.lines.getLast? = some last := by rw [hlast, List.getLast?_concat]
  rw [layoutLines, hsettled]
  exact trimLines_surrounded rfl hend o.settle.first_text_ne_nil hfull.ne_nil _ _

/-- A text that is laid out begins and ends with lines that are not blank. -/
theorem layoutChars_eq_settle {cs : List CodePoint} {o : Outline}
    (h : cs.splitOn (char '\n') = o.lines) :
    layoutChars cs = ofLines o.settle.lines := by
  have hne : o.settle.lines ≠ [] := by
    obtain ⟨init, last, hlast, -⟩ := o.exists_last_settle
    simp [hlast]
  rw [layoutChars, h, layoutLines_eq_settle, ofLines_eq_intercalate hne]

theorem splitOn_layoutChars_eq_settle {cs : List CodePoint} {o : Outline}
    (h : cs.splitOn (char '\n') = o.lines) :
    (layoutChars cs).splitOn (char '\n') = { o.settle with behind := .ofEmpty 1 }.lines := by
  have hne : layoutLines (cs.splitOn (char '\n')) ≠ [] := by
    obtain ⟨init, last, hlast, -⟩ := o.exists_last_settle
    simp [h, layoutLines_eq_settle, hlast]
  rw [splitOn_layoutChars hne, h, layoutLines_eq_settle]
  simp [lines, settle, Gap.ofEmpty]

/-- Settled lines and gaps stay as they are. -/
theorem settle_settle (o : Outline) : o.settle.settle = o.settle := by
  have hgap (g : Gap) : g.settle.settle = g.settle := by
    simp [Gap.settle]
  simp [settle, hgap, TextLine.settle, Function.comp_def]

end Outline

theorem layoutChars_of_blank {cs : List CodePoint}
    (h : ∀ l ∈ cs.splitOn (char '\n'), isBlankLine l = true) : layoutChars cs = [char '\n'] := by
  have hsettled := settleLines_gap ⟨cs.splitOn (char '\n'), h⟩ 0 []
  rw [List.append_nil] at hsettled
  have htrim (n : Nat) : trimLines (List.replicate n []) = [] := by
    induction n with
    | zero => rfl
    | succ n ih => rw [List.replicate_succ', trimLines_concat_nil, ih]
  rw [layoutChars, layoutLines, hsettled, settleLines, List.append_nil, htrim]
  rfl

/-- The layout changes nothing but white space. A text of blank lines becomes one line feed. Of any
other text the lines that are not blank stay, in their order, each without the blanks at its end; of
`n` blank lines between two of them there remain `min n 2` empty ones, and none in front of the first
one or behind the last one. The text ends with one line feed, and a second layout changes nothing. -/
theorem layout_normalizes (text : Text) :
    ((∀ l ∈ text.toList.splitOn (char '\n'), isBlankLine l = true) ∧ layout text = "\n" ∨
      ∃ o : Outline, text.toList.splitOn (char '\n') = o.lines ∧
        (layout text).toList = ofLines o.settle.lines) ∧
    (∃ kept : List TextLine,
      (text.toList.splitOn (char '\n')).filter (fun l => !isBlankLine l) = kept.map TextLine.text ∧
      ((layout text).toList.splitOn (char '\n')).filter (fun l => !isBlankLine l) =
        kept.map TextLine.kept) ∧
    (∃ body, layout text = body ++ "\n" ∧ body.toList.getLast? ≠ some (char '\n')) ∧
    layout (layout text) = layout text := by
  rcases exists_outline (text.toList.splitOn (char '\n')) with hblank | ⟨o, ho⟩
  · have hlayout : layout text = "\n" := by
      rw [layout, layoutChars_of_blank hblank]
      rfl
    refine ⟨Or.inl ⟨hblank, hlayout⟩, ⟨[], ?_, ?_⟩, ⟨"", hlayout, by simp⟩, ?_⟩
    · rw [List.map_nil, List.filter_eq_nil_iff]
      intro l hl
      simp [hblank l hl]
    · rw [hlayout]
      rfl
    · rw [hlayout]
      rfl
  · have hlines := Outline.layoutChars_eq_settle ho
    have hsplit := Outline.splitOn_layoutChars_eq_settle ho
    have htext : (layout text).toList = layoutChars text.toList := by
      rw [layout, Text.toList_ofList]
    refine ⟨Or.inr ⟨o, ho, htext.trans hlines⟩, ⟨o.textLines, ?_, ?_⟩, ?_, ?_⟩
    · rw [ho, o.filter_lines]
    · rw [htext, hsplit, Outline.filter_lines]
      simp [Outline.textLines, Outline.settle]
    · obtain ⟨init, last, hlast, head, c, rfl, hc⟩ := o.exists_last_settle
      refine ⟨Text.ofList (ofLines init ++ (head ++ [c])), ?_, ?_⟩
      · rw [← Text.toList_inj, htext, hlines, hlast]
        simp
      · rw [Text.toList_ofList, ← List.append_assoc, List.getLast?_concat, Ne, Option.some.injEq]
        rintro rfl
        revert hc
        decide
    · rw [← Text.toList_inj, layout, Text.toList_ofList, htext,
        Outline.layoutChars_eq_settle hsplit, hlines]
      exact congrArg (fun o => ofLines o.lines) o.settle_settle

end PrefAccessor.Text
