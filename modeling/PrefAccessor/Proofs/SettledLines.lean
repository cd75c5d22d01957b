import Mathlib.Data.List.Basic
import PrefAccessor.Text.Layout

/-!
# What the layout leaves alone

A line that ends in something else than a blank stays as it is, and so does an empty line that does
not follow two others. Supplies the layout of a list of lines from the layout of its parts, and the
lines of a text that has been laid out.
-/

namespace PrefAccessor.Text

set_option autoImplicit false

/-- A line that ends in a character which is no blank. -/
def IsFull (l : List CodePoint) : Prop :=
  ∃ init c, l = init ++ [c] ∧ isBlank c = false

namespace IsFull

variable {l : List CodePoint}

theorem append_left (h : IsFull l) (k : List CodePoint) : IsFull (k ++ l) := by
  obtain ⟨init, c, rfl, hc⟩ := h
  exact ⟨k ++ init, c, by simp, hc⟩

theorem trimEnd_eq (h : IsFull l) : trimEnd l = l := by
  obtain ⟨init, c, rfl, hc⟩ := h
  simp [trimEnd, dropEndWhile, hc]

theorem ne_nil (h : IsFull l) : l ≠ [] := by
  obtain ⟨init, c, rfl, -⟩ := h
  simp

theorem iff_getLast? : IsFull l ↔ l.getLast?.any (fun c => !isBlank c) = true := by
  constructor
  · rintro ⟨init, c, rfl, hc⟩
    simp [hc]
  · intro h
    rcases List.eq_nil_or_concat l with rfl | ⟨init, c, rfl⟩
    · cases h
    · exact ⟨init, c, List.concat_eq_append, by simpa using h⟩

instance (l : List CodePoint) : Decidable (IsFull l) :=
  decidable_of_iff _ iff_getLast?.symm

end IsFull

/-- Only blanks go from the end of a line. -/
theorem exists_trimEnd_append (l : List CodePoint) :
    ∃ blanks, l = trimEnd l ++ blanks ∧ ∀ c ∈ blanks, isBlank c = true := by
  refine ⟨(l.reverse.takeWhile isBlank).reverse, ?_, fun c hc => ?_⟩
  · have hsplit := congrArg List.reverse
      (List.takeWhile_append_dropWhile (p := isBlank) (l := l.reverse))
    rw [List.reverse_append, List.reverse_reverse] at hsplit
    exact hsplit.symm
  · exact List.all_eq_true.mp List.all_takeWhile c (List.mem_reverse.mp hc)

theorem trimEnd_isPrefix (l : List CodePoint) : trimEnd l <+: l := by
  obtain ⟨blanks, heq, -⟩ := exists_trimEnd_append l
  exact ⟨blanks, heq.symm⟩

/-- Of a text that ends in something else than a blank the last line does so too. -/
theorem IsFull.exists_last {cs : List CodePoint} (h : IsFull cs) :
    ∃ ls l, cs.splitOn (char '\n') = ls ++ [l] ∧ IsFull l := by
  obtain ⟨init, c, rfl, hc⟩ := h
  have hfeed : '\n' ≠ c := by
    rintro rfl
    revert hc
    decide
  induction init with
  | nil => exact ⟨[], [c], List.splitOn_eq_singleton (by simpa using hfeed), ⟨[], c, rfl, hc⟩⟩
  | cons d init ih =>
    obtain ⟨ls, l, hsplit, hl⟩ := ih
    rw [List.cons_append, List.splitOn_cons_eq_if_modifyHead, hsplit]
    split
    · exact ⟨[] :: ls, l, rfl, hl⟩
    · cases ls with
      | nil => exact ⟨[], d :: l, rfl, hl.append_left [d]⟩
      | cons k ls => exact ⟨(d :: k) :: ls, l, rfl, hl⟩

/-- How many empty lines have been passed last, behind more lines. -/
def emptyAfter (empty : Nat) : List (List CodePoint) → Nat
  | [] => empty
  | l :: ls => if trimEnd l = [] then emptyAfter (empty + 1) ls else emptyAfter 0 ls

theorem settleLines_append (empty : Nat) (ls ms : List (List CodePoint)) :
    settleLines empty (ls ++ ms) =
      settleLines empty ls ++ settleLines (emptyAfter empty ls) ms := by
  induction ls generalizing empty with
  | nil => rfl
  | cons l ls ih =>
    rw [List.cons_append, settleLines, settleLines, emptyAfter]
    split
    · split
      · rw [ih, List.cons_append]
      · exact ih (empty + 1)
    · rw [ih, List.cons_append]

theorem emptyAfter_append (empty : Nat) (ls ms : List (List CodePoint)) :
    emptyAfter empty (ls ++ ms) = emptyAfter (emptyAfter empty ls) ms := by
  induction ls generalizing empty with
  | nil => rfl
  | cons l ls ih =>
    rw [List.cons_append, emptyAfter, emptyAfter]
    split
    · exact ih (empty + 1)
    · exact ih 0

/-- Lines that the layout does not touch, after `empty` empty lines have been passed. -/
def IsSettled (empty : Nat) : List (List CodePoint) → Prop
  | [] => True
  | l :: ls => (l = [] ∧ empty < maxEmptyLines ∧ IsSettled (empty + 1) ls) ∨
      (IsFull l ∧ IsSettled 0 ls)

theorem IsSettled.settleLines_eq {empty : Nat} {ls : List (List CodePoint)} (h : IsSettled empty ls) :
    settleLines empty ls = ls := by
  induction ls generalizing empty with
  | nil => rfl
  | cons l ls ih =>
    rcases h with ⟨rfl, hempty, hls⟩ | ⟨hl, hls⟩
    · have hblank : trimEnd [] = [] := rfl
      rw [settleLines, if_pos hblank, if_pos hempty, ih hls]
    · rw [settleLines, hl.trimEnd_eq, if_neg hl.ne_nil, ih hls]

theorem IsSettled.append {empty : Nat} {ls ms : List (List CodePoint)} (hls : IsSettled empty ls)
    (hms : IsSettled (emptyAfter empty ls) ms) : IsSettled empty (ls ++ ms) := by
  induction ls generalizing empty with
  | nil => exact hms
  | cons l ls ih =>
    rcases hls with ⟨rfl, hempty, hls⟩ | ⟨hl, hls⟩
    · exact Or.inl ⟨rfl, hempty, ih hls hms⟩
    · rw [emptyAfter, hl.trimEnd_eq, if_neg hl.ne_nil] at hms
      exact Or.inr ⟨hl, ih hls hms⟩

theorem isSettled_of_full {ls : List (List CodePoint)} (h : ∀ l ∈ ls, IsFull l) (empty : Nat) :
    IsSettled empty ls := by
  induction ls generalizing empty with
  | nil => trivial
  | cons l ls ih =>
    exact Or.inr ⟨h l List.mem_cons_self, ih (fun k hk => h k (List.mem_cons_of_mem l hk)) 0⟩

theorem emptyAfter_concat {l : List CodePoint} (h : IsFull l) (empty : Nat)
    (ls : List (List CodePoint)) :
    emptyAfter empty (ls ++ [l]) = 0 := by
  rw [emptyAfter_append, emptyAfter, h.trimEnd_eq, if_neg h.ne_nil, emptyAfter]

theorem emptyAfter_of_full {ls : List (List CodePoint)} (h : ∀ l ∈ ls, IsFull l) :
    emptyAfter 0 ls = 0 := by
  rcases List.eq_nil_or_concat ls with rfl | ⟨init, l, rfl⟩
  · rfl
  · rw [List.concat_eq_append] at h ⊢
    exact emptyAfter_concat (h l (by simp)) 0 init

theorem emptyAfter_cons_of_full {l : List CodePoint} {ls : List (List CodePoint)}
    (h : ∀ k ∈ l :: ls, IsFull k) (empty : Nat) : emptyAfter empty (l :: ls) = 0 := by
  have hl := h l List.mem_cons_self
  rw [emptyAfter, hl.trimEnd_eq, if_neg hl.ne_nil]
  exact emptyAfter_of_full fun k hk => h k (List.mem_cons_of_mem l hk)

/-- Groups of lines that begin with an empty line and go on with lines that stay. -/
theorem isSettled_groups {α : Type} {f : α → List (List CodePoint)} {xs : List α}
    (h : ∀ x ∈ xs, ∀ l ∈ f x, IsFull l) (hne : ∀ x ∈ xs, f x ≠ []) :
    IsSettled 0 (xs.flatMap fun x => [] :: f x) ∧
      emptyAfter 0 (xs.flatMap fun x => [] :: f x) = 0 := by
  induction xs with
  | nil => exact ⟨trivial, rfl⟩
  | cons x xs ih =>
    have hx := h x List.mem_cons_self
    have hgroup : IsSettled 0 ([] :: f x) := Or.inl ⟨rfl, by decide, isSettled_of_full hx 1⟩
    have hafter : emptyAfter 0 ([] :: f x) = 0 := by
      obtain ⟨init, l, hl⟩ :=
        (List.eq_nil_or_concat (f x)).resolve_left (hne x List.mem_cons_self)
      rw [List.concat_eq_append] at hl
      rw [hl]
      exact emptyAfter_concat (hx l (by simp [hl])) 0 ([] :: init)
    have hrest := ih (fun y hy => h y (List.mem_cons_of_mem x hy))
      (fun y hy => hne y (List.mem_cons_of_mem x hy))
    rw [List.flatMap_cons]
    refine ⟨hgroup.append ?_, ?_⟩
    · rw [hafter]
      exact hrest.1
    · rw [emptyAfter_append, hafter]
      exact hrest.2

/-- Lines that begin with one that stays are settled whatever precedes them. -/
theorem settleLines_block {l : List CodePoint} {ls : List (List CodePoint)} (hl : IsFull l)
    (hls : IsSettled 0 ls) (hempty : emptyAfter 0 ls = 0) (empty : Nat)
    (before rest : List (List CodePoint)) :
    settleLines empty (before ++ (l :: ls) ++ rest) =
      settleLines empty before ++ (l :: ls) ++ settleLines 0 rest := by
  rw [List.append_assoc, settleLines_append, List.cons_append, settleLines, hl.trimEnd_eq,
    if_neg hl.ne_nil, settleLines_append, hls.settleLines_eq, hempty, List.append_assoc,
    List.cons_append]

theorem settleLines_full {l : List CodePoint} (hl : IsFull l) (empty : Nat)
    (before rest : List (List CodePoint)) :
    settleLines empty (before ++ l :: rest) = settleLines empty before ++ l :: settleLines 0 rest := by
  rw [settleLines_append, settleLines, hl.trimEnd_eq, if_neg hl.ne_nil]

theorem trimLines_concat_nil (ls : List (List CodePoint)) : trimLines (ls ++ [[]]) = trimLines ls := by
  unfold trimLines
  simp only [List.dropWhile_append]
  split
  · rename_i h
    rw [List.isEmpty_iff.mp h]
    rfl
  · simp

/-- Empty lines in front of a line that is not empty are all that goes from the front. -/
theorem dropWhile_isEmpty_ends {l : List CodePoint} (h : l ≠ []) (ls ms : List (List CodePoint)) :
    ∃ kept, (ls ++ l :: ms).dropWhile List.isEmpty = kept ++ l :: ms := by
  have hl : l.isEmpty = false := by simpa using h
  induction ls with
  | nil => exact ⟨[], by simp [hl]⟩
  | cons k ls ih =>
    cases hk : k.isEmpty with
    | true => simpa [hk] using ih
    | false => exact ⟨k :: ls, by simp [hk]⟩

/-- Where the last line is not empty, only empty lines in front go. -/
theorem trimLines_concat {l : List CodePoint} (h : l ≠ []) (ls : List (List CodePoint)) :
    trimLines (ls ++ [l]) = (ls ++ [l]).dropWhile List.isEmpty := by
  have hl : l.isEmpty = false := by simpa using h
  obtain ⟨ms, hms⟩ := dropWhile_isEmpty_ends h ls []
  unfold trimLines
  simp [hms, hl]

/-- The last of some lines, behind one that stays, is not empty where no empty line ends them. -/
theorem exists_last_ne_nil {l : List CodePoint} (hl : l ≠ []) {ls : List (List CodePoint)}
    (h : emptyAfter 0 ls = 0) : ∃ ms last, l :: ls = ms ++ [last] ∧ last ≠ [] := by
  rcases List.eq_nil_or_concat ls with rfl | ⟨ms, last, rfl⟩
  · exact ⟨[], l, rfl, hl⟩
  · rw [List.concat_eq_append] at h ⊢
    refine ⟨l :: ms, last, rfl, ?_⟩
    rintro rfl
    rw [emptyAfter_append] at h
    cases h

/-- Settled lines at the end of a text stay, however the text begins, if a line that stays precedes
them and no empty line ends them. -/
theorem layoutLines_ends (before : List (List CodePoint)) {ls : List (List CodePoint)}
    {l : List CodePoint}
    (hl : IsFull l) (hls : IsSettled 0 ls) (hempty : emptyAfter 0 ls = 0) :
    ∃ kept, layoutLines (before ++ l :: ls ++ [[]]) = kept ++ l :: ls := by
  have hsettled := settleLines_block hl hls hempty 0 before [[]]
  rw [show settleLines 0 [[]] = [[]] from rfl] at hsettled
  obtain ⟨ms, last, hlast, hne⟩ := exists_last_ne_nil hl.ne_nil hempty
  have htrim : trimLines (settleLines 0 before ++ l :: ls) =
      (settleLines 0 before ++ l :: ls).dropWhile List.isEmpty := by
    rw [hlast, ← List.append_assoc]
    exact trimLines_concat hne _
  rw [layoutLines, hsettled, trimLines_concat_nil, htrim]
  exact dropWhile_isEmpty_ends hl.ne_nil _ ls

/-- Where the first line stays and no empty line ends the text, no line goes from either end. -/
theorem trimLines_eq {first l : List CodePoint} {ls before : List (List CodePoint)} (hfirst : first ≠ [])
    (hl : l ≠ []) (hempty : emptyAfter 0 ls = 0) :
    trimLines (first :: before ++ l :: ls ++ [[]]) = first :: before ++ l :: ls := by
  obtain ⟨ms, last, hlast, hne⟩ := exists_last_ne_nil hl hempty
  have hhead : first.isEmpty = false := by simpa using hfirst
  rw [trimLines_concat_nil, hlast, ← List.append_assoc, trimLines_concat hne, List.cons_append,
    List.cons_append, List.dropWhile_cons_of_neg (by simp [hhead])]

/-- Between a first line that stays and settled lines at the end, the layout settles all lines. -/
theorem layoutLines_eq {first l : List CodePoint} {ls : List (List CodePoint)} (hfirst : IsFull first)
    (hl : IsFull l) (hls : IsSettled 0 ls) (hempty : emptyAfter 0 ls = 0)
    (before : List (List CodePoint)) :
    layoutLines (first :: before ++ l :: ls ++ [[]]) =
      first :: settleLines 0 before ++ l :: ls := by
  have hsettled := settleLines_block hl hls hempty 0 (first :: before) [[]]
  rw [show settleLines 0 [[]] = [[]] from rfl] at hsettled
  rw [layoutLines, hsettled, settleLines, hfirst.trimEnd_eq, if_neg hfirst.ne_nil,
    trimLines_eq hfirst.ne_nil hl.ne_nil hempty]

/-- A first line that stays begins what the layout makes of a text. -/
theorem layoutLines_first {first : List CodePoint} (h : IsFull first) (ls : List (List CodePoint)) :
    ∃ kept, layoutLines (first :: ls) = first :: kept := by
  have hhead : first.isEmpty = false := by simpa using h.ne_nil
  obtain ⟨kept, hkept⟩ := dropWhile_isEmpty_ends h.ne_nil (settleLines 0 ls).reverse []
  refine ⟨kept.reverse, ?_⟩
  rw [layoutLines, settleLines, h.trimEnd_eq, if_neg h.ne_nil, trimLines,
    List.dropWhile_cons_of_neg (by simp [hhead]), List.reverse_cons, hkept]
  simp

/-- Between two lines that stay, the first of which begins the text, the layout settles all lines. -/
theorem layoutLines_between {first l : List CodePoint} (hfirst : IsFull first) (hl : IsFull l)
    (before after : List (List CodePoint)) :
    ∃ kept, layoutLines (first :: before ++ l :: after) =
      first :: settleLines 0 before ++ l :: kept := by
  have hsettled : settleLines 0 (first :: before ++ l :: after) =
      first :: settleLines 0 before ++ l :: settleLines 0 after := by
    rw [settleLines_full hl, settleLines, hfirst.trimEnd_eq, if_neg hfirst.ne_nil]
  have hhead : first.isEmpty = false := by simpa using hfirst.ne_nil
  obtain ⟨kept, hkept⟩ := dropWhile_isEmpty_ends hl.ne_nil (settleLines 0 after).reverse
    (first :: settleLines 0 before).reverse
  refine ⟨kept.reverse, ?_⟩
  rw [layoutLines, hsettled, trimLines, List.cons_append,
    List.dropWhile_cons_of_neg (by simp [hhead]), ← List.cons_append, List.reverse_append,
    List.reverse_cons, List.append_assoc, List.singleton_append, hkept]
  simp

/-- The lines of a text made of pieces, one below the other, are the lines of the pieces. -/
theorem splitOn_intercalate_pieces {pieces : List (List CodePoint)} (h : pieces ≠ []) :
    ([char '\n'].intercalate pieces).splitOn (char '\n') =
      pieces.flatMap fun cs => cs.splitOn (char '\n') := by
  induction pieces with
  | nil => exact absurd rfl h
  | cons cs pieces ih =>
    cases pieces with
    | nil => simp
    | cons ds pieces =>
      rw [List.intercalate_cons_cons, List.append_assoc, List.singleton_append,
        List.splitOn_append_cons_self, ih (by simp)]
      rfl

theorem not_mem_of_mem_splitOn {cs l : List CodePoint} {x : CodePoint} (h : l ∈ cs.splitOn x) :
    x ∉ l := by
  induction cs generalizing l with
  | nil =>
    rw [List.splitOn_nil, List.mem_singleton] at h
    simp [h]
  | cons c cs ih =>
    obtain ⟨k, ks, hks⟩ := List.exists_cons_of_ne_nil (List.splitOn_ne_nil x cs)
    rw [List.splitOn_cons_eq_if_modifyHead, hks] at h
    rw [hks] at ih
    split at h
    · rcases List.mem_cons.mp h with rfl | h
      · simp
      · exact ih h
    · rename_i hc
      rcases List.mem_cons.mp h with rfl | h
      · have hne : x ≠ c := fun heq => hc (beq_iff_eq.mpr heq.symm)
        simpa [hne] using ih List.mem_cons_self
      · exact ih (List.mem_cons_of_mem k h)

theorem subset_of_mem_splitOn {cs l : List CodePoint} {x : CodePoint} (h : l ∈ cs.splitOn x) :
    l ⊆ cs := by
  induction cs generalizing l with
  | nil =>
    rw [List.splitOn_nil, List.mem_singleton] at h
    simp [h]
  | cons c cs ih =>
    obtain ⟨k, ks, hks⟩ := List.exists_cons_of_ne_nil (List.splitOn_ne_nil x cs)
    rw [List.splitOn_cons_eq_if_modifyHead, hks] at h
    rw [hks] at ih
    have hrest {j : List CodePoint} (hj : j ∈ k :: ks) : j ⊆ c :: cs :=
      List.Subset.trans (ih hj) (List.subset_cons_self c cs)
    split at h
    · rcases List.mem_cons.mp h with rfl | h
      · exact List.nil_subset _
      · exact hrest h
    · rcases List.mem_cons.mp h with rfl | h
      · exact List.cons_subset_cons c (ih List.mem_cons_self)
      · exact hrest (List.mem_cons_of_mem k h)

theorem mem_settleLines {empty : Nat} {ls : List (List CodePoint)} {l : List CodePoint}
    (h : l ∈ settleLines empty ls) : l = [] ∨ ∃ k ∈ ls, l = trimEnd k := by
  induction ls generalizing empty with
  | nil => cases h
  | cons k ls ih =>
    have hrest {e : Nat} (hmem : l ∈ settleLines e ls) : l = [] ∨ ∃ k' ∈ k :: ls, l = trimEnd k' :=
      (ih hmem).imp_right fun ⟨k', hk', hl⟩ => ⟨k', List.mem_cons_of_mem k hk', hl⟩
    rw [settleLines] at h
    split at h
    · split at h
      · rcases List.mem_cons.mp h with rfl | h
        · exact Or.inl rfl
        · exact hrest h
      · exact hrest h
    · rcases List.mem_cons.mp h with rfl | h
      · exact Or.inr ⟨k, List.mem_cons_self, rfl⟩
      · exact hrest h

theorem mem_layoutLines {ls : List (List CodePoint)} {l : List CodePoint} (h : l ∈ layoutLines ls) :
    l = [] ∨ ∃ k ∈ ls, l = trimEnd k := by
  have hmem := (List.dropWhile_sublist _).subset (List.mem_reverse.mp h)
  have hsettled : l ∈ settleLines 0 ls :=
    (List.dropWhile_sublist _).subset (List.mem_reverse.mp hmem)
  exact mem_settleLines hsettled

theorem mem_intercalate {sep : List CodePoint} {ls : List (List CodePoint)} {c : CodePoint}
    (h : c ∈ sep.intercalate ls) : c ∈ sep ∨ ∃ l ∈ ls, c ∈ l := by
  induction ls with
  | nil => cases h
  | cons l ls ih =>
    cases ls with
    | nil => exact Or.inr ⟨l, List.mem_cons_self, by simpa using h⟩
    | cons k ls =>
      rw [List.intercalate_cons_cons] at h
      rcases List.mem_append.mp h with h | h
      · rcases List.mem_append.mp h with h | h
        · exact Or.inr ⟨l, List.mem_cons_self, h⟩
        · exact Or.inl h
      · exact (ih h).imp_right fun ⟨j, hj, hc⟩ => ⟨j, List.mem_cons_of_mem l hj, hc⟩

/-- The layout adds line feeds only. -/
theorem mem_layoutChars {cs : List CodePoint} {c : CodePoint} (h : c ∈ layoutChars cs) :
    c = '\n' ∨ c ∈ cs := by
  rcases List.mem_append.mp h with h | h
  · rcases mem_intercalate h with h | ⟨l, hl, hc⟩
    · exact Or.inl (List.mem_singleton.mp h)
    · rcases mem_layoutLines hl with rfl | ⟨k, hk, rfl⟩
      · cases hc
      · exact Or.inr (subset_of_mem_splitOn hk ((trimEnd_isPrefix k).subset hc))
  · exact Or.inl (List.mem_singleton.mp h)

/-- A text that has been laid out has the lines of the layout, and nothing behind the last one. -/
theorem splitOn_layoutChars {cs : List CodePoint} (h : layoutLines (cs.splitOn (char '\n')) ≠ []) :
    (layoutChars cs).splitOn (char '\n') = layoutLines (cs.splitOn (char '\n')) ++ [[]] := by
  rw [layoutChars, List.splitOn_append_cons_self, List.splitOn_nil, List.splitOn_intercalate _ _ h]
  intro l hl
  rcases mem_layoutLines hl with rfl | ⟨k, hk, rfl⟩
  · simp
  · exact fun hmem => not_mem_of_mem_splitOn hk ((trimEnd_isPrefix k).subset hmem)

/-- The text of lines each of which ends. -/
def ofLines (ls : List (List CodePoint)) : List CodePoint :=
  ls.flatMap (· ++ [char '\n'])

@[simp] theorem ofLines_nil : ofLines [] = [] := rfl

@[simp] theorem ofLines_cons (l : List CodePoint) (ls : List (List CodePoint)) :
    ofLines (l :: ls) = l ++ char '\n' :: ofLines ls := by
  simp [ofLines]

@[simp] theorem ofLines_append (ls ms : List (List CodePoint)) :
    ofLines (ls ++ ms) = ofLines ls ++ ofLines ms :=
  List.flatMap_append

theorem ofLines_eq_intercalate {ls : List (List CodePoint)} (h : ls ≠ []) :
    ofLines ls = [char '\n'].intercalate ls ++ [char '\n'] := by
  induction ls with
  | nil => exact absurd rfl h
  | cons l ls ih =>
    cases ls with
    | nil => simp
    | cons k ls =>
      rw [ofLines_cons, ih (by simp), List.intercalate_cons_cons]
      simp

/-- The text that the layout makes of pieces below one another. -/
theorem layoutChars_eq_ofLines {pieces kept : List (List CodePoint)}
    (h : layoutLines (pieces.flatMap fun cs => cs.splitOn (char '\n')) = kept) (hkept : kept ≠ []) :
    layoutChars ([char '\n'].intercalate pieces) = ofLines kept := by
  have hpieces : pieces ≠ [] := by
    rintro rfl
    exact hkept h.symm
  rw [layoutChars, splitOn_intercalate_pieces hpieces, h, ofLines_eq_intercalate hkept]

theorem flatMap_splitOn_of_not_mem {ls : List (List CodePoint)} (h : ∀ l ∈ ls, char '\n' ∉ l) :
    (ls.flatMap fun l => l.splitOn (char '\n')) = ls := by
  induction ls with
  | nil => rfl
  | cons l ls ih =>
    rw [List.flatMap_cons, List.splitOn_eq_singleton (h l List.mem_cons_self),
      ih fun k hk => h k (List.mem_cons_of_mem l hk)]
    rfl

/-- Pieces at the end of a text that the layout does not touch are the last lines of what it makes
of the text, if the piece in front of them ends in a line that stays. -/
theorem layoutChars_ends {head ls : List (List CodePoint)} {last : List CodePoint}
    (hlast : head.getLast? = some last) (hfull : IsFull last) (hfeed : ∀ l ∈ ls, char '\n' ∉ l)
    (hls : IsSettled 0 ls) (hempty : emptyAfter 0 ls = 0) :
    ∃ kept, (layoutChars ([char '\n'].intercalate (head ++ ls ++ [[]]))).splitOn (char '\n') =
      kept ++ ls ++ [[]] := by
  obtain ⟨init, rfl⟩ := List.getLast?_eq_some_iff.mp hlast
  obtain ⟨before, l, hsplit, hl⟩ := hfull.exists_last
  have hlines : ([char '\n'].intercalate (init ++ [last] ++ ls ++ [[]])).splitOn (char '\n') =
      (init.flatMap fun cs => cs.splitOn (char '\n')) ++ before ++ l :: ls ++ [[]] := by
    rw [splitOn_intercalate_pieces (by simp)]
    simp only [List.flatMap_append, List.flatMap_singleton, flatMap_splitOn_of_not_mem hfeed,
      hsplit, List.splitOn_nil]
    simp
  obtain ⟨kept, hkept⟩ :=
    layoutLines_ends ((init.flatMap fun cs => cs.splitOn (char '\n')) ++ before) hl hls hempty
  refine ⟨kept ++ [l], ?_⟩
  rw [splitOn_layoutChars, hlines, hkept]
  · simp
  · rw [hlines, hkept]
    simp

end PrefAccessor.Text
