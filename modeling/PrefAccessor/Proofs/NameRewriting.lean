import Mathlib.Data.List.Basic
import PrefAccessor.Naming

/-!
# Snake case by rewriting

Three rewritings of a text put the underscores of snake case in place: two part words, at the end of a
row of capitals and at a single capital, and the third one joins neighbouring underscores. A rewriting
takes the matches from the left, none inside another. Looking at each character with its neighbours
comes to the same: `isSnakeOf_iff`.
-/

namespace PrefAccessor

set_option autoImplicit false

open Text

namespace Text

/-- What a match at the beginning of a text is replaced by, and what follows the match. -/
abbrev Matcher := List CodePoint → Option (List CodePoint × List CodePoint)

/-- A text and what becomes of it if the matches in it are replaced, the first one first; the next one
is looked for behind it. -/
inductive Rewrites (m : Matcher) : List CodePoint → List CodePoint → Prop
  | done : Rewrites m [] []
  | replace {cs new rest out : List CodePoint} (hmatch : m cs = some (new, rest))
    (hrest : Rewrites m rest out) : Rewrites m cs (new ++ out)
  | skip {c : CodePoint} {cs out : List CodePoint} (hnone : m (c :: cs) = none)
    (hrest : Rewrites m cs out) : Rewrites m (c :: cs) (c :: out)

/-- A function that does at each place what the rewriting does there. -/
structure IsRewriting (m : Matcher) (f : List CodePoint → List CodePoint) : Prop where
  done : f [] = []
  shorter {cs new rest : List CodePoint} : m cs = some (new, rest) → rest.length < cs.length
  replace {cs new rest : List CodePoint} : m cs = some (new, rest) → f cs = new ++ f rest
  skip {c : CodePoint} {cs : List CodePoint} : m (c :: cs) = none → f (c :: cs) = c :: f cs

namespace IsRewriting

variable {m : Matcher} {f : List CodePoint → List CodePoint}

theorem rewrites (h : IsRewriting m f) (cs : List CodePoint) : Rewrites m cs (f cs) := by
  induction hlength : cs.length using Nat.strongRecOn generalizing cs with
  | _ n ih =>
    subst hlength
    cases hmatch : m cs with
    | some found =>
      rw [h.replace hmatch]
      exact .replace hmatch (ih _ (h.shorter hmatch) found.2 rfl)
    | none =>
      cases cs with
      | nil =>
        rw [h.done]
        exact .done
      | cons c cs =>
        rw [h.skip hmatch]
        exact .skip hmatch (ih _ (Nat.lt_succ_self _) cs rfl)

theorem rewrites_iff (h : IsRewriting m f) {cs out : List CodePoint} :
    Rewrites m cs out ↔ out = f cs := by
  refine ⟨fun hout => ?_, fun hout => hout ▸ h.rewrites cs⟩
  induction hout with
  | done => exact h.done.symm
  | replace hmatch _ ih => rw [h.replace hmatch, ih]
  | skip hnone _ ih => rw [h.skip hnone, ih]

end IsRewriting

end Text

namespace Naming

/-- Capitals, as many as there are, with a small letter behind them: the last capital begins a word, if
it is not the only one. -/
def rowMatch? : Matcher := fun cs =>
  match (cs.takeWhile isAsciiUpper).reverse, cs.dropWhile isAsciiUpper with
  | last :: c :: row, small :: rest =>
    if isAsciiLower small then some ((c :: row).reverse ++ [char '_', last, small], rest) else none
  | _, _ => none

/-- A small letter or a digit, and a capital: the capital begins a word. -/
def wordMatch? : Matcher
  | a :: b :: rest =>
    if (isAsciiLower a || isAsciiDigit a) && isAsciiUpper b then some ([a, char '_', b], rest) else none
  | _ => none

/-- Underscores, as many as there are. -/
def underscoresMatch? : Matcher
  | c :: cs => if isUnderscore c then some ([char '_'], cs.dropWhile isUnderscore) else none
  | [] => none

/-- A text and its snake case, step by step. -/
def IsSnakeOf (cs out : List CodePoint) : Prop :=
  ∃ rows words joined, Rewrites rowMatch? (cs.map fun c => if c = char '-' then char '_' else c) rows ∧
    Rewrites wordMatch? rows words ∧ Rewrites underscoresMatch? (lower words) joined ∧
    out = trimWhile isUnderscore joined

/-- The part of `separateHumps` that is about rows of capitals. -/
def separateRows : List CodePoint → List CodePoint
  | a :: b :: cs =>
    if isAsciiUpper a && isAsciiUpper b && (cs.head?.map isAsciiLower).getD false then
      a :: char '_' :: separateRows (b :: cs)
    else a :: separateRows (b :: cs)
  | cs => cs

/-- The part of `separateHumps` that is about single capitals. -/
def separateWords : List CodePoint → List CodePoint
  | a :: b :: cs =>
    if (isAsciiLower a || isAsciiDigit a) && isAsciiUpper b then a :: char '_' :: separateWords (b :: cs)
    else a :: separateWords (b :: cs)
  | cs => cs

theorem isAsciiUpper_of_lower {c : CodePoint} (h : isAsciiLower c = true) : isAsciiUpper c = false := by
  simp only [isAsciiLower, isAsciiUpper, Bool.and_eq_true, decide_eq_true_eq,
    Bool.and_eq_false_iff, decide_eq_false_iff_not] at h ⊢
  change 0x61 ≤ c.toNat ∧ _ at h
  change _ ∨ ¬ c.toNat ≤ 0x5A
  omega

theorem not_lower_or_digit_of_upper {c : CodePoint} (h : isAsciiUpper c = true) :
    (isAsciiLower c || isAsciiDigit c) = false := by
  simp only [isAsciiLower, isAsciiDigit, isAsciiUpper, Bool.and_eq_true, decide_eq_true_eq,
    Bool.or_eq_false_iff, Bool.and_eq_false_iff, decide_eq_false_iff_not] at h ⊢
  change 0x41 ≤ c.toNat ∧ c.toNat ≤ 0x5A at h
  change (¬ 0x61 ≤ c.toNat ∨ _) ∧ (_ ∨ ¬ c.toNat ≤ 0x39)
  omega

theorem separateRows_cons (c : CodePoint) (cs : List CodePoint) :
    ∃ rest, separateRows (c :: cs) = c :: rest := by
  cases cs with
  | nil => exact ⟨[], rfl⟩
  | cons d cs =>
    rw [separateRows]
    split
    · exact ⟨_, rfl⟩
    · exact ⟨_, rfl⟩

theorem separateRows_of_not_upper {c : CodePoint} (h : isAsciiUpper c = false) (cs : List CodePoint) :
    separateRows (c :: cs) = c :: separateRows cs := by
  cases cs with
  | nil => rfl
  | cons d cs => rw [separateRows, h, Bool.false_and, Bool.false_and, if_neg Bool.false_ne_true]

theorem separateWords_cons {c : CodePoint} (h : (isAsciiLower c || isAsciiDigit c) = false)
    (cs : List CodePoint) : separateWords (c :: cs) = c :: separateWords cs := by
  cases cs with
  | nil => rfl
  | cons d cs => rw [separateWords, h, Bool.false_and, if_neg Bool.false_ne_true]

/-- A capital stands before what the one part puts in, a small letter or a digit before what the other
does: the one may come after the other. -/
theorem separateHumps_eq (cs : List CodePoint) :
    separateHumps cs = separateWords (separateRows cs) := by
  fun_induction separateRows cs with
  | case1 a b cs hrow ih =>
    simp only [Bool.and_eq_true] at hrow
    have hhump : startsHump a b cs.head? = true := by simp [startsHump, hrow]
    rw [separateHumps, if_pos hhump, ih, separateWords_cons (not_lower_or_digit_of_upper hrow.1.1),
      separateWords_cons (by decide)]
  | case2 a b cs hrow ih =>
    have hhump : startsHump a b cs.head? =
        ((isAsciiLower a || isAsciiDigit a) && isAsciiUpper b) := by
      rw [startsHump]
      grind
    obtain ⟨rest, hrest⟩ := separateRows_cons b cs
    rw [separateHumps, hhump, ih, hrest, separateWords]
  | case3 cs hcs =>
    match cs, hcs with
    | [], _ => rfl
    | [_], _ => rfl
    | a :: b :: cs, hcs => exact absurd rfl (hcs a b cs)

theorem rowMatch?_eq_some {cs new rest : List CodePoint} (h : rowMatch? cs = some (new, rest)) :
    ∃ row last small, cs = row ++ last :: small :: rest ∧ new = row ++ [char '_', last, small] ∧
      row ≠ [] ∧ (∀ c ∈ row, isAsciiUpper c = true) ∧ isAsciiUpper last = true ∧
      isAsciiLower small = true := by
  rw [rowMatch?] at h
  split at h
  · rename_i last c row small rest' htake hdrop
    split at h
    · rename_i hsmall
      obtain ⟨rfl, rfl⟩ := Prod.mk.inj (Option.some.inj h)
      have htake : cs.takeWhile isAsciiUpper = (c :: row).reverse ++ [last] := by
        rw [← List.reverse_reverse (cs.takeWhile isAsciiUpper), htake, List.reverse_cons]
      have hcapitals : ∀ d ∈ (c :: row).reverse ++ [last], isAsciiUpper d = true := by
        intro d hd
        rw [← htake] at hd
        exact List.all_eq_true.mp (List.all_takeWhile) d hd
      refine ⟨(c :: row).reverse, last, small, ?_, rfl, by simp,
        fun d hd => hcapitals d (List.mem_append_left _ hd), hcapitals last (by simp), hsmall⟩
      rw [← List.takeWhile_append_dropWhile (p := isAsciiUpper) (l := cs), htake, hdrop,
        List.append_assoc, List.singleton_append]
    · cases h
  · cases h

/-- A row of capitals is parted in front of its last one. -/
theorem separateRows_row {row : List CodePoint} {last small : CodePoint}
    (hrow : ∀ c ∈ row, isAsciiUpper c = true) (hne : row ≠ [])
    (hlast : isAsciiUpper last = true) (hsmall : isAsciiLower small = true) (rest : List CodePoint) :
    separateRows (row ++ last :: small :: rest) =
      row ++ char '_' :: last :: small :: separateRows rest := by
  have hnot := isAsciiUpper_of_lower hsmall
  induction row with
  | nil => exact absurd rfl hne
  | cons a row ih =>
    obtain ⟨ha, hrow⟩ := List.forall_mem_cons.mp hrow
    cases row with
    | nil => simp [separateRows, ha, hlast, hsmall, hnot, separateRows_of_not_upper hnot]
    | cons b row =>
      have hnext : ((row ++ last :: small :: rest).head?.map isAsciiLower).getD false = false := by
        have hcapital {c : CodePoint} (hc : isAsciiUpper c = true) : isAsciiLower c = false :=
          (Bool.or_eq_false_iff.mp (not_lower_or_digit_of_upper hc)).1
        cases row with
        | nil => exact hcapital hlast
        | cons c row => exact hcapital (hrow c (by simp))
      have hsplit := ih hrow (List.cons_ne_nil b row)
      rw [List.cons_append] at hsplit
      rw [List.cons_append, List.cons_append, separateRows, hnext, Bool.and_false,
        if_neg Bool.false_ne_true, hsplit, List.cons_append, List.cons_append, List.cons_append]

theorem isRewriting_separateRows : IsRewriting rowMatch? separateRows where
  done := rfl
  shorter h := by
    obtain ⟨row, last, small, rfl, -⟩ := rowMatch?_eq_some h
    simp only [List.length_append, List.length_cons]
    omega
  replace h := by
    obtain ⟨row, last, small, rfl, rfl, hne, hrow, hlast, hsmall⟩ := rowMatch?_eq_some h
    rw [separateRows_row hrow hne hlast hsmall, List.append_assoc]
    rfl
  skip {c cs} h := by
    cases cs with
    | nil => rfl
    | cons d cs =>
      rw [separateRows, if_neg]
      intro hrow
      simp only [Bool.and_eq_true] at hrow
      cases cs with
      | nil => cases hrow.2
      | cons small cs =>
        have hsmall : isAsciiLower small = true := hrow.2
        have hnot := isAsciiUpper_of_lower hsmall
        simp [rowMatch?, hrow.1, hsmall, hnot] at h

theorem wordMatch?_eq_some {cs new rest : List CodePoint} (h : wordMatch? cs = some (new, rest)) :
    ∃ a b, cs = a :: b :: rest ∧ new = [a, char '_', b] ∧ (isAsciiLower a || isAsciiDigit a) = true ∧
      isAsciiUpper b = true := by
  rw [wordMatch?.eq_def] at h
  split at h
  · rename_i a b rest'
    split at h
    · rename_i hword
      obtain ⟨rfl, rfl⟩ := Prod.mk.inj (Option.some.inj h)
      exact ⟨a, b, rfl, rfl, Bool.and_eq_true_iff.mp hword⟩
    · cases h
  · cases h

theorem isRewriting_separateWords : IsRewriting wordMatch? separateWords where
  done := rfl
  shorter h := by
    obtain ⟨a, b, rfl, -⟩ := wordMatch?_eq_some h
    simp only [List.length_cons]
    omega
  replace h := by
    obtain ⟨a, b, rfl, rfl, ha, hb⟩ := wordMatch?_eq_some h
    rw [separateWords, ha, hb, Bool.true_and, if_pos rfl,
      separateWords_cons (not_lower_or_digit_of_upper hb)]
    rfl
  skip {c cs} h := by
    cases cs with
    | nil => rfl
    | cons d cs =>
      rw [separateWords, if_neg]
      intro hword
      rw [wordMatch?, if_pos hword] at h
      cases h

theorem squeezeUnderscores_of_ne {c : CodePoint} (hc : c ≠ '_') (cs : List CodePoint) :
    squeezeUnderscores (c :: cs) = c :: squeezeUnderscores cs := by
  rw [squeezeUnderscores]
  exact fun _ h => absurd h hc

theorem squeezeUnderscores_underscore (cs : List CodePoint) :
    squeezeUnderscores (char '_' :: cs) =
      char '_' :: squeezeUnderscores (cs.dropWhile isUnderscore) := by
  induction cs with
  | nil => rfl
  | cons c cs ih =>
    by_cases hc : c = '_'
    · subst hc
      rw [squeezeUnderscores, ih]
      rfl
    · rw [List.dropWhile_cons_of_neg (by simp [isUnderscore, hc]), squeezeUnderscores]
      rintro ds - ⟨⟩
      exact hc rfl

theorem underscoresMatch?_eq_some {cs new rest : List CodePoint}
    (h : underscoresMatch? cs = some (new, rest)) :
    ∃ ds, cs = char '_' :: ds ∧ new = [char '_'] ∧ rest = ds.dropWhile isUnderscore := by
  rw [underscoresMatch?.eq_def] at h
  split at h
  · rename_i c ds
    split at h
    · rename_i hc
      obtain ⟨rfl, rfl⟩ := Prod.mk.inj (Option.some.inj h)
      exact ⟨ds, by rw [beq_iff_eq.mp hc], rfl, rfl⟩
    · cases h
  · cases h

theorem isRewriting_squeezeUnderscores : IsRewriting underscoresMatch? squeezeUnderscores where
  done := rfl
  shorter h := by
    obtain ⟨ds, rfl, rfl, rfl⟩ := underscoresMatch?_eq_some h
    exact Nat.lt_succ_of_le (List.dropWhile_sublist _).length_le
  replace h := by
    obtain ⟨ds, rfl, rfl, rfl⟩ := underscoresMatch?_eq_some h
    exact squeezeUnderscores_underscore ds
  skip {c cs} h := by
    by_cases hc : c = '_'
    · subst hc
      cases h
    · exact squeezeUnderscores_of_ne hc cs

/-- Snake case is what the rewritings make of a text, and nothing else is. -/
theorem isSnakeOf_iff {cs out : List CodePoint} : IsSnakeOf cs out ↔ out = snakeChars cs := by
  simp only [IsSnakeOf, isRewriting_separateRows.rewrites_iff,
    isRewriting_separateWords.rewrites_iff, isRewriting_squeezeUnderscores.rewrites_iff,
    snakeChars, separateHumps_eq]
  constructor
  · rintro ⟨rows, words, joined, rfl, rfl, rfl, rfl⟩
    rfl
  · rintro rfl
    exact ⟨_, _, _, rfl, rfl, rfl, rfl⟩

end Naming

end PrefAccessor
