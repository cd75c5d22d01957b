import PrefAccessor.Proofs.MethodText

/-!
# Reading code

A text of code is read character by character into pieces: what a literal or a comment holds is
dropped, all other characters are kept. So two texts that are read as the same pieces have the same
code outside their literals and comments. Supplies the reading of a text from that of its parts and
of its lines.
-/

namespace PrefAccessor.Reading

set_option autoImplicit false

inductive Piece where
  | code (c : CodePoint)
  /-- A literal or doc string, whatever it holds. -/
  | literal
  | comment
  deriving DecidableEq, Repr

/-- The pieces of a text without literals and comments. -/
def code (s : Text) : List Piece :=
  s.toList.map .code

theorem code_append (s t : Text) : code (s ++ t) = code s ++ code t := by
  simp [code]

/-- A text in which each `c` has been replaced by `text`. -/
def replaced (c : CodePoint) (text cs : List CodePoint) : List CodePoint :=
  cs.flatMap fun d => if d = c then text else [d]

/-- A text on one line, all of whose characters are in a class. -/
def IsPlain (plain : CodePoint → Bool) (s : Text) : Prop :=
  ∀ c ∈ s.toList, (plain c && c != '\n') = true

section

variable {plain : CodePoint → Bool}

instance (s : Text) : Decidable (IsPlain plain s) :=
  List.decidableBAll (fun c => (plain c && c != '\n') = true) s.toList

theorem isPlain_append {s t : Text} :
    IsPlain plain (s ++ t) ↔ IsPlain plain s ∧ IsPlain plain t := by
  simp only [IsPlain, Text.toList_append, List.mem_append, or_imp, forall_and]

theorem isPlain_ofList {cs : List Char}
    (h : (cs.map char).all (fun c => plain c && c != char '\n') = true) :
    IsPlain plain (String.ofList cs) := by
  intro c hc
  rw [Text.toList_plain, String.toList_ofList] at hc
  exact List.all_eq_true.mp h c hc

theorem IsPlain.mem {s : Text} (h : IsPlain plain s) {c : CodePoint} (hc : c ∈ s.toList) :
    plain c = true :=
  (Bool.and_eq_true_iff.mp (h c hc)).1

theorem IsPlain.feedless {s : Text} (h : IsPlain plain s) : Feedless s := by
  intro hmem
  simpa using h '\n' hmem

/-- Numbers and words are plain where their characters are. -/
theorem isPlain_of_isNumeral (hplain : ∀ c, Number.isNumeralChar c = true → plain c = true)
    {s : Text} (h : Number.IsNumeral s.toList) : IsPlain plain s := by
  intro c hc
  have hfeed : c ≠ '\n' := by
    rintro rfl
    exact absurd (h _ hc) (by decide)
  simp [hplain c (h c hc), hfeed]

theorem isPlain_of_isWord (hplain : ∀ c, Number.isNumeralChar c = true → plain c = true)
    {s : Text} (h : Naming.IsWord s.toList) : IsPlain plain s := by
  refine isPlain_of_isNumeral hplain fun c hc => ?_
  rw [Number.isNumeralChar, h c hc]
  rfl

end

variable {σ : Type}

/-- The mode and the pieces that a text leads to, by the rule for one character. -/
def run (step : σ → CodePoint → σ × List Piece) (mode : σ) : List CodePoint → σ × List Piece
  | [] => (mode, [])
  | c :: cs =>
    let next := step mode c
    let rest := run step next.1 cs
    (rest.1, next.2 ++ rest.2)

/-- A text is read from one mode into another as the given pieces. -/
def Reads (step : σ → CodePoint → σ × List Piece) (mode : σ) (cs : List CodePoint) (next : σ)
    (pieces : List Piece) : Prop :=
  run step mode cs = (next, pieces)

namespace Reads

variable {step : σ → CodePoint → σ × List Piece} {m m₁ m₂ : σ}

theorem nil (step : σ → CodePoint → σ × List Piece) (m : σ) : Reads step m [] m [] := rfl

theorem cons {c : CodePoint} {cs : List CodePoint} {ps qs : List Piece} (hc : step m c = (m₁, ps))
    (hcs : Reads step m₁ cs m₂ qs) : Reads step m (c :: cs) m₂ (ps ++ qs) := by
  unfold Reads at *
  rw [run, hc]
  simp only [hcs]

theorem single {c : CodePoint} {ps : List Piece} (hc : step m c = (m₁, ps)) :
    Reads step m [c] m₁ ps := by
  simpa using cons hc (nil step m₁)

theorem append {cs ds : List CodePoint} {ps qs : List Piece} (hcs : Reads step m cs m₁ ps)
    (hds : Reads step m₁ ds m₂ qs) : Reads step m (cs ++ ds) m₂ (ps ++ qs) := by
  induction cs generalizing m ps with
  | nil =>
    cases hcs
    exact hds
  | cons c cs ih =>
    unfold Reads at hcs
    rw [run] at hcs
    cases hcs
    rw [List.cons_append, List.append_assoc]
    exact cons rfl (ih rfl)

end Reads

/-- Lines of code, each of which ends. -/
def linePieces (ps : List (List Piece)) : List Piece :=
  ps.flatMap (· ++ [.code '\n'])

theorem linePieces_append (ps qs : List (List Piece)) :
    linePieces (ps ++ qs) = linePieces ps ++ linePieces qs :=
  List.flatMap_append

theorem linePieces_single (p : List Piece) : linePieces [p] = p ++ [.code '\n'] := by
  simp [linePieces]

theorem mem_code {s : Text} {c : CodePoint} : .code c ∈ code s ↔ c ∈ s.toList := by
  simp [code]

/-- Lines of text are read as the given lines of code. -/
def ReadsLines (step : σ → CodePoint → σ × List Piece) (mode : σ) (ls : List (List CodePoint)) (next : σ)
    (ps : List (List Piece)) : Prop :=
  Reads step mode (Text.ofLines ls) next (linePieces ps)

namespace ReadsLines

variable {step : σ → CodePoint → σ × List Piece} {m m₁ m₂ : σ}

theorem append {ls ks : List (List CodePoint)} {ps qs : List (List Piece)}
    (hls : ReadsLines step m ls m₁ ps) (hks : ReadsLines step m₁ ks m₂ qs) :
    ReadsLines step m (ls ++ ks) m₂ (ps ++ qs) := by
  unfold ReadsLines at *
  rw [Text.ofLines_append, linePieces_append]
  exact Reads.append hls hks

/-- One line, read together with its end. -/
theorem single {l : List CodePoint} {p : List Piece}
    (h : Reads step m (l ++ [char '\n']) m₁ (p ++ [.code '\n'])) : ReadsLines step m [l] m₁ [p] := by
  rw [ReadsLines, linePieces_single]
  simpa using h

theorem cons {l : List CodePoint} {p : List Piece} {ls : List (List CodePoint)} {ps : List (List Piece)}
    (h : Reads step m (l ++ [char '\n']) m₁ (p ++ [.code '\n'])) (hls : ReadsLines step m₁ ls m₂ ps) :
    ReadsLines step m (l :: ls) m₂ (p :: ps) :=
  (single h).append hls

theorem flatMap {α : Type} {text : α → List (List CodePoint)} {outline : α → List (List Piece)}
    {xs : List α} (h : ∀ x ∈ xs, ReadsLines step m (text x) m (outline x)) :
    ReadsLines step m (xs.flatMap text) m (xs.flatMap outline) := by
  induction xs with
  | nil => rfl
  | cons x xs ih =>
    rw [List.flatMap_cons, List.flatMap_cons]
    exact append (h x List.mem_cons_self) (ih fun y hy => h y (List.mem_cons_of_mem x hy))

theorem map {α : Type} {text : α → List CodePoint} {outline : α → List Piece} {xs : List α}
    (h : ∀ x ∈ xs, Reads step m (text x ++ [char '\n']) m (outline x ++ [.code '\n'])) :
    ReadsLines step m (xs.map text) m (xs.map outline) := by
  rw [List.map_eq_flatMap, List.map_eq_flatMap]
  exact flatMap fun x hx => single (h x hx)

/-- Lines inside a literal or comment, which come back to the same mode. -/
theorem skip {ls : List (List CodePoint)} (h : ∀ l ∈ ls, Reads step m (l ++ [char '\n']) m []) :
    ReadsLines step m ls m [] := by
  unfold ReadsLines
  induction ls with
  | nil => rfl
  | cons l ls ih =>
    have hrest := ih fun k hk => h k (List.mem_cons_of_mem l hk)
    simpa [Text.ofLines] using (h l List.mem_cons_self).append hrest

end ReadsLines

end PrefAccessor.Reading
