import PrefAccessor.Text.CaseTable

/-!
# Letter case

The full case mappings of Unicode: one letter may become several, and a capital sigma becomes the
final form exactly at the end of a word, that is after a cased character and before none, where
ignorable characters on either side are skipped.
-/

namespace PrefAccessor.Text

set_option autoImplicit false

def CaseRun.map? (r : CaseRun) (n : Nat) : Option Nat :=
  if r.first ≤ n ∧ n ≤ r.last ∧ (n - r.first) % r.step = 0 then some (n + r.shift).toNat else none

/-- The mapping of one character: the rule for ASCII, else the tables, else itself. -/
def mapCase (ascii : CodePoint → CodePoint) (expansions : List (Nat × List Nat)) (runs : List CaseRun)
    (c : CodePoint) : List CodePoint :=
  if c.toNat < 0x80 then [ascii c]
  else match expansions.lookup c.toNat with
    | some ns => ns.map CodePoint.ofNat
    | none =>
      match runs.findSome? (·.map? c.toNat) with
      | some n => [CodePoint.ofNat n]
      | none => [c]

def upperChar (c : CodePoint) : List CodePoint :=
  mapCase CodePoint.toUpper upperExpansions upperRuns c

/-- The small form of a character outside any word. -/
def lowerChar (c : CodePoint) : List CodePoint :=
  mapCase CodePoint.toLower lowerExpansions lowerRuns c

/-- Whether the first character that is not ignorable is cased. -/
def nextIsCased (cs : List CodePoint) : Bool :=
  ((cs.dropWhile (inRanges caseIgnorableRanges)).head?.map (inRanges casedRanges)).getD false

/-- Small letters throughout; `before` holds what precedes, nearest first. -/
def lowerAfter (before : List CodePoint) : List CodePoint → List CodePoint
  | [] => []
  | c :: cs =>
    (if c = 'Σ' then [if nextIsCased before && !nextIsCased cs then char 'ς' else 'σ'] else lowerChar c)
      ++ lowerAfter (c :: before) cs

def lower (cs : List CodePoint) : List CodePoint :=
  lowerAfter [] cs

def upper (cs : List CodePoint) : List CodePoint :=
  cs.flatMap upperChar

def lowercase (s : Text) : Text :=
  Text.ofList (lower s.toList)

/-- What holds of all ASCII characters can be found out by trying them. -/
@[elab_as_elim]
theorem forall_ascii {P : CodePoint → Prop} {c : CodePoint} (hc : c.toNat < 0x80)
    (h : ∀ n : Fin 0x80, P (CodePoint.ofNat n)) : P c := by
  have hn := h ⟨c.toNat, hc⟩
  rwa [CodePoint.ofNat_toNat] at hn

theorem lowerChar_of_ascii {c : CodePoint} (h : c.toNat < 0x80) : lowerChar c = [c.toLower] := by
  simp [lowerChar, mapCase, h]

theorem upperChar_of_ascii {c : CodePoint} (h : c.toNat < 0x80) : upperChar c = [c.toUpper] := by
  simp [upperChar, mapCase, h]

theorem lowerAfter_of_ascii (before : List CodePoint) {cs : List CodePoint}
    (h : ∀ c ∈ cs, c.toNat < 0x80) : lowerAfter before cs = cs.map CodePoint.toLower := by
  induction cs generalizing before with
  | nil => rfl
  | cons c cs ih =>
    have hc : c.toNat < 0x80 := h c (by simp)
    have hsigma : c ≠ 'Σ' := by
      rintro rfl
      exact absurd hc (by decide)
    simp [lowerAfter, hsigma, lowerChar_of_ascii hc,
      ih (c :: before) fun d hd => h d (by simp [hd])]

theorem lower_of_ascii {cs : List CodePoint} (h : ∀ c ∈ cs, c.toNat < 0x80) :
    lower cs = cs.map CodePoint.toLower :=
  lowerAfter_of_ascii [] h

end PrefAccessor.Text
