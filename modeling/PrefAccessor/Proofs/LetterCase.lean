import PrefAccessor.Text.Case

/-!
# Small letters

What small letters are made of. A character below the small letters of ASCII comes from itself only,
and a character that another one has become does not change again: the code points that the runs of
the table lead to are spared by all runs. So a text in small letters stays as it is,
`lowercase_lowercase`.
-/

namespace PrefAccessor.Text

set_option autoImplicit false

namespace CaseRun

/-- The first code point that a run leads to. -/
def imageFirst (r : CaseRun) : Nat :=
  (r.first + r.shift).toNat

def imageLast (r : CaseRun) : Nat :=
  (r.last + r.shift).toNat

/-- Whether `r` moves no code point that `source` leads to: it lies elsewhere, or it takes every other
code point and the images are those between. -/
def spares (r source : CaseRun) : Bool :=
  source.imageLast.blt r.first || r.last.blt source.imageFirst ||
    (r.step.beq 2 && (source.step.beq 2 || source.first.beq source.last) &&
      ((source.imageFirst + r.first) % 2).beq 1)

theorem map?_eq_some {r : CaseRun} {n m : Nat} (h : r.map? n = some m) :
    r.first ≤ n ∧ n ≤ r.last ∧ (n - r.first) % r.step = 0 ∧ m = (n + r.shift).toNat := by
  unfold map? at h
  split at h
  · rename_i hn
    cases h
    exact ⟨hn.1, hn.2.1, hn.2.2, rfl⟩
  · cases h

theorem map?_eq_none_of_spares {r source : CaseRun} (h : r.spares source = true)
    (hpositive : 0 < source.imageFirst) {n m : Nat} (hm : source.map? n = some m) :
    r.map? m = none := by
  obtain ⟨hfirst, hlast, hstep, rfl⟩ := map?_eq_some hm
  unfold map?
  rw [if_neg]
  rintro ⟨hfirst', hlast', hstep'⟩
  simp only [spares, imageFirst, imageLast, Bool.or_eq_true, Bool.and_eq_true, Nat.beq_eq,
    Nat.blt_eq] at h hpositive
  rcases h with (h | h) | ⟨⟨htwo, h⟩, hodd⟩
  · omega
  · omega
  · rw [htwo] at hstep'
    rcases h with h | h
    · rw [h] at hstep
      omega
    · omega

/-- Every code point that a run leads to is a character, none below the small letters of ASCII. -/
def IsSound (r : CaseRun) : Prop :=
  0x61 ≤ r.imageFirst ∧
    (r.imageLast < 0xd800 ∨ 0xdfff < r.imageFirst ∧ r.imageLast < 0x110000)

instance (r : CaseRun) : Decidable r.IsSound :=
  inferInstanceAs (Decidable (_ ∧ _))

theorem IsSound.bounds {r : CaseRun} (hr : r.IsSound) {n m : Nat} (h : r.map? n = some m) :
    0x61 ≤ m ∧ m.isValidChar := by
  obtain ⟨hfirst, hlast, -, rfl⟩ := map?_eq_some h
  unfold IsSound imageFirst imageLast at hr
  unfold Nat.isValidChar
  omega

end CaseRun

theorem lowerRuns_spared :
    (lowerRuns.all fun source => lowerRuns.all fun r => r.spares source) = true := by
  decide +kernel

theorem lowerExpansions_spared :
    ∀ e ∈ lowerExpansions, ∀ source ∈ lowerRuns, CaseRun.spares ⟨e.1, e.1, 1, 0⟩ source = true := by
  decide +kernel

theorem lowerRuns_isSound : ∀ r ∈ lowerRuns, r.IsSound := by
  decide +kernel

theorem lowerExpansions_bounds :
    ∀ e ∈ lowerExpansions, ∀ n ∈ e.2, 0x61 ≤ n ∧ (CodePoint.ofNat n).toNat = n := by
  decide

/-- Where a character of a small form comes from. -/
theorem mem_lowerChar_cases {c d : CodePoint} (h : d ∈ lowerChar c) :
    (c.toNat < 0x80 ∧ d = c.toLower) ∨
    (∃ e ∈ lowerExpansions, ∃ n ∈ e.2, d = CodePoint.ofNat n) ∨
    (∃ r ∈ lowerRuns, ∃ n, r.map? c.toNat = some n ∧ d = CodePoint.ofNat n) ∨
    (d = c ∧ lowerChar c = [c] ∧ lowerRuns.findSome? (·.map? c.toNat) = none) := by
  by_cases hascii : c.toNat < 0x80
  · rw [lowerChar_of_ascii hascii] at h
    exact Or.inl ⟨hascii, List.mem_singleton.mp h⟩
  · unfold lowerChar mapCase at h ⊢
    rw [if_neg hascii] at h ⊢
    split at h
    · rename_i ns hns
      obtain ⟨n, hn, rfl⟩ := List.mem_map.mp h
      obtain ⟨front, rest, htable, -⟩ := List.lookup_eq_some_iff.mp hns
      exact Or.inr (Or.inl ⟨(c.toNat, ns), by rw [htable]; simp, n, hn, rfl⟩)
    · split at h
      · rename_i n hn
        obtain ⟨r, hr, hmap⟩ := List.exists_of_findSome?_eq_some hn
        exact Or.inr (Or.inr (Or.inl ⟨r, hr, n, hmap, List.mem_singleton.mp h⟩))
      · rename_i hexpansion hrun
        exact Or.inr (Or.inr (Or.inr ⟨List.mem_singleton.mp h, rfl, hrun⟩))

theorem toNat_ofNat_of_isValidChar {n : Nat} (h : n.isValidChar) : (CodePoint.ofNat n).toNat = n := by
  have hnot : ¬ (0xd800 ≤ n ∧ n < 0xe000) := by
    change n < 0xd800 ∨ 0xdfff < n ∧ n < 0x110000 at h
    omega
  rw [CodePoint.ofNat, dif_neg hnot, CodePoint.toNat_char, Char.ofNat, dif_pos h]
  rfl

/-- A character that another one becomes is no smaller than the small letters of ASCII. -/
theorem mem_lowerChar_of_lt {c d : CodePoint} (h : d ∈ lowerChar c) (hd : d.toNat < 0x61) : d = c := by
  rcases mem_lowerChar_cases h with ⟨hlt, rfl⟩ | ⟨e, he, n, hn, rfl⟩ | ⟨r, hr, n, hn, rfl⟩ | ⟨rfl, -⟩
  · have hascii : c.toLower.toNat < 0x61 → c.toLower = c := forall_ascii hlt (by decide)
    exact hascii hd
  · obtain ⟨hbound, hnat⟩ := lowerExpansions_bounds e he n hn
    omega
  · obtain ⟨hbound, hvalid⟩ := (lowerRuns_isSound r hr).bounds hn
    rw [toNat_ofNat_of_isValidChar hvalid] at hd
    omega
  · rfl

/-- A character that small letters may hold: it stays as it is, and its place does not matter. -/
def IsSmall (c : CodePoint) : Prop :=
  lowerChar c = [c] ∧ c ≠ 'Σ'

theorem isSmall_toLower {c : CodePoint} (h : c.toNat < 0x80) : IsSmall c.toLower := by
  have hc : c.toLower.toLower = c.toLower ∧ c.toLower.toNat < 0x80 := forall_ascii h (by decide)
  refine ⟨by rw [lowerChar_of_ascii hc.2, hc.1], ?_⟩
  intro hsigma
  rw [hsigma] at hc
  exact absurd hc.2 (by decide)

theorem not_unmoved_sigma : lowerRuns.findSome? (·.map? (char 'Σ').toNat) ≠ none := by
  decide +kernel

/-- A code point that no rule of the table moves. -/
theorem isSmall_of_unmoved {c : CodePoint} (hletter : 0x5b ≤ c.toNat)
    (hexpansions : ∀ e ∈ lowerExpansions, e.1 ≠ c.toNat)
    (hruns : ∀ r ∈ lowerRuns, r.map? c.toNat = none) : IsSmall c := by
  have hnone : lowerRuns.findSome? (·.map? c.toNat) = none := List.findSome?_eq_none_iff.mpr hruns
  constructor
  · by_cases hascii : c.toNat < 0x80
    · have hsmall : 0x5b ≤ c.toNat → c.toLower = c := forall_ascii hascii (by decide)
      rw [lowerChar_of_ascii hascii, hsmall hletter]
    · have hlookup : lowerExpansions.lookup c.toNat = none := by
        rw [List.lookup_eq_none_iff]
        intro e he
        simpa using (hexpansions e he).symm
      unfold lowerChar mapCase
      rw [if_neg hascii, hlookup, hnone]
  · rintro rfl
    exact not_unmoved_sigma hnone

theorem isSmall_of_mem_lowerChar {c d : CodePoint} (hc : c ≠ 'Σ') (h : d ∈ lowerChar c) : IsSmall d := by
  rcases mem_lowerChar_cases h with
    ⟨hlt, rfl⟩ | ⟨e, he, n, hn, rfl⟩ | ⟨r, hr, n, hn, rfl⟩ | ⟨rfl, hfixed, -⟩
  · exact isSmall_toLower hlt
  · have hexpansions : ∀ e ∈ lowerExpansions, ∀ n ∈ e.2, 0x5b ≤ (CodePoint.ofNat n).toNat ∧
        (∀ e' ∈ lowerExpansions, e'.1 ≠ (CodePoint.ofNat n).toNat) ∧
        ∀ r ∈ lowerRuns, r.map? (CodePoint.ofNat n).toNat = none := by decide +kernel
    obtain ⟨hletter, hother, hruns⟩ := hexpansions e he n hn
    exact isSmall_of_unmoved hletter hother hruns
  · have hsound := lowerRuns_isSound r hr
    have hpositive : 0 < r.imageFirst := Nat.lt_of_lt_of_le (by decide) hsound.1
    obtain ⟨hbound, hvalid⟩ := hsound.bounds hn
    have hnat := toNat_ofNat_of_isValidChar hvalid
    refine isSmall_of_unmoved (by omega) ?_ ?_
    · rintro e he heq
      have hnone := CaseRun.map?_eq_none_of_spares (lowerExpansions_spared e he r hr) hpositive hn
      rw [hnat] at heq
      simp [CaseRun.map?, heq] at hnone
    · intro r' hr'
      rw [hnat]
      have hall := List.all_eq_true.mp (List.all_eq_true.mp lowerRuns_spared r hr) r' hr'
      exact CaseRun.map?_eq_none_of_spares hall hpositive hn
  · exact ⟨hfixed, hc⟩

theorem mem_lowerAfter_of_lt {before cs : List CodePoint} {d : CodePoint} (hd : d.toNat < 0x61)
    (h : d ∈ lowerAfter before cs) : d ∈ cs := by
  induction cs generalizing before with
  | nil => exact h
  | cons c cs ih =>
    rw [lowerAfter] at h
    rcases List.mem_append.mp h with h | h
    · split at h
      · exfalso
        have hsigma : (char 'ς').toNat = 0x3c2 ∧ (char 'σ').toNat = 0x3c3 := by decide
        split at h
        · rw [List.mem_singleton.mp h] at hd
          omega
        · rw [List.mem_singleton.mp h] at hd
          omega
      · rw [mem_lowerChar_of_lt h hd]
        exact List.mem_cons_self
    · exact List.mem_cons_of_mem c (ih h)

theorem isSmall_of_mem_lowerAfter {before cs : List CodePoint} {d : CodePoint}
    (h : d ∈ lowerAfter before cs) : IsSmall d := by
  induction cs generalizing before with
  | nil => cases h
  | cons c cs ih =>
    rw [lowerAfter] at h
    rcases List.mem_append.mp h with h | h
    · split at h
      · have hsigma : IsSmall 'ς' ∧ IsSmall 'σ' := by
          refine ⟨⟨?_, ?_⟩, ?_, ?_⟩ <;> decide +kernel
        split at h
        · exact List.mem_singleton.mp h ▸ hsigma.1
        · exact List.mem_singleton.mp h ▸ hsigma.2
      · rename_i hc
        exact isSmall_of_mem_lowerChar hc h
    · exact ih h

theorem lowerAfter_of_isSmall {cs : List CodePoint} (h : ∀ c ∈ cs, IsSmall c) (before : List CodePoint) :
    lowerAfter before cs = cs := by
  induction cs generalizing before with
  | nil => rfl
  | cons c cs ih =>
    obtain ⟨hfixed, hsigma⟩ := h c List.mem_cons_self
    rw [lowerAfter, if_neg hsigma, hfixed, ih (fun d hd => h d (List.mem_cons_of_mem c hd))]
    rfl

theorem lowercase_lowercase (s : Text) : lowercase (lowercase s) = lowercase s := by
  have hsmall : ∀ c ∈ lower s.toList, IsSmall c := fun c hc => isSmall_of_mem_lowerAfter hc
  rw [lowercase, lowercase, Text.toList_ofList]
  exact congrArg Text.ofList (lowerAfter_of_isSmall hsmall [])

end PrefAccessor.Text
