import Mathlib.Tactic.Tauto
import PrefAccessor.Proofs.AccessorName
import PrefAccessor.Text.Identifier

/-!
# The characters of accessor names

Whatever a field is called, its accessor names consist of ASCII letters, digits and underscores
behind their verbs. So they are identifiers and no keywords, and they end where anything else
begins.
-/

namespace PrefAccessor

set_option autoImplicit false

open Text

namespace Naming

/-- All characters are ASCII letters, digits or underscores. -/
def IsWord (cs : List CodePoint) : Prop :=
  ∀ c ∈ cs, isWordChar c = true

theorem isWord_iff {cs : List CodePoint} : IsWord cs ↔ cs.all isWordChar = true :=
  List.all_eq_true.symm

theorem toNat_lt_of_isWordChar {c : CodePoint} (h : isWordChar c = true) : c.toNat < 0x80 := by
  simp only [isWordChar, isAsciiUpper, isAsciiLower, isAsciiDigit, Bool.or_eq_true,
    Bool.and_eq_true, decide_eq_true_eq, beq_iff_eq] at h
  rcases h with ((⟨-, h⟩ | ⟨-, h⟩) | ⟨-, h⟩) | rfl
  · exact Nat.lt_of_le_of_lt h (by decide)
  · exact Nat.lt_of_le_of_lt h (by decide)
  · exact Nat.lt_of_le_of_lt h (by decide)
  · decide

theorem isWordChar_change {c : CodePoint} (h : isWordChar c = true) :
    isWordChar c.toUpper = true ∧ isWordChar c.toLower = true := by
  have hascii : isWordChar c = true →
      isWordChar c.toUpper = true ∧ isWordChar c.toLower = true :=
    forall_ascii (toNat_lt_of_isWordChar h) (by decide)
  exact hascii h

theorem isWordChar_toUpper {c : CodePoint} (h : isWordChar c = true) : isWordChar c.toUpper = true :=
  (isWordChar_change h).1

theorem isWordChar_toLower {c : CodePoint} (h : isWordChar c = true) : isWordChar c.toLower = true :=
  (isWordChar_change h).2

namespace IsWord

variable {cs ds : List CodePoint}

theorem append (hc : IsWord cs) (hd : IsWord ds) : IsWord (cs ++ ds) := by
  intro c h
  rcases List.mem_append.mp h with h | h
  · exact hc c h
  · exact hd c h

theorem subset (hc : IsWord cs) (h : ds ⊆ cs) : IsWord ds :=
  fun c hd => hc c (h hd)

theorem dropEndWhile (hc : IsWord cs) (p : CodePoint → Bool) : IsWord (Text.dropEndWhile p cs) := by
  refine hc.subset fun c h => ?_
  exact List.mem_reverse.mp ((List.dropWhile_sublist p).subset (List.mem_reverse.mp h))

theorem trimWhile (hc : IsWord cs) (p : CodePoint → Bool) : IsWord (Text.trimWhile p cs) :=
  IsWord.dropEndWhile (hc.subset (List.dropWhile_sublist p).subset) p

theorem capitalizeFirst (hc : IsWord cs) : IsWord (Naming.capitalizeFirst cs) := by
  cases cs with
  | nil => exact hc
  | cons c cs =>
    have hfirst := hc c List.mem_cons_self
    rw [Naming.capitalizeFirst, upperChar_of_ascii (toNat_lt_of_isWordChar hfirst)]
    intro d hd
    rcases List.mem_cons.mp hd with rfl | hd
    · exact isWordChar_toUpper hfirst
    · exact hc d (List.mem_cons_of_mem c hd)

theorem separateHumps (hc : IsWord cs) : IsWord (Naming.separateHumps cs) := by
  fun_induction Naming.separateHumps cs with
  | case1 a b cs h ih =>
    have hrest := ih (hc.subset (List.subset_cons_self a (b :: cs)))
    intro d hd
    rcases List.mem_cons.mp hd with rfl | hd
    · exact hc _ List.mem_cons_self
    · rcases List.mem_cons.mp hd with rfl | hd
      · decide
      · exact hrest d hd
  | case2 a b cs h ih =>
    have hrest := ih (hc.subset (List.subset_cons_self a (b :: cs)))
    intro d hd
    rcases List.mem_cons.mp hd with rfl | hd
    · exact hc _ List.mem_cons_self
    · exact hrest d hd
  | case3 cs h => exact hc

theorem squeezeUnderscores (hc : IsWord cs) : IsWord (Naming.squeezeUnderscores cs) := by
  fun_induction Naming.squeezeUnderscores cs with
  | case1 cs ih => exact ih (hc.subset (List.subset_cons_self _ _))
  | case2 c cs h ih =>
    have hrest := ih (hc.subset (List.subset_cons_self _ _))
    intro d hd
    rcases List.mem_cons.mp hd with rfl | hd
    · exact hc _ List.mem_cons_self
    · exact hrest d hd
  | case3 => exact hc

theorem lower (hc : IsWord cs) : IsWord (Text.lower cs) := by
  rw [lower_of_ascii fun c h => toNat_lt_of_isWordChar (hc c h)]
  intro c h
  obtain ⟨d, hd, rfl⟩ := List.mem_map.mp h
  exact isWordChar_toLower (hc d hd)

end IsWord

/-- The words of a name are made of its characters. -/
theorem mem_of_mem_wordsFrom {started cs w : List CodePoint} (hw : w ∈ wordsFrom started cs)
    {c : CodePoint}
    (hc : c ∈ w) : c ∈ started ∨ c ∈ cs := by
  induction cs generalizing started with
  | nil =>
    rw [wordsFrom, List.mem_singleton] at hw
    subst hw
    exact Or.inl (List.mem_reverse.mp hc)
  | cons d cs ih =>
    rw [wordsFrom] at hw
    split at hw
    · rcases List.mem_cons.mp hw with rfl | hw
      · exact Or.inl (List.mem_reverse.mp hc)
      · exact Or.inr (List.mem_cons_of_mem d ((ih hw).resolve_left (List.not_mem_nil)))
    · rcases ih hw with h | h
      · rcases List.mem_cons.mp h with rfl | h
        · exact Or.inr List.mem_cons_self
        · exact Or.inl h
      · exact Or.inr (List.mem_cons_of_mem d h)

theorem IsWord.pascalChars {cs : List CodePoint} (hc : IsWord cs) : IsWord (Naming.pascalChars cs) := by
  intro c h
  obtain ⟨w, hw, hcw⟩ := List.mem_flatMap.mp h
  have hword : IsWord w := by
    intro d hd
    exact hc d ((mem_of_mem_wordsFrom (List.mem_filter.mp hw).1 hd).resolve_left List.not_mem_nil)
  exact hword.capitalizeFirst c hcw

theorem IsWord.snakeChars {cs : List CodePoint} (hc : IsWord cs) : IsWord (Naming.snakeChars cs) := by
  have hmap : IsWord (cs.map fun c => if c = char '-' then char '_' else c) := by
    intro c h
    obtain ⟨d, hd, rfl⟩ := List.mem_map.mp h
    split
    · decide
    · exact hc d hd
  exact (hmap.separateHumps.lower.squeezeUnderscores).trimWhile _

theorem isWord_cleanChars (cs : List CodePoint) : IsWord (cleanChars cs) := by
  have hmap : IsWord (cs.map fun c => if isWordChar c then c else char '_') := by
    intro c h
    obtain ⟨d, -, rfl⟩ := List.mem_map.mp h
    split
    · assumption
    · decide
  have htrim := hmap.trimWhile isUnderscore
  unfold cleanChars
  split
  · exact isWord_iff.mpr (by decide)
  · rename_i c rest heq
    rw [heq] at htrim
    split
    · intro d hd
      rcases List.mem_cons.mp hd with rfl | hd
      · decide
      · exact htrim d hd
    · exact htrim

theorem isWord_clean (name : Text) : IsWord (clean name).toList := by
  rw [clean, Text.toList_ofList]
  exact isWord_cleanChars _

theorem isWord_pascalCase_clean (name : Text) : IsWord (pascalCase (clean name)).toList := by
  rw [pascalCase, Text.toList_ofList]
  exact (isWord_clean name).pascalChars

theorem isWord_accessorName (access : Access) (field : Text) (style : NameStyle)
    (isAsync : Bool) : IsWord (accessorName access.verb field style isAsync).toList := by
  have hverb : IsWord access.verb.toList := by
    rw [isWord_iff]
    cases access <;> decide +kernel
  have hmark : IsWord (twinMark style isAsync).toList := by
    rw [isWord_iff]
    cases style <;> cases isAsync <;> decide +kernel
  have hstem : IsWord (stem style field).toList := by
    cases style with
    | camel => exact isWord_pascalCase_clean field
    | snake =>
      simp only [stem, snakeCase, Text.toList_append, Text.toList_ofList]
      exact IsWord.append (isWord_iff.mpr (by decide)) (isWord_clean field).snakeChars
  rw [accessorName_eq, Text.toList_append, Text.toList_append]
  exact hverb.append (hstem.append hmark)

theorem isIdentifierChar_of_isWordChar {c : CodePoint} (h : isWordChar c = true) :
    isIdentifierChar c = true := by
  have hlt := toNat_lt_of_isWordChar h
  simp only [isWordChar, Bool.or_eq_true] at h
  simp only [isIdentifierChar, isIdentifierStart, hlt, if_true, Bool.or_eq_true]
  tauto

/-- What begins with a verb is an identifier, and no keyword begins with one. -/
theorem isIdentifier_accessorName (access : Access) (field : Text) (style : NameStyle)
    (isAsync : Bool) :
    isIdentifier (accessorName access.verb field style isAsync).toList = true := by
  have hword := isWord_accessorName access field style isAsync
  rw [accessorName_eq, Text.toList_append] at hword ⊢
  refine isIdentifier_append (by cases access <;> decide +kernel) ?_
  rw [List.all_eq_true]
  exact fun c hc => isIdentifierChar_of_isWordChar (hword c (List.mem_append_right _ hc))

theorem accessorName_not_mem_keywords (access : Access) (field : Text) (style : NameStyle)
    (isAsync : Bool) :
    Python.reserved.keywords.contains (accessorName access.verb field style isAsync) = false := by
  have hprefix : ∀ word ∈ Python.reserved.keywords, ¬ access.verb.toList <+: word.toList := by
    cases access <;> decide +kernel
  rw [← Bool.not_eq_true, List.contains_iff_mem]
  intro hmem
  refine hprefix _ hmem ?_
  rw [accessorName_eq, Text.toList_append]
  exact List.prefix_append _ _

end Naming

end PrefAccessor
