import PrefAccessor.Proofs.AccessorGroups
import PrefAccessor.Proofs.NameRewriting

/-!
# Forms of names

A name in snake case is in small letters and has single underscores between its words. The steps that
lead to it put in, join and drop underscores only, so on ASCII names everything else is kept in its
order; and a name of that form is left as it is by each of them. A cleaned name is an identifier, and
cleaning it again finds nothing to replace but its shield, which comes back. Main statement:
`names_have_normal_forms`.
-/

namespace PrefAccessor

set_option autoImplicit false

open Text

namespace Text

variable {p : CodePoint → Bool} {cs : List CodePoint}

theorem trimWhile_isInfix (p : CodePoint → Bool) (cs : List CodePoint) : trimWhile p cs <:+: cs := by
  have hend : trimWhile p cs <+: cs.dropWhile p := by
    rw [trimWhile, dropEndWhile, ← List.reverse_suffix, List.reverse_reverse]
    exact List.dropWhile_suffix p
  exact hend.isInfix.trans (List.dropWhile_suffix p).isInfix

theorem eq_false_of_head?_trimWhile {c : CodePoint} (h : (trimWhile p cs).head? = some c) :
    p c = false := by
  rw [head?_trimWhile] at h
  simpa using List.find?_some h

theorem eq_false_of_getLast?_trimWhile {c : CodePoint} (h : (trimWhile p cs).getLast? = some c) :
    p c = false := by
  rw [trimWhile, dropEndWhile, List.getLast?_reverse] at h
  have hfirst := List.head?_dropWhile_not p (cs.dropWhile p).reverse
  rw [h] at hfirst
  exact hfirst

/-- A text that the class neither begins nor ends stays as it is. -/
theorem trimWhile_eq_self (hhead : ∀ c, cs.head? = some c → p c = false)
    (hlast : ∀ c, cs.getLast? = some c → p c = false) : trimWhile p cs = cs := by
  have hdrop (ds : List CodePoint) (h : ∀ c, ds.head? = some c → p c = false) :
      ds.dropWhile p = ds := by
    cases ds with
    | nil => rfl
    | cons d ds => exact List.dropWhile_cons_of_neg (by simp [h d rfl])
  rw [trimWhile, dropEndWhile, hdrop cs hhead, hdrop, List.reverse_reverse]
  intro c hc
  exact hlast c (by rwa [List.head?_reverse] at hc)

theorem filter_dropWhile (p : CodePoint → Bool) (cs : List CodePoint) :
    (cs.dropWhile p).filter (fun c => !p c) = cs.filter fun c => !p c := by
  induction cs with
  | nil => rfl
  | cons c cs ih => cases hc : p c <;> simp [hc, ih]

theorem filter_trimWhile (p : CodePoint → Bool) (cs : List CodePoint) :
    (trimWhile p cs).filter (fun c => !p c) = cs.filter fun c => !p c := by
  rw [trimWhile, dropEndWhile, List.filter_reverse, filter_dropWhile, List.filter_reverse,
    List.reverse_reverse, filter_dropWhile]

theorem isAsciiUpper_of_isSmall {c : CodePoint} (h : IsSmall c) : isAsciiUpper c = false := by
  rw [← Bool.not_eq_true]
  intro hupper
  have hascii : c.toNat < 0x80 := by
    simp only [isAsciiUpper, Bool.and_eq_true, decide_eq_true_eq] at hupper
    exact Nat.lt_of_le_of_lt hupper.2 (by decide)
  have hmoved : isAsciiUpper c = true → c.toLower ≠ c := forall_ascii hascii (by decide)
  have hfixed := h.1
  rw [lowerChar_of_ascii hascii] at hfixed
  exact hmoved hupper (List.singleton_inj.mp hfixed)

end Text

namespace Naming

/-- Small letters, with single underscores between the words. -/
structure IsSnakeForm (cs : List CodePoint) : Prop where
  small : ∀ c ∈ cs, IsSmall c
  no_hyphen : char '-' ∉ cs
  not_first : cs.head? ≠ some (char '_')
  not_last : cs.getLast? ≠ some (char '_')
  not_doubled : ¬ [char '_', char '_'] <:+: cs

theorem isUnderscore_iff {c : CodePoint} : isUnderscore c = true ↔ c = '_' :=
  beq_iff_eq

theorem not_doubled_squeezeUnderscores (cs : List CodePoint) :
    ¬ [char '_', char '_'] <:+: squeezeUnderscores cs := by
  fun_induction squeezeUnderscores cs with
  | case1 cs ih => exact ih
  | case2 c cs hc ih =>
    rw [List.infix_cons_iff, not_or]
    refine ⟨?_, ih⟩
    rintro ⟨rest, heq⟩
    -- two underscores in front of the result are two in front of the text
    obtain ⟨rfl, htail⟩ := List.cons.inj heq
    have hhead := head?_squeezeUnderscores cs
    rw [← htail] at hhead
    obtain ⟨ds, rfl⟩ := List.head?_eq_some_iff.mp hhead.symm
    exact hc ds rfl rfl
  | case3 => simp

theorem isSnakeForm_snakeChars (cs : List CodePoint) : IsSnakeForm (snakeChars cs) := by
  have hmem {c : CodePoint} (hc : c ∈ snakeChars cs) : c ∈ lower (separateHumps
      (cs.map fun c => if c = char '-' then char '_' else c)) :=
    (squeezeUnderscores_sublist _).subset ((trimWhile_sublist _ _).subset hc)
  refine ⟨fun c hc => isSmall_of_mem_lowerAfter (hmem hc), ?_, ?_, ?_, ?_⟩
  · intro hhyphen
    have hhumps := mem_lowerAfter_of_lt (by decide) (hmem hhyphen)
    obtain ⟨d, -, hd⟩ := List.mem_map.mp (mem_separateHumps (by decide) hhumps)
    split at hd
    · cases hd
    · contradiction
  · exact fun h => Bool.noConfusion (eq_false_of_head?_trimWhile h)
  · exact fun h => Bool.noConfusion (eq_false_of_getLast?_trimWhile h)
  · exact fun h => not_doubled_squeezeUnderscores _ (h.trans (trimWhile_isInfix _ _))

theorem separateHumps_eq_self {cs : List CodePoint} (h : ∀ c ∈ cs, isAsciiUpper c = false) :
    separateHumps cs = cs := by
  fun_induction separateHumps cs with
  | case1 a b cs hhump ih =>
    rw [startsHump, h b (by simp)] at hhump
    cases hhump
  | case2 a b cs hhump ih => rw [ih fun c hc => h c (List.mem_cons_of_mem a hc)]
  | case3 cs hcs => rfl

theorem squeezeUnderscores_eq_self {cs : List CodePoint} (h : ¬ [char '_', char '_'] <:+: cs) :
    squeezeUnderscores cs = cs := by
  fun_induction squeezeUnderscores cs with
  | case1 cs ih => exact absurd (List.prefix_append [char '_', char '_'] cs).isInfix h
  | case2 c cs hc ih => rw [ih fun hcs => h (hcs.trans (List.suffix_cons c cs).isInfix)]
  | case3 => rfl

theorem IsSnakeForm.snakeChars_eq {cs : List CodePoint} (h : IsSnakeForm cs) : snakeChars cs = cs := by
  have hhyphens : (cs.map fun c => if c = char '-' then char '_' else c) = cs := by
    refine (List.map_congr_left fun c hc => if_neg ?_).trans (List.map_id' cs)
    rintro rfl
    exact h.no_hyphen hc
  have hend {c : CodePoint} (hne : some c ≠ some (char '_')) : isUnderscore c = false := by
    rw [← Bool.not_eq_true, isUnderscore_iff]
    exact fun heq => hne (congrArg some heq)
  rw [snakeChars, hhyphens, separateHumps_eq_self fun c hc => isAsciiUpper_of_isSmall (h.small c hc),
    lower, lowerAfter_of_isSmall h.small, squeezeUnderscores_eq_self h.not_doubled]
  exact trimWhile_eq_self (fun c hc => hend (hc ▸ h.not_first)) fun c hc => hend (hc ▸ h.not_last)

/-- What no step to snake case keeps. -/
def isJoiner (c : CodePoint) : Bool :=
  c == '_' || c == '-'

theorem filter_separateHumps (cs : List CodePoint) :
    (separateHumps cs).filter (fun c => !isUnderscore c) = cs.filter fun c => !isUnderscore c := by
  have hunderscore : (!isUnderscore '_') = false := rfl
  fun_induction separateHumps cs with
  | case1 a b cs hhump ih =>
    rw [List.filter_cons, List.filter_cons, List.filter_cons, hunderscore, ih]
    rfl
  | case2 a b cs hhump ih => simp only [List.filter_cons, ih]
  | case3 cs hcs => rfl

theorem filter_squeezeUnderscores (cs : List CodePoint) :
    (squeezeUnderscores cs).filter (fun c => !isUnderscore c) =
      cs.filter fun c => !isUnderscore c := by
  fun_induction squeezeUnderscores cs with
  | case1 cs ih => rw [ih, List.filter_cons_of_neg (a := char '_') (l := char '_' :: cs) (by decide)]
  | case2 c cs hc ih => simp only [List.filter_cons, ih]
  | case3 => rfl

theorem filter_hyphens (cs : List CodePoint) :
    (cs.map fun c => if c = char '-' then char '_' else c).filter (fun c => !isUnderscore c) =
      cs.filter fun c => !isJoiner c := by
  induction cs with
  | nil => rfl
  | cons c cs ih =>
    rw [List.map_cons, List.filter_cons, List.filter_cons, ih]
    by_cases hc : c = '-'
    · subst hc
      rfl
    · simp [hc, isJoiner, isUnderscore]

/-- Of ASCII characters only letters have small forms, and these are letters. -/
theorem filter_lower {cs : List CodePoint} (q : CodePoint → Bool)
    (hq : ∀ n : Fin 0x80, q (CodePoint.ofNat n).toLower = q (CodePoint.ofNat n))
    (h : ∀ c ∈ cs, c.toNat < 0x80) : (lower cs).filter q = (cs.filter q).map CodePoint.toLower := by
  rw [lower_of_ascii h, List.filter_map]
  congr 1
  refine List.filter_congr fun c hc => ?_
  exact forall_ascii (h c hc) hq

/-- The letters and digits of an ASCII name are those of its snake form, in their order. -/
theorem filter_snakeChars {cs : List CodePoint} (h : ∀ c ∈ cs, c.toNat < 0x80) :
    (snakeChars cs).filter (fun c => !isUnderscore c) = (lower cs).filter fun c => !isJoiner c := by
  have hhumps : ∀ c ∈ separateHumps (cs.map fun c => if c = char '-' then char '_' else c),
      c.toNat < 0x80 := by
    intro c hc
    by_cases hunderscore : c = '_'
    · rw [hunderscore]
      decide
    · obtain ⟨d, hd, rfl⟩ := List.mem_map.mp (mem_separateHumps hunderscore hc)
      split
      · decide
      · exact h d hd
  calc (snakeChars cs).filter (fun c => !isUnderscore c)
      = (lower (separateHumps (cs.map fun c => if c = char '-' then char '_' else c))).filter
          fun c => !isUnderscore c := by
        rw [snakeChars, filter_trimWhile, filter_squeezeUnderscores]
    _ = ((cs.map fun c => if c = char '-' then char '_' else c).filter
          fun c => !isUnderscore c).map CodePoint.toLower := by
        rw [filter_lower _ (by decide) hhumps, filter_separateHumps]
    _ = (lower cs).filter fun c => !isJoiner c := by
        rw [filter_hyphens, filter_lower _ (by decide) h]

/-- What a cleaned name holds between its ends, where its shield does not count. -/
structure IsCore (cs : List CodePoint) : Prop where
  word : IsWord cs
  first : ∃ c rest, cs = c :: rest ∧ c ≠ '_'
  not_last : cs.getLast? ≠ some (char '_')

/-- A digit in front is shielded by an underscore. -/
def shield (cs : List CodePoint) : List CodePoint :=
  if cs.head?.any isAsciiDigit then char '_' :: cs else cs

theorem mask_eq_self {cs : List CodePoint} (h : IsWord cs) :
    (cs.map fun c => if isWordChar c then c else char '_') = cs :=
  (List.map_congr_left fun c hc => if_pos (h c hc)).trans (List.map_id' cs)

theorem exists_core (cs : List CodePoint) : ∃ core, IsCore core ∧ cleanChars cs = shield core := by
  have hmask : IsWord (cs.map fun c => if isWordChar c then c else char '_') := by
    intro c hc
    obtain ⟨d, -, rfl⟩ := List.mem_map.mp hc
    split
    · assumption
    · decide
  have htrim := hmask.trimWhile isUnderscore
  rw [cleanChars]
  split
  · exact ⟨fallbackName, ⟨isWord_iff.mpr (by decide), ⟨'f', _, rfl, by decide⟩, by decide⟩, rfl⟩
  · rename_i c rest hcons
    rw [hcons] at htrim
    refine ⟨c :: rest, ⟨htrim, ⟨c, rest, rfl, ?_⟩, ?_⟩, ?_⟩
    · rintro rfl
      exact Bool.noConfusion (eq_false_of_head?_trimWhile (congrArg List.head? hcons))
    · rw [← hcons]
      exact fun h => Bool.noConfusion (eq_false_of_getLast?_trimWhile h)
    · rw [shield]
      rfl

namespace IsCore

variable {cs : List CodePoint}

theorem trimWhile_eq (h : IsCore cs) : trimWhile isUnderscore cs = cs := by
  obtain ⟨c, rest, rfl, hc⟩ := h.first
  refine trimWhile_eq_self ?_ ?_
  · rintro d ⟨⟩
    exact beq_eq_false_iff_ne.mpr hc
  · intro d hd
    exact beq_eq_false_iff_ne.mpr fun heq => h.not_last (heq ▸ hd)

theorem cleanChars_eq (h : IsCore cs) : cleanChars cs = shield cs := by
  obtain ⟨c, rest, rfl, -⟩ := h.first
  rw [cleanChars, mask_eq_self h.word, h.trimWhile_eq]
  rfl

/-- The shield goes when the ends are trimmed, and comes back. -/
theorem cleanChars_shield (h : IsCore cs) : cleanChars (shield cs) = shield cs := by
  refine Eq.trans ?_ h.cleanChars_eq
  rw [shield]
  split
  · have htrim : trimWhile isUnderscore (char '_' :: cs) = trimWhile isUnderscore cs := rfl
    rw [cleanChars, List.map_cons, ite_self, mask_eq_self h.word, htrim, cleanChars,
      mask_eq_self h.word]
  · rfl

theorem isIdentifier_shield (h : IsCore cs) : isIdentifier (shield cs) = true := by
  obtain ⟨c, rest, rfl, hc⟩ := h.first
  have hchars : ∀ d ∈ c :: rest, isIdentifierChar d = true :=
    fun d hd => isIdentifierChar_of_isWordChar (h.word d hd)
  have hword := h.word c List.mem_cons_self
  have hfirst : isWordChar c = true → isAsciiDigit c = false → isIdentifierStart c = true :=
    forall_ascii (toNat_lt_of_isWordChar hword) (by decide)
  rw [isIdentifier_iff, shield]
  cases hdigit : isAsciiDigit c with
  | true =>
    rw [List.head?_cons, Option.any_some, hdigit, if_pos rfl]
    refine ⟨⟨'_', rfl, by decide⟩, fun d hd => ?_⟩
    rcases List.mem_cons.mp hd with rfl | hd
    · decide
    · exact hchars d hd
  | false =>
    rw [List.head?_cons, Option.any_some, hdigit, if_neg Bool.false_ne_true]
    exact ⟨⟨c, rfl, hfirst hword hdigit⟩, hchars⟩

end IsCore

/-- Snake case is what the rewritings make of a name: in small letters, without hyphens, and with
single underscores in its inside only; of an ASCII name it keeps everything but underscores and
hyphens, in small letters. A cleaned name is an identifier of ASCII letters, digits and underscores,
not all of them underscores. Neither changes what it has given. -/
theorem names_have_normal_forms :
    (∀ name : Text, (∀ out, IsSnakeOf name.toList out ↔ out = (snakeCase name).toList) ∧
      IsSnakeForm (snakeCase name).toList ∧
      (∀ c ∈ (snakeCase name).toList, isAsciiUpper c = false) ∧
      snakeCase (snakeCase name) = snakeCase name) ∧
    (∀ name : Text, (∀ c ∈ name.toList, c.toNat < 0x80) →
      (snakeCase name).toList.filter (fun c => !isUnderscore c) =
        (lowercase name).toList.filter fun c => !isJoiner c) ∧
    ∀ name : Text, isIdentifier (clean name).toList = true ∧ IsWord (clean name).toList ∧
      (∃ c ∈ (clean name).toList, c ≠ '_') ∧ clean (clean name) = clean name := by
  refine ⟨fun name => ?_, fun name hascii => ?_, fun name => ?_⟩
  · have hform := isSnakeForm_snakeChars name.toList
    rw [snakeCase, snakeCase, Text.toList_ofList, hform.snakeChars_eq]
    exact ⟨fun _ => isSnakeOf_iff, hform,
      fun c hc => isAsciiUpper_of_isSmall (hform.small c hc), rfl⟩
  · rw [snakeCase, lowercase, Text.toList_ofList, Text.toList_ofList]
    exact filter_snakeChars hascii
  · obtain ⟨core, hcore, heq⟩ := exists_core name.toList
    obtain ⟨c, rest, hcons, hc⟩ := hcore.first
    have hword := isWord_clean name
    simp only [clean, Text.toList_ofList, heq] at hword ⊢
    refine ⟨hcore.isIdentifier_shield, hword, ⟨c, ?_, hc⟩, ?_⟩
    · rw [shield, hcons]
      split <;> simp
    · rw [hcore.cleanChars_shield]

theorem httpServer_snakeCase :
    (∀ c ∈ ("-HTTPServer__userID2-" : Text).toList, c.toNat < 0x80) ∧
      snakeCase "-HTTPServer__userID2-" = "http_server_user_id2" ∧
      (snakeCase "-HTTPServer__userID2-").toList.filter (fun c => !isUnderscore c) =
        (lowercase "-HTTPServer__userID2-").toList.filter fun c => !isJoiner c := by
  have hascii : ∀ c ∈ ("-HTTPServer__userID2-" : Text).toList, c.toNat < 0x80 := by
    have hall :
        ("-HTTPServer__userID2-" : Text).toList.all (fun c => decide (c.toNat < 0x80)) = true := by
      decide +kernel
    simpa only [List.all_eq_true, decide_eq_true_eq] using hall
  exact ⟨hascii, by decide +kernel, names_have_normal_forms.2.1 _ hascii⟩

end Naming

end PrefAccessor
