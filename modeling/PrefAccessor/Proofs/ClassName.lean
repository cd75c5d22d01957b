import PrefAccessor.Proofs.ArtifactPath

/-!
# Names of classes and their modules

Cleaning a name shields a leading digit by an underscore, but the words of a class name stand
together without one. So a class name is an identifier exactly where the first ASCII letter or digit
of the aggregate is no digit, and so is the name of the module that holds the class. Main statement:
`className_isIdentifier_iff`.
-/

namespace PrefAccessor

set_option autoImplicit false

open Text

namespace Text

namespace CaseRun

/-- Whether the whole run leads into one of the ranges. -/
def leadsInto (r : CaseRun) (ranges : List (Nat × Nat)) : Bool :=
  ranges.any fun s => s.1.ble r.imageFirst && r.imageLast.ble s.2

/-- Whether the run begins in none of the ranges. -/
def avoids (r : CaseRun) (ranges : List (Nat × Nat)) : Bool :=
  ranges.all fun s => r.last.blt s.1 || s.2.blt r.first

theorem inRanges_eq_false_of_avoids {r : CaseRun} {ranges : List (Nat × Nat)}
    (h : r.avoids ranges = true) {c : CodePoint} {n : Nat} (hn : r.map? c.toNat = some n) :
    inRanges ranges c = false := by
  obtain ⟨hfirst, hlast, -, -⟩ := map?_eq_some hn
  rw [← Bool.not_eq_true, inRanges_iff]
  rintro ⟨s, hs, hlow, hhigh⟩
  have hapart := List.all_eq_true.mp h s hs
  rw [Bool.or_eq_true, Nat.blt_eq, Nat.blt_eq] at hapart
  omega

end CaseRun

/-- A run that moves characters of identifiers leads to such characters. -/
theorem lowerRuns_keep_identifiers : (lowerRuns.all fun r =>
    r.leadsInto identifierStartRanges ||
      (r.first.beq r.last && isIdentifierChar (CodePoint.ofNat r.imageFirst)) ||
      (r.avoids identifierStartRanges && r.avoids identifierExtendRanges)) = true := by
  decide +kernel

theorem isIdentifierChar_eq {c : CodePoint} (h : ¬ c.toNat < 0x80) : isIdentifierChar c =
    (inRanges identifierStartRanges c || inRanges identifierExtendRanges c) := by
  simp only [isIdentifierChar, isIdentifierStart, if_neg h]

/-- No run of the table moves an ASCII character. -/
theorem le_first_of_mem_lowerRuns : ∀ r ∈ lowerRuns, 0x80 ≤ r.first := by
  decide +kernel

theorem isIdentifierChar_of_run {r : CaseRun} (hr : r ∈ lowerRuns) {c : CodePoint} {n : Nat}
    (hn : r.map? c.toNat = some n) (hc : isIdentifierChar c = true) :
    isIdentifierChar (CodePoint.ofNat n) = true := by
  have hkeep := List.all_eq_true.mp lowerRuns_keep_identifiers r hr
  obtain ⟨hfirst, hlast, -, himage⟩ := CaseRun.map?_eq_some hn
  rw [Bool.or_eq_true, Bool.or_eq_true, Bool.and_eq_true, Bool.and_eq_true] at hkeep
  rcases hkeep with (hinto | ⟨hsingle, hchar⟩) | ⟨hstart, hextend⟩
  · obtain ⟨s, hs, hrange⟩ := List.any_eq_true.mp hinto
    rw [Bool.and_eq_true, Nat.ble_eq, Nat.ble_eq] at hrange
    have hvalid := toNat_ofNat_of_isValidChar ((lowerRuns_isSound r hr).bounds hn).2
    have hbetween : s.1 ≤ n ∧ n ≤ s.2 := by
      unfold CaseRun.imageFirst CaseRun.imageLast at hrange
      omega
    have hascii : ∀ s ∈ identifierStartRanges, 0x80 ≤ s.1 := by decide +kernel
    have hnot : ¬ (CodePoint.ofNat n).toNat < 0x80 := by
      have hs' := hascii s hs
      omega
    rw [isIdentifierChar_eq hnot, Bool.or_eq_true, inRanges_iff]
    exact Or.inl ⟨s, hs, by omega⟩
  · have hone : n = r.imageFirst := by
      have hends := Nat.eq_of_beq_eq_true hsingle
      have hat : c.toNat = r.first := by omega
      rw [himage, hat, CaseRun.imageFirst]
    rwa [hone]
  · have hnot : ¬ c.toNat < 0x80 := by
      have hbound := le_first_of_mem_lowerRuns r hr
      omega
    rw [isIdentifierChar_eq hnot, CaseRun.inRanges_eq_false_of_avoids hstart hn,
      CaseRun.inRanges_eq_false_of_avoids hextend hn] at hc
    cases hc

theorem isIdentifierChar_of_mem_lowerChar {c d : CodePoint} (hc : isIdentifierChar c = true)
    (h : d ∈ lowerChar c) : isIdentifierChar d = true := by
  rcases mem_lowerChar_cases h with
    ⟨hlt, rfl⟩ | ⟨e, he, n, hn, rfl⟩ | ⟨r, hr, n, hn, rfl⟩ | ⟨rfl, -⟩
  · have hascii : isIdentifierChar c = true → isIdentifierChar c.toLower = true :=
      forall_ascii hlt (by decide)
    exact hascii hc
  · have hexpansions : ∀ e ∈ lowerExpansions, ∀ n ∈ e.2,
        isIdentifierChar (CodePoint.ofNat n) = true := by decide +kernel
    exact hexpansions e he n hn
  · exact isIdentifierChar_of_run hr hn hc
  · exact hc

theorem isIdentifierChar_of_mem_lowerAfter {before cs : List CodePoint}
    (hcs : ∀ c ∈ cs, isIdentifierChar c = true) {d : CodePoint} (h : d ∈ lowerAfter before cs) :
    isIdentifierChar d = true := by
  induction cs generalizing before with
  | nil => cases h
  | cons c cs ih =>
    rw [lowerAfter] at h
    rcases List.mem_append.mp h with h | h
    · split at h
      · have hsigma : isIdentifierChar 'ς' = true ∧ isIdentifierChar 'σ' = true := by
          decide +kernel
        split at h
        · rw [List.mem_singleton.mp h]
          exact hsigma.1
        · rw [List.mem_singleton.mp h]
          exact hsigma.2
      · exact isIdentifierChar_of_mem_lowerChar (hcs c List.mem_cons_self) h
    · exact ih (fun e he => hcs e (List.mem_cons_of_mem c he)) h

theorem isIdentifier_iff {cs : List CodePoint} : isIdentifier cs = true ↔
    (∃ c, cs.head? = some c ∧ isIdentifierStart c = true) ∧
      ∀ c ∈ cs, isIdentifierChar c = true := by
  constructor
  · intro h
    refine ⟨?_, fun c hc => isIdentifierChar_of_mem h hc⟩
    cases cs with
    | nil => cases h
    | cons c cs => exact ⟨c, rfl, (Bool.and_eq_true_iff.mp h).1⟩
  · rintro ⟨⟨c, hhead, hstart⟩, hall⟩
    obtain ⟨rest, rfl⟩ := List.head?_eq_some_iff.mp hhead
    rw [isIdentifier, hstart, Bool.true_and, List.all_eq_true]
    exact fun d hd => hall d (List.mem_cons_of_mem c hd)

theorem head?_dropEndWhile {p : CodePoint → Bool} {c : CodePoint} (hc : p c = false)
    (cs : List CodePoint) :
    (dropEndWhile p (c :: cs)).head? = some c := by
  rw [dropEndWhile, List.reverse_cons, List.dropWhile_append]
  split
  · simp [hc]
  · simp

/-- Trimming stops at the first character that is not in the class. -/
theorem head?_trimWhile (p : CodePoint → Bool) (cs : List CodePoint) :
    (trimWhile p cs).head? = cs.find? fun c => !p c := by
  induction cs with
  | nil => rfl
  | cons c cs ih =>
    cases hc : p c with
    | true => simpa [trimWhile, hc] using ih
    | false => simpa [trimWhile, hc] using head?_dropEndWhile hc cs

end Text

namespace Naming

/-- A character that a cleaned name keeps at its front. -/
def isLetterOrDigit (c : CodePoint) : Bool :=
  isWordChar c && !isUnderscore c

/-- The first ASCII letter or digit in the name is a digit. -/
def BeginsWithDigit (name : Text) : Prop :=
  (name.toList.find? isLetterOrDigit).any isAsciiDigit = true

instance (name : Text) : Decidable (BeginsWithDigit name) :=
  inferInstanceAs (Decidable (_ = true))

theorem separatesWords_of_isWordChar {c : CodePoint} (h : isWordChar c = true) :
    separatesWords c = isUnderscore c := by
  have hascii : isWordChar c = true → separatesWords c = isUnderscore c :=
    forall_ascii (toNat_lt_of_isWordChar h) (by decide)
  exact hascii h

theorem head?_capitalizeFirst_append {c : CodePoint} (h : isWordChar c = true)
    (cs ds : List CodePoint) :
    (capitalizeFirst (c :: cs) ++ ds).head? = some c.toUpper := by
  rw [capitalizeFirst, upperChar_of_ascii (toNat_lt_of_isWordChar h)]
  rfl

/-- Where a word has begun, it is the first one. -/
theorem head?_words_of_started {started rest : List CodePoint} {c : CodePoint}
    (hrev : started.reverse = c :: rest) (hstarted : IsWord started)
    (hword : ∀ d ∈ started, isUnderscore d = false) (ws : List (List CodePoint)) (cs : List CodePoint) :
    (((started.reverse :: ws).filter fun w => !w.isEmpty).flatMap capitalizeFirst).head? =
      ((started.reverse ++ cs).find? fun d => !isUnderscore d).map CodePoint.toUpper := by
  have hmem : c ∈ started := List.mem_reverse.mp (hrev ▸ List.mem_cons_self)
  rw [hrev, List.filter_cons_of_pos rfl, List.flatMap_cons,
    head?_capitalizeFirst_append (hstarted c hmem), List.cons_append,
    List.find?_cons_of_pos (by rw [hword c hmem]; rfl)]
  rfl

/-- By induction on what is left of the name: the word that has begun ends at an underscore and goes
on with any other character. -/
theorem head?_words {started cs : List CodePoint} (hstarted : IsWord started) (hcs : IsWord cs)
    (hword : ∀ c ∈ started, isUnderscore c = false) :
    (((wordsFrom started cs).filter fun w => !w.isEmpty).flatMap capitalizeFirst).head? =
      ((started.reverse ++ cs).find? fun c => !isUnderscore c).map CodePoint.toUpper := by
  induction cs generalizing started with
  | nil =>
    rw [wordsFrom]
    cases hrev : started.reverse with
    | nil => rfl
    | cons c rest =>
      rw [← hrev]
      exact head?_words_of_started hrev hstarted hword [] []
  | cons d cs ih =>
    have hd : isWordChar d = true := hcs d List.mem_cons_self
    have hrest : IsWord cs := hcs.subset (List.subset_cons_self d cs)
    rw [wordsFrom, separatesWords_of_isWordChar hd]
    cases hunderscore : isUnderscore d with
    | true =>
      rw [if_pos rfl]
      cases hrev : started.reverse with
      | nil =>
        have hnext := ih (List.forall_mem_nil _) hrest (List.forall_mem_nil _)
        rw [List.filter_cons_of_neg (by simp), hnext, List.nil_append,
          List.find?_cons_of_neg (by simp [hunderscore])]
        rfl
      | cons c rest =>
        rw [← hrev]
        exact head?_words_of_started hrev hstarted hword _ _
    | false =>
      have hnext := ih (List.forall_mem_cons.mpr ⟨hd, hstarted⟩) hrest
        (List.forall_mem_cons.mpr ⟨hunderscore, hword⟩)
      rw [List.reverse_cons, List.append_assoc, List.singleton_append] at hnext
      rw [if_neg Bool.false_ne_true, hnext]

theorem head?_pascalChars {cs : List CodePoint} (h : IsWord cs) :
    (pascalChars cs).head? = (cs.find? fun c => !isUnderscore c).map CodePoint.toUpper :=
  head?_words (List.forall_mem_nil _) h (List.forall_mem_nil _)

/-- Of a cleaned name the first letter or digit stays in front, but for underscores. -/
theorem find?_cleanChars (cs : List CodePoint) :
    ((cleanChars cs).find? fun c => !isUnderscore c) =
      some ((cs.find? isLetterOrDigit).getD 'f') := by
  have hmasked : ((cs.map fun c => if isWordChar c then c else '_').find? fun c => !isUnderscore c) =
      cs.find? isLetterOrDigit := by
    induction cs with
    | nil => rfl
    | cons c cs ih =>
      rw [List.map_cons, List.find?_cons, List.find?_cons, ih, isLetterOrDigit]
      cases isWordChar c <;> rfl
  have hhead := (head?_trimWhile isUnderscore _).trans hmasked
  rw [cleanChars]
  split
  · rename_i hnil
    rw [hnil] at hhead
    rw [← hhead]
    rfl
  · rename_i c rest hcons
    rw [hcons] at hhead
    have hc : isUnderscore c = false := by
      have hfound := List.find?_some hhead.symm
      rw [isLetterOrDigit, Bool.and_eq_true, Bool.not_eq_true'] at hfound
      exact hfound.2
    have hfirst : ((c :: rest).find? fun c => !isUnderscore c) = some c :=
      List.find?_cons_of_pos (by rw [hc]; rfl)
    rw [← hhead]
    split
    · rw [List.find?_cons_of_neg (by decide), hfirst]
      rfl
    · exact hfirst

theorem head?_pascalCase_clean (name : Text) : (pascalCase (clean name)).toList.head? =
    some ((name.toList.find? isLetterOrDigit).getD 'f').toUpper := by
  rw [pascalCase, clean, Text.toList_ofList, Text.toList_ofList,
    head?_pascalChars (isWord_cleanChars _), find?_cleanChars]
  rfl

/-- Letters stay letters and digits stay digits where a name begins. -/
theorem isIdentifierStart_change {c : CodePoint} (h : isLetterOrDigit c = true) :
    isIdentifierStart c.toUpper = !isAsciiDigit c ∧
      isIdentifierStart c.toUpper.toLower = !isAsciiDigit c := by
  have hword : isWordChar c = true := (Bool.and_eq_true_iff.mp h).1
  have hascii : isLetterOrDigit c = true → isIdentifierStart c.toUpper = (!isAsciiDigit c) ∧
      isIdentifierStart c.toUpper.toLower = !isAsciiDigit c :=
    forall_ascii (toNat_lt_of_isWordChar hword) (by decide)
  exact hascii h

theorem head?_separateHumps (cs : List CodePoint) : (separateHumps cs).head? = cs.head? := by
  fun_cases separateHumps cs <;> rfl

theorem head?_squeezeUnderscores (cs : List CodePoint) : (squeezeUnderscores cs).head? = cs.head? := by
  fun_induction squeezeUnderscores cs with
  | case1 cs ih => exact ih
  | case2 c cs hc ih => rfl
  | case3 => rfl

theorem head?_snakeChars {c : CodePoint} (h : isLetterOrDigit c = true) (cs : List CodePoint) :
    (snakeChars (c.toUpper :: cs)).head? = some c.toUpper.toLower := by
  have hascii : isLetterOrDigit c = true → c.toUpper.toNat < 0x80 ∧ c.toUpper ≠ '-' ∧
      c.toUpper ≠ 'Σ' ∧ isUnderscore c.toUpper.toLower = false :=
    forall_ascii (toNat_lt_of_isWordChar (Bool.and_eq_true_iff.mp h).1) (by decide)
  obtain ⟨hlt, hdash, hsigma, hunderscore⟩ := hascii h
  obtain ⟨rest, hrest⟩ := List.head?_eq_some_iff.mp
    (head?_separateHumps (c.toUpper :: cs.map fun d => if d = char '-' then char '_' else d))
  have hlower : lower (c.toUpper :: rest) = c.toUpper.toLower :: lowerAfter [c.toUpper] rest := by
    rw [lower, lowerAfter, if_neg hsigma, lowerChar_of_ascii hlt]
    rfl
  obtain ⟨tail, htail⟩ := List.head?_eq_some_iff.mp
    (head?_squeezeUnderscores (c.toUpper.toLower :: lowerAfter [c.toUpper] rest))
  rw [snakeChars, List.map_cons, if_neg hdash, hrest, hlower, htail, head?_trimWhile,
    List.find?_cons_of_pos (by rw [hunderscore]; rfl)]

theorem isIdentifierChar_of_mem_snakeChars {cs : List CodePoint}
    (hcs : ∀ c ∈ cs, isIdentifierChar c = true) {d : CodePoint} (h : d ∈ snakeChars cs) :
    isIdentifierChar d = true := by
  have hmapped : ∀ c ∈ separateHumps (cs.map fun c => if c = char '-' then char '_' else c),
      isIdentifierChar c = true := by
    intro c hc
    by_cases hunderscore : c = '_'
    · rw [hunderscore]
      decide
    · obtain ⟨e, he, rfl⟩ := List.mem_map.mp (mem_separateHumps hunderscore hc)
      split
      · decide
      · exact hcs e he
  have hlower := (squeezeUnderscores_sublist _).subset ((trimWhile_sublist _ _).subset h)
  exact isIdentifierChar_of_mem_lowerAfter hmapped hlower

end Naming

namespace ReservedNames

/-- The underscore behind a reserved name does not matter to whether it is an identifier. -/
theorem isIdentifier_escape (r : ReservedNames) {name : Text} (h : name ≠ "") :
    isIdentifier (r.escape name "_").toList = isIdentifier name.toList := by
  rw [escape]
  split
  · rw [Text.toList_append]
    cases hname : name.toList with
    | nil => exact absurd (Text.toList_eq_nil_iff.mp hname) h
    | cons c cs =>
      have hunderscore : ("_" : Text).toList.all isIdentifierChar = true := by decide
      rw [List.cons_append, isIdentifier, isIdentifier, List.all_append, hunderscore, Bool.and_true]
  · rfl

/-- No module is called like a reserved word, whatever its class is called. -/
theorem python_contains_moduleName (className : Text) :
    Python.reserved.contains (Python.reserved.moduleName className) = false := by
  have hends : ∀ word ∈ Python.reserved.keywords ++ Python.reserved.taken,
      word.toList.getLast? ≠ some (char '_') := by decide +kernel
  rw [moduleName, escape]
  split
  · rw [← Bool.not_eq_true, contains, Bool.or_eq_true, List.contains_iff_mem, List.contains_iff_mem,
      ← List.mem_append]
    intro hmem
    refine hends _ hmem ?_
    rw [Text.toList_append]
    exact List.getLast?_concat
  · rename_i hfree
    exact Bool.eq_false_iff.mpr hfree

end ReservedNames

namespace Naming

/-- The class of an aggregate begins with what the name of the aggregate begins with. -/
theorem exists_className_eq_cons (aggregate suffix : Text) : ∃ c rest,
    isLetterOrDigit c = true ∧ (isAsciiDigit c = true ↔ BeginsWithDigit aggregate) ∧
      (className aggregate suffix).toList = c.toUpper :: rest := by
  obtain ⟨rest, hrest⟩ := List.head?_eq_some_iff.mp (head?_pascalCase_clean aggregate)
  refine ⟨_, rest ++ suffix.toList, ?_, ?_, by rw [className, Text.toList_append, hrest]; rfl⟩
  · cases hfirst : aggregate.toList.find? isLetterOrDigit with
    | none => decide
    | some c => exact List.find?_some hfirst
  · rw [BeginsWithDigit]
    cases aggregate.toList.find? isLetterOrDigit with
    | none => decide
    | some c => rfl

/-- A name of identifier characters is an identifier unless it begins with a digit. -/
theorem isIdentifier_iff_of_head? {cs : List CodePoint} {c d : CodePoint} (hhead : cs.head? = some d)
    (hstart : isIdentifierStart d = !isAsciiDigit c)
    (hchars : ∀ e ∈ cs, isIdentifierChar e = true) :
    isIdentifier cs = true ↔ ¬ isAsciiDigit c = true := by
  rw [isIdentifier_iff, Bool.not_eq_true, ← Bool.not_eq_true', ← hstart]
  constructor
  · rintro ⟨⟨e, he, hfirst⟩, -⟩
    rw [hhead] at he
    cases he
    exact hfirst
  · intro hfirst
    exact ⟨⟨d, hhead, hfirst⟩, hchars⟩

/-- The class and the module of an aggregate have identifiers as names if the first ASCII letter or
digit of the aggregate is no digit, and only then. The name of the module is never reserved, and the
only keywords that a class can be called by are those that begin with a capital. -/
theorem className_isIdentifier_iff (aggregate : Text) {suffix : Text}
    (hsuffix : isIdentifier suffix.toList = true) :
    (isIdentifier (className aggregate suffix).toList = true ↔ ¬ BeginsWithDigit aggregate) ∧
      (isIdentifier (Python.reserved.moduleName (className aggregate suffix)).toList = true ↔
        ¬ BeginsWithDigit aggregate) ∧
      Python.reserved.contains (Python.reserved.moduleName (className aggregate suffix)) = false ∧
      (className aggregate suffix ∈ Python.reserved.keywords →
        className aggregate suffix ∈ (["False", "None", "True"] : List Text)) := by
  obtain ⟨c, rest, hc, hdigit, hname⟩ := exists_className_eq_cons aggregate suffix
  obtain ⟨hupper, hlower⟩ := isIdentifierStart_change hc
  have hchars : ∀ d ∈ (className aggregate suffix).toList, isIdentifierChar d = true :=
    fun d hd => isIdentifierChar_of_mem_className hsuffix hd
  have hsnake : (snakeCase (className aggregate suffix)).toList.head? = some c.toUpper.toLower := by
    rw [snakeCase, Text.toList_ofList, hname, head?_snakeChars hc]
  have hne : snakeCase (className aggregate suffix) ≠ "" := by
    intro hempty
    rw [hempty] at hsnake
    cases hsnake
  have hsnakeChars : ∀ d ∈ (snakeCase (className aggregate suffix)).toList,
      isIdentifierChar d = true := by
    intro d hd
    rw [snakeCase, Text.toList_ofList] at hd
    exact isIdentifierChar_of_mem_snakeChars hchars hd
  refine ⟨?_, ?_, ReservedNames.python_contains_moduleName _, ?_⟩
  · rw [← hdigit]
    exact isIdentifier_iff_of_head? (by rw [hname]; rfl) hupper hchars
  · rw [ReservedNames.moduleName, ReservedNames.isIdentifier_escape _ hne, ← hdigit]
    exact isIdentifier_iff_of_head? hsnake hlower hsnakeChars
  · have hkeywords : ∀ word ∈ Python.reserved.keywords, word ∈ (["False", "None", "True"] : List Text) ∨
        word.toList.head?.any isAsciiLower = true := by decide +kernel
    have hcapital : isAsciiLower c.toUpper = false :=
      forall_ascii (toNat_lt_of_isWordChar (Bool.and_eq_true_iff.mp hc).1) (by decide)
    intro hmem
    refine (hkeywords _ hmem).resolve_right ?_
    simp [hname, hcapital]

theorem className_isIdentifier_theme :
    isIdentifier ("SharedPref" : Text).toList = true ∧ ¬ BeginsWithDigit "my theme" ∧
      isIdentifier (className "my theme" "SharedPref").toList = true ∧
      isIdentifier
        (Python.reserved.moduleName (className "my theme" "SharedPref")).toList = true := by
  have hsuffix : isIdentifier ("SharedPref" : Text).toList = true := by decide +kernel
  have hletter : ¬ BeginsWithDigit "my theme" := by decide +kernel
  obtain ⟨hclass, hmodule, -, -⟩ := className_isIdentifier_iff "my theme" hsuffix
  exact ⟨hsuffix, hletter, hclass.mpr hletter, hmodule.mpr hletter⟩

/-- The cleaned name is an identifier, and the class name that is made of it is none. -/
theorem digit_loses_shield :
    isIdentifier ("SharedPref" : Text).toList = true ∧ BeginsWithDigit "2fa" ∧
      isIdentifier (clean "2fa").toList = true ∧
      className "2fa" "SharedPref" = "2faSharedPref" ∧
      isIdentifier (className "2fa" "SharedPref").toList = false ∧
      isIdentifier
        (Python.reserved.moduleName (className "2fa" "SharedPref")).toList = false := by
  decide +kernel

end Naming

end PrefAccessor
