import Mathlib.Data.List.Find
import PrefAccessor.Proofs.Grouping
import PrefAccessor.Proofs.ClassName

/-!
# Accessor names and their groups

Whatever a field is called, a letter or digit of its own stands behind the verb of its accessors, so
that their names are plain identifiers that no target language reserves. The verb can be told from the
name, and of two fields the getters coincide exactly if the setters do, with the mark of a twin or
without. So the fields that share a getter are also those that share a setter, or a twin of either.
Main statement: `accessorName_groups`.
-/

namespace PrefAccessor

set_option autoImplicit false

open Text

namespace Naming

theorem find?_separateHumps (cs : List CodePoint) :
    (separateHumps cs).find? (fun c => !isUnderscore c) = cs.find? fun c => !isUnderscore c := by
  have hunderscore : (!isUnderscore '_') = false := rfl
  fun_induction separateHumps cs with
  | case1 a b cs hhump ih =>
    rw [List.find?_cons, List.find?_cons, List.find?_cons, hunderscore, ih]
  | case2 a b cs hhump ih => rw [List.find?_cons, List.find?_cons, ih]
  | case3 cs hcs => rfl

theorem find?_squeezeUnderscores (cs : List CodePoint) :
    (squeezeUnderscores cs).find? (fun c => !isUnderscore c) =
      cs.find? fun c => !isUnderscore c := by
  have hunderscore : (!isUnderscore '_') = false := rfl
  fun_induction squeezeUnderscores cs with
  | case1 cs ih =>
    rw [ih, List.find?_cons, hunderscore, List.find?_cons, List.find?_cons, hunderscore]
  | case2 c cs hc ih => rw [List.find?_cons, List.find?_cons, ih]
  | case3 => rfl

theorem isUnderscore_toLower {c : CodePoint} (h : isWordChar c = true) :
    isUnderscore c.toLower = isUnderscore c :=
  forall_ascii (toNat_lt_of_isWordChar h) (by decide)

/-- No step to snake case touches the first character that is no underscore, but that it becomes
small. -/
theorem head?_snakeChars_of_isWord {cs : List CodePoint} (h : IsWord cs) :
    (snakeChars cs).head? = (cs.find? fun c => !isUnderscore c).map CodePoint.toLower := by
  have hdashes : (cs.map fun c => if c = char '-' then char '_' else c) = cs := by
    refine (List.map_congr_left fun c hc => if_neg ?_).trans (List.map_id' cs)
    rintro rfl
    exact absurd (h '-' hc) (by decide)
  have hhumps := IsWord.separateHumps h
  have hfind : (separateHumps cs).find? ((fun c => !isUnderscore c) ∘ CodePoint.toLower) =
      (separateHumps cs).find? fun c => !isUnderscore c := by
    refine List.find?_congr fun c hc => ?_
    rw [Function.comp_apply, isUnderscore_toLower (hhumps c hc)]
  rw [snakeChars, hdashes, head?_trimWhile, find?_squeezeUnderscores,
    lower_of_ascii fun c hc => toNat_lt_of_isWordChar (hhumps c hc), List.find?_map, hfind,
    find?_separateHumps]

/-- What joins the verb of a name to the name of the field. -/
def joint : NameStyle → List CodePoint
  | .camel => []
  | .snake => [char '_']

theorem isLetterOrDigit_change {c : CodePoint} (h : isLetterOrDigit c = true) :
    isLetterOrDigit c.toUpper = true ∧ isLetterOrDigit c.toLower = true := by
  have hascii : isLetterOrDigit c = true →
      isLetterOrDigit c.toUpper = true ∧ isLetterOrDigit c.toLower = true :=
    forall_ascii (toNat_lt_of_isWordChar (Bool.and_eq_true_iff.mp h).1) (by decide)
  exact hascii h

theorem exists_stem (style : NameStyle) (field : Text) : ∃ c rest,
    isLetterOrDigit c = true ∧ (stem style field).toList = joint style ++ c :: rest := by
  have hfirst : isLetterOrDigit ((field.toList.find? isLetterOrDigit).getD 'f') = true := by
    cases hfound : field.toList.find? isLetterOrDigit with
    | none => decide
    | some c => exact List.find?_some hfound
  obtain ⟨hupper, hlower⟩ := isLetterOrDigit_change hfirst
  cases style with
  | camel =>
    obtain ⟨rest, hrest⟩ := List.head?_eq_some_iff.mp (head?_pascalCase_clean field)
    exact ⟨_, rest, hupper, hrest⟩
  | snake =>
    have hhead := head?_snakeChars_of_isWord (isWord_cleanChars field.toList)
    rw [find?_cleanChars, Option.map_some] at hhead
    obtain ⟨rest, hrest⟩ := List.head?_eq_some_iff.mp hhead
    refine ⟨_, rest, hlower, ?_⟩
    simp only [stem, Text.toList_append, snakeCase, clean, Text.toList_ofList, hrest]
    rfl

theorem exists_accessorName (access : Access) (field : Text) (style : NameStyle)
    (isAsync : Bool) : ∃ c rest, isLetterOrDigit c = true ∧
      (accessorName access.verb field style isAsync).toList =
        access.verb.toList ++ joint style ++ c :: rest := by
  obtain ⟨c, rest, hc, hstem⟩ := exists_stem style field
  refine ⟨c, rest ++ (twinMark style isAsync).toList, hc, ?_⟩
  rw [accessorName_eq, Text.toList_append, Text.toList_append, hstem]
  simp only [List.append_assoc, List.cons_append]

theorem accessorName_ne_verb (access : Access) (field : Text) (style : NameStyle)
    (isAsync : Bool) : accessorName access.verb field style isAsync ≠ access.verb := by
  obtain ⟨c, rest, -, hname⟩ := exists_accessorName access field style isAsync
  intro heq
  rw [heq, List.append_assoc] at hname
  simpa using List.self_eq_append_right.mp hname

/-- An ASCII letter in front of ASCII letters, digits and underscores. -/
def IsPlainName (cs : List CodePoint) : Prop :=
  ∃ c rest, cs = c :: rest ∧ (isAsciiUpper c || isAsciiLower c) = true ∧ IsWord rest

theorem isPlainName_accessorName (access : Access) (field : Text) (style : NameStyle)
    (isAsync : Bool) : IsPlainName (accessorName access.verb field style isAsync).toList := by
  have hverb : ∃ c cs, access.verb.toList = c :: cs ∧ isAsciiLower c = true := by
    cases access with
    | get => exact ⟨'g', [char 'e', char 't'], rfl, rfl⟩
    | set => exact ⟨'s', [char 'e', char 't'], rfl, rfl⟩
  obtain ⟨c, cs, hcs, hletter⟩ := hverb
  have hword := isWord_accessorName access field style isAsync
  rw [accessorName_eq, Text.toList_append, hcs, List.cons_append] at hword ⊢
  refine ⟨c, _, rfl, by rw [hletter, Bool.or_true], ?_⟩
  exact fun d hd => hword d (List.mem_cons_of_mem c hd)

/-- No reserved name begins with a verb. -/
theorem reserved_contains_accessorName (t : Target) (access : Access) (field : Text)
    (style : NameStyle) (isAsync : Bool) :
    t.reserved.contains (accessorName access.verb field style isAsync) = false := by
  have hprefix : ∀ word ∈ t.reserved.keywords ++ t.reserved.taken,
      ¬ access.verb.toList <+: word.toList := by
    cases t <;> cases access <;> decide +kernel
  rw [← Bool.not_eq_true, ReservedNames.contains, Bool.or_eq_true, List.contains_iff_mem,
    List.contains_iff_mem, ← List.mem_append]
  intro hmem
  refine hprefix _ hmem ?_
  rw [accessorName_eq, Text.toList_append]
  exact List.prefix_append _ _

/-- Two fields agree in one kind of accessor exactly if they agree in any other. -/
theorem accessorName_eq_iff (a b : Access) (x y : Bool) (style : NameStyle) (field other : Text) :
    accessorName a.verb field style x = accessorName a.verb other style x ↔
      accessorName b.verb field style y = accessorName b.verb other style y := by
  simp only [accessorName_eq, verb_append_inj, true_and, Text.append_left_inj]

/-- Two or more fields, in field order: all that have an accessor of this kind in common. -/
def IsGroup (style : NameStyle) (fields : List Text) (a : Access) (x : Bool)
    (names : List Text) : Prop :=
  1 < names.length ∧
    ∃ name, names = fields.filter fun f => decide (accessorName a.verb f style x = name)

theorem IsGroup.of_kind {style : NameStyle} {fields : List Text} {a b : Access} {x y : Bool}
    {names : List Text} (h : IsGroup style fields a x names) :
    IsGroup style fields b y names := by
  obtain ⟨hlength, name, rfl⟩ := h
  refine ⟨hlength, ?_⟩
  obtain ⟨f, hf⟩ := List.exists_mem_of_length_pos (Nat.lt_trans Nat.zero_lt_one hlength)
  obtain rfl := of_decide_eq_true (List.mem_filter.mp hf).2
  refine ⟨accessorName b.verb f style y, List.filter_congr fun h _ => ?_⟩
  exact decide_eq_decide.mpr (accessorName_eq_iff a b x y style h f)

theorem isGroup_iff_mem_collisions {style : NameStyle} {fields names : List Text} :
    IsGroup style fields .get false names ↔ ∃ name, (name, names) ∈ collisions style fields := by
  simp only [collisions, mem_sharedGroups]
  constructor
  · rintro ⟨hlength, name, hnames⟩
    exact ⟨name, hnames, hlength⟩
  · rintro ⟨name, hnames, hlength⟩
    exact ⟨hlength, name, hnames⟩

/-- Every accessor name is a plain identifier that is not reserved, and holds a letter or digit behind
the verb; no getter is called like a setter. Two fields agree in all four kinds of accessors or in
none. So the groups under which fields are reported, each of them two or more fields in field order
with all that have the same getter, are the groups of setters and of twins as well. -/
theorem accessorName_groups :
    (∀ (access : Access) (field : Text) (style : NameStyle) (isAsync : Bool),
      IsPlainName (accessorName access.verb field style isAsync).toList ∧
      (∀ t : Target, t.reserved.contains (accessorName access.verb field style isAsync) = false) ∧
      accessorName access.verb field style isAsync ≠ access.verb ∧
      ∃ c rest, isLetterOrDigit c = true ∧
        (accessorName access.verb field style isAsync).toList =
          access.verb.toList ++ joint style ++ c :: rest) ∧
    (∀ (field other : Text) (style style' : NameStyle) (x y : Bool),
      accessorName Access.get.verb field style x ≠ accessorName Access.set.verb other style' y) ∧
    (∀ (a b : Access) (x y : Bool) (style : NameStyle) (field other : Text),
      accessorName a.verb field style x = accessorName a.verb other style x ↔
        accessorName b.verb field style y = accessorName b.verb other style y) ∧
    ∀ (style : NameStyle) (fields : List Text),
      (Entries.keys (collisions style fields)).Nodup ∧
      (∀ name names, (name, names) ∈ collisions style fields ↔
        names = (fields.filter fun f =>
          decide (accessorName Access.get.verb f style false = name)) ∧ 1 < names.length) ∧
      ∀ (a : Access) (x : Bool) (names : List Text),
        (∃ name, (name, names) ∈ collisions style fields) ↔ IsGroup style fields a x names := by
  refine ⟨?_, ?_, accessorName_eq_iff, ?_⟩
  · intro access field style isAsync
    exact ⟨isPlainName_accessorName access field style isAsync,
      fun t => reserved_contains_accessorName t access field style isAsync,
      accessorName_ne_verb access field style isAsync,
      exists_accessorName access field style isAsync⟩
  · intro field other style style' x y heq
    rw [accessorName_eq, accessorName_eq, verb_append_inj] at heq
    cases heq.1
  · intro style fields
    refine ⟨nodup_keys_sharedGroups _ _, fun name names => mem_sharedGroups, fun a x names => ?_⟩
    rw [← isGroup_iff_mem_collisions]
    exact ⟨IsGroup.of_kind, IsGroup.of_kind⟩

end Naming

end PrefAccessor
