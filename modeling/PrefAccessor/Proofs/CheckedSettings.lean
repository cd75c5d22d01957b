import Mathlib.Data.List.Basic
import PrefAccessor.Proofs.CommandRun

/-!
# Checked settings

Settings are checked as they come, values of any kind. If each of them is of a kind that its check can
look at, there is one warning for each that is out of order, and a command goes on behind them. Any
other value is a fault of its check, and a command ends there without a word. Two things out of order
are overlooked: an indentation that is a floating point value but no number, and a package that is no
text but counts as not set. Main statement: `warnings_decided`.
-/

namespace PrefAccessor

set_option autoImplicit false

namespace Json

def IsCollection : Json → Prop
  | .array _ => True
  | .object _ => True
  | _ => False

/-- Truth values are numbers, as they count as one and zero. -/
def IsNumber : Json → Prop
  | .bool _ => True
  | .int _ => True
  | .float _ => True
  | _ => False

def IsAtLeastOne : Json → Prop
  | .bool b => b = true
  | .int n => 1 ≤ n
  | .float x => x ≠ .nan ∧ x.isBelowOne = false
  | _ => False

instance (v : Json) : Decidable v.IsAtLeastOne :=
  match v with
  | .null => inferInstanceAs (Decidable False)
  | .bool b => inferInstanceAs (Decidable (b = true))
  | .int n => inferInstanceAs (Decidable (1 ≤ n))
  | .float x => inferInstanceAs (Decidable (x ≠ .nan ∧ x.isBelowOne = false))
  | .string _ => inferInstanceAs (Decidable False)
  | .array _ => inferInstanceAs (Decidable False)
  | .object _ => inferInstanceAs (Decidable False)

theorem IsAtLeastOne.isNumber {v : Json} (h : v.IsAtLeastOne) : v.IsNumber := by
  cases v <;> trivial

end Json

namespace Settings

/-- Identifiers with dots between them. -/
def IsDotted (text : Text) : Prop :=
  ∃ parts : List (List CodePoint), parts ≠ [] ∧ (∀ part ∈ parts, Text.isIdentifier part = true) ∧
    text.toList = [char '.'].intercalate parts

/-- The settings are within their ranges, and the style is one that the language has. -/
structure IsInOrder (s : Settings) (language : Json) : Prop where
  methodCase : s.methodCase = .string "camel" ∨ s.methodCase = .string "snake"
  style : language = .string "kotlin" → s.methodCase ≠ .string "snake"
  classSuffix : ∃ text, s.classSuffix = .string text ∧ Text.isIdentifier text.toList = true
  indentSize : s.indentSize.IsAtLeastOne
  packageName : s.packageName = .null ∨ s.packageName = .string "" ∨
    ∃ text, s.packageName = .string text ∧ IsDotted text

/-- What a warning is due for. -/
inductive Deserves (s : Settings) (language : Json) : SettingsWarning → Prop
  | methodCase (hcamel : s.methodCase ≠ .string "camel") (hsnake : s.methodCase ≠ .string "snake") :
    Deserves s language (.methodCase s.methodCase)
  | styleOfKotlin (hlanguage : language = .string "kotlin") (hsnake : s.methodCase = .string "snake") :
    Deserves s language .styleOfKotlin
  | classSuffix {text : Text} (htext : s.classSuffix = .string text)
    (hidentifier : Text.isIdentifier text.toList = false) : Deserves s language (.classSuffix text)
  | indentSize (hone : ¬ s.indentSize.IsAtLeastOne) (hnan : s.indentSize ≠ .float .nan) :
    Deserves s language (.indentSize s.indentSize)
  | packageName {text : Text} (htext : s.packageName = .string text) (hne : text ≠ "")
    (hdotted : ¬ IsDotted text) : Deserves s language (.packageName text)

/-- Each value is of a kind that its check can look at, and can be named where it has to be. -/
structure IsCheckable (s : Settings) : Prop where
  methodCase : ¬ s.methodCase.IsCollection ∧ s.methodCase.isWritable = true
  classSuffix : ∃ text, s.classSuffix = .string text
  indentSize : s.indentSize.IsNumber ∧
    (s.indentSize.IsAtLeastOne ∨ s.indentSize.isWritable = true)
  packageName : s.packageName.isSet = true → ∃ text, s.packageName = .string text

/-- Something out of order that no check finds. -/
def IsOverlooked (s : Settings) : Prop :=
  s.indentSize = .float .nan ∨
    (s.packageName.isSet = false ∧ s.packageName ≠ .null ∧ s.packageName ≠ .string "")

theorem isDottedName_iff {text : Text} : isDottedName text = true ↔ IsDotted text := by
  rw [isDottedName, List.all_eq_true]
  constructor
  · intro h
    exact ⟨_, List.splitOn_ne_nil _ _, h, (List.intercalate_splitOn (char '.')).symm⟩
  · rintro ⟨parts, hne, hparts, htext⟩
    have hdot : ∀ part ∈ parts, char '.' ∉ part := by
      intro part hpart hmem
      exact absurd (Text.isIdentifierChar_of_mem (hparts part hpart) hmem) (by decide)
    rwa [htext, List.splitOn_intercalate (char '.') hdot hne]

/-- The kinds of fault that a check can end with. -/
def IsCheckFault (k : Fault) : Prop :=
  k = .wrongKind ∨ k = .missingOperation ∨ k = .badValue

/-- The check is made if `fits` holds, and has the warnings that are due; else it is a fault. -/
structure Decides (check : Except Fault (List SettingsWarning)) (fits : Prop)
    (due : SettingsWarning → Prop) : Prop where
  made : fits → ∃ ws, check = .ok ws ∧ ∀ w, w ∈ ws ↔ due w
  stopped : ¬ fits → ∃ k, check = .error k ∧ IsCheckFault k

namespace Decides

variable {check : Except Fault (List SettingsWarning)} {fits : Prop}
  {due : SettingsWarning → Prop}

/-- A check that is made of every value it is asked about. -/
theorem of_ok {ws : List SettingsWarning} (hfits : fits) (hdue : ∀ w, w ∈ ws ↔ due w) :
    Decides (.ok ws) fits due :=
  ⟨fun _ => ⟨ws, rfl, hdue⟩, fun hnot => absurd hfits hnot⟩

theorem of_fault {k : Fault} (hnot : ¬ fits) (hk : IsCheckFault k) : Decides (.error k) fits due :=
  ⟨fun hfits => absurd hfits hnot, fun _ => ⟨k, rfl, hk⟩⟩

theorem congr {fits' : Prop} {due' : SettingsWarning → Prop} (h : Decides check fits due)
    (hfits : fits' ↔ fits) (hdue : ∀ w, due' w ↔ due w) : Decides check fits' due' := by
  rw [show due' = due from funext fun w => propext (hdue w), propext hfits]
  exact h

theorem exists_ok_iff (h : Decides check fits due) : (∃ ws, check = .ok ws) ↔ fits := by
  constructor
  · rintro ⟨ws, hws⟩
    by_contra hnot
    obtain ⟨k, hk, -⟩ := h.stopped hnot
    rw [hws] at hk
    cases hk
  · intro hfits
    obtain ⟨ws, hws, -⟩ := h.made hfits
    exact ⟨ws, hws⟩

theorem mem_iff (h : Decides check fits due) {ws : List SettingsWarning}
    (hws : check = .ok ws) (w : SettingsWarning) : w ∈ ws ↔ due w := by
  obtain ⟨ws', hws', hmem⟩ := h.made (h.exists_ok_iff.mp ⟨ws, hws⟩)
  rw [hws] at hws'
  cases hws'
  exact hmem w

theorem isCheckFault (h : Decides check fits due) {k : Fault} (hk : check = .error k) :
    IsCheckFault k := by
  have hnot : ¬ fits := by
    rw [← h.exists_ok_iff, hk]
    rintro ⟨ws, ⟨⟩⟩
  obtain ⟨k', hk', hkind⟩ := h.stopped hnot
  rw [hk] at hk'
  cases hk'
  exact hkind

theorem eq_ok_nil_iff (h : Decides check fits due) :
    check = .ok [] ↔ fits ∧ ∀ w, ¬ due w := by
  constructor
  · intro hnil
    refine ⟨h.exists_ok_iff.mp ⟨[], hnil⟩, fun w hw => ?_⟩
    exact List.not_mem_nil ((h.mem_iff hnil w).mpr hw)
  · rintro ⟨hfits, hnone⟩
    obtain ⟨ws, hws, hmem⟩ := h.made hfits
    rw [hws, List.eq_nil_iff_forall_not_mem.mpr fun w hw => hnone w ((hmem w).mp hw)]

/-- Checks come one after another, up to the first one that cannot be made. -/
theorem bind_stopped {β : Type} {rest : List SettingsWarning → Except Fault β}
    (h : Decides check fits due)
    (hrest : fits → ∀ ws, ∃ k, rest ws = .error k ∧ IsCheckFault k) :
    ∃ k, (check >>= rest) = .error k ∧ IsCheckFault k := by
  by_cases hfits : fits
  · obtain ⟨ws, hws, -⟩ := h.made hfits
    rw [hws]
    exact hrest hfits ws
  · obtain ⟨k, hk, hkind⟩ := h.stopped hfits
    rw [hk]
    exact ⟨k, rfl, hkind⟩

end Decides

theorem warnOf_decides (warning : Json → SettingsWarning) (v : Json) :
    Decides (warnOf warning v) (v.isWritable = true) fun w => w = warning v := by
  constructor
  · intro hwritable
    exact ⟨[warning v], if_pos hwritable, fun w => List.mem_singleton⟩
  · intro hlong
    exact ⟨.badValue, if_neg hlong, Or.inr (Or.inr rfl)⟩

theorem methodCaseWarnings_decides (v : Json) :
    Decides (methodCaseWarnings v) (¬ v.IsCollection ∧ v.isWritable = true) fun w =>
      w = .methodCase v ∧ v ≠ .string "camel" ∧ v ≠ .string "snake" := by
  by_cases hv : v.IsCollection
  · have hfault : methodCaseWarnings v = .error .wrongKind := by
      cases v <;> first | rfl | exact absurd hv id
    rw [hfault]
    exact .of_fault (fun hfits => hfits.1 hv) (Or.inl rfl)
  · have hlooked : methodCaseWarnings v =
        if v = .string "camel" ∨ v = .string "snake" then .ok [] else warnOf .methodCase v := by
      cases v <;> first | rfl | exact absurd trivial hv
    rw [hlooked]
    split
    · rename_i hstyle
      have hwritable : v.isWritable = true := by
        rcases hstyle with rfl | rfl <;> exact Json.isWritable_string _
      exact .of_ok ⟨hv, hwritable⟩ fun w => by simpa using fun _ h => hstyle.resolve_left h
    · rename_i hstyle
      rw [not_or] at hstyle
      exact (warnOf_decides _ v).congr (and_iff_right hv) fun w => and_iff_left hstyle

theorem classSuffixWarnings_decides (v : Json) :
    Decides (classSuffixWarnings v) (∃ text, v = .string text) fun w =>
      ∃ text, v = .string text ∧ Text.isIdentifier text.toList = false ∧ w = .classSuffix text := by
  cases v with
  | string text =>
    refine .of_ok ⟨text, rfl⟩ fun w => ?_
    cases hidentifier : Text.isIdentifier text.toList <;> simp [isIdentifierText, hidentifier]
  | _ => exact .of_fault (by simp) (Or.inr (Or.inl rfl))

theorem indentSizeWarnings_decides (v : Json) :
    Decides (indentSizeWarnings v)
      (v.IsNumber ∧ (v.IsAtLeastOne ∨ v.isWritable = true)) fun w =>
        w = .indentSize v ∧ ¬ v.IsAtLeastOne ∧ v ≠ .float .nan := by
  cases v with
  | bool b =>
    refine .of_ok ⟨trivial, Or.inr (by simp [Json.isWritable])⟩ fun w => ?_
    cases b <;> simp [Json.IsAtLeastOne]
  | int n =>
    rw [indentSizeWarnings]
    split
    · rename_i hn
      have hone : ¬ (Json.int n).IsAtLeastOne := Int.not_le.mpr hn
      refine (warnOf_decides _ _).congr ?_ fun w => ?_
      · simp [Json.IsNumber, hone]
      · simp [hone]
    · rename_i hn
      have hone : (Json.int n).IsAtLeastOne := Int.not_lt.mp hn
      exact .of_ok ⟨trivial, Or.inl hone⟩ fun w => by simp [hone]
  | float x =>
    refine .of_ok ⟨trivial, Or.inr (by simp [Json.isWritable])⟩ fun w => ?_
    by_cases hnan : x = .nan
    · subst hnan
      simp [Number.Binary64.isBelowOne]
    · cases hbelow : x.isBelowOne <;> simp [Json.IsAtLeastOne, hnan, hbelow]
  | _ => exact .of_fault (fun hfits => hfits.1) (Or.inl rfl)

theorem packageNameWarnings_decides (v : Json) :
    Decides (packageNameWarnings v) (v.isSet = true → ∃ text, v = .string text) fun w =>
      ∃ text, v = .string text ∧ text ≠ "" ∧ ¬ IsDotted text ∧ w = .packageName text := by
  unfold packageNameWarnings
  cases hset : v.isSet with
  | false =>
    refine .of_ok (by simp) fun w => ?_
    simp only [List.not_mem_nil, false_iff, not_exists]
    rintro text ⟨rfl, hne, -⟩
    simp [Json.isSet, hne] at hset
  | true =>
    rw [if_pos rfl]
    split
    · rename_i text
      refine .of_ok (fun _ => ⟨text, rfl⟩) fun w => ?_
      have hne : text ≠ "" := by simpa [Json.isSet] using hset
      simp only [← isDottedName_iff, Json.string.injEq, exists_eq_left', hne, ne_eq,
        not_false_eq_true, true_and]
      split <;> simp [*]
    · rename_i hother
      exact .of_fault (fun hfits => (hfits rfl).elim hother) (Or.inr (Or.inl rfl))

section

variable {s : Settings} {language : Json}

theorem warnings_decides (s : Settings) (language : Json) :
    Decides (s.warnings language) s.IsCheckable (s.Deserves language) := by
  have hstyle := methodCaseWarnings_decides s.methodCase
  have hsuffix := classSuffixWarnings_decides s.classSuffix
  have hindent := indentSizeWarnings_decides s.indentSize
  have hpackage := packageNameWarnings_decides s.packageName
  constructor
  · rintro ⟨hfitsStyle, hfitsSuffix, hfitsIndent, hfitsPackage⟩
    obtain ⟨styles, hstyles, hmemStyles⟩ := hstyle.made hfitsStyle
    obtain ⟨suffixes, hsuffixes, hmemSuffixes⟩ := hsuffix.made hfitsSuffix
    obtain ⟨indents, hindents, hmemIndents⟩ := hindent.made hfitsIndent
    obtain ⟨packages, hpackages, hmemPackages⟩ := hpackage.made hfitsPackage
    refine ⟨styles ++ (if language = .string "kotlin" ∧ s.methodCase = .string "snake" then
      [.styleOfKotlin] else []) ++ suffixes ++ indents ++ packages, ?_, fun w => ?_⟩
    · simp only [warnings, hstyles, hsuffixes, hindents, hpackages, bind, Except.bind]
    · simp only [List.mem_append, hmemStyles, hmemSuffixes, hmemIndents, hmemPackages,
        List.mem_ite_nil_right, List.mem_singleton]
      constructor
      · rintro ((((⟨rfl, hcamel, hsnake⟩ | ⟨⟨hlanguage, hsnake⟩, rfl⟩) | ⟨text, htext, hid, rfl⟩) |
          ⟨rfl, hone, hnan⟩) | ⟨text, htext, hne, hdotted, rfl⟩)
        · exact .methodCase hcamel hsnake
        · exact .styleOfKotlin hlanguage hsnake
        · exact .classSuffix htext hid
        · exact .indentSize hone hnan
        · exact .packageName htext hne hdotted
      · intro hdue
        cases hdue with
        | methodCase hcamel hsnake => exact Or.inl (Or.inl (Or.inl (Or.inl ⟨rfl, hcamel, hsnake⟩)))
        | styleOfKotlin hlanguage hsnake =>
          exact Or.inl (Or.inl (Or.inl (Or.inr ⟨⟨hlanguage, hsnake⟩, rfl⟩)))
        | classSuffix htext hid => exact Or.inl (Or.inl (Or.inr ⟨_, htext, hid, rfl⟩))
        | indentSize hone hnan => exact Or.inl (Or.inr ⟨rfl, hone, hnan⟩)
        | packageName htext hne hdotted => exact Or.inr ⟨_, htext, hne, hdotted, rfl⟩
  · intro hnot
    exact hstyle.bind_stopped fun hfitsStyle _ => hsuffix.bind_stopped fun hfitsSuffix _ =>
      hindent.bind_stopped fun hfitsIndent _ => hpackage.bind_stopped fun hfitsPackage _ =>
        absurd ⟨hfitsStyle, hfitsSuffix, hfitsIndent, hfitsPackage⟩ hnot

theorem IsInOrder.isCheckable (h : s.IsInOrder language) : s.IsCheckable := by
  refine ⟨?_, ?_, ?_, ?_⟩
  · rcases h.methodCase with hstyle | hstyle <;> rw [hstyle] <;>
      exact ⟨id, Json.isWritable_string _⟩
  · obtain ⟨text, htext, -⟩ := h.classSuffix
    exact ⟨text, htext⟩
  · have hone := h.indentSize
    exact ⟨hone.isNumber, Or.inl hone⟩
  · intro hset
    rcases h.packageName with hnull | hempty | ⟨text, htext, -⟩
    · rw [hnull] at hset
      cases hset
    · exact ⟨"", hempty⟩
    · exact ⟨text, htext⟩

theorem IsInOrder.not_deserves (h : s.IsInOrder language) (w : SettingsWarning) :
    ¬ s.Deserves language w := by
  intro hdue
  cases hdue with
  | methodCase hcamel hsnake => exact h.methodCase.elim hcamel hsnake
  | styleOfKotlin hlanguage hsnake => exact h.style hlanguage hsnake
  | classSuffix htext hid =>
    obtain ⟨text, htext', hidentifier⟩ := h.classSuffix
    rw [htext'] at htext
    cases htext
    rw [hidentifier] at hid
    cases hid
  | indentSize hone => exact hone h.indentSize
  | packageName htext hne hdotted =>
    rcases h.packageName with hnull | hempty | ⟨text, htext', hdotted'⟩
    · rw [hnull] at htext
      cases htext
    · rw [hempty] at htext
      exact hne (Json.string.inj htext).symm
    · rw [htext'] at htext
      cases htext
      exact hdotted hdotted'

theorem isInOrder_iff : s.IsInOrder language ↔
    (s.IsCheckable ∧ ∀ w, ¬ s.Deserves language w) ∧ ¬ s.IsOverlooked := by
  constructor
  · intro h
    refine ⟨⟨h.isCheckable, h.not_deserves⟩, ?_⟩
    rintro (hnan | ⟨hset, hnull, hempty⟩)
    · have hone := h.indentSize
      rw [hnan] at hone
      exact hone.1 rfl
    · rcases h.packageName with hnull' | hempty' | ⟨text, htext, hdotted⟩
      · exact hnull hnull'
      · exact hempty hempty'
      · rw [htext] at hset hempty
        have htext' : text = "" := by simpa [Json.isSet] using hset
        exact hempty (congrArg Json.string htext')
  · rintro ⟨⟨hcheckable, hnone⟩, hseen⟩
    rw [IsOverlooked, not_or] at hseen
    refine ⟨?_, ?_, ?_, ?_, ?_⟩
    · by_contra hstyle
      rw [not_or] at hstyle
      exact hnone _ (.methodCase hstyle.1 hstyle.2)
    · intro hlanguage hsnake
      exact hnone _ (.styleOfKotlin hlanguage hsnake)
    · obtain ⟨text, htext⟩ := hcheckable.classSuffix
      refine ⟨text, htext, ?_⟩
      by_contra hid
      exact hnone _ (.classSuffix htext (Bool.eq_false_iff.mpr hid))
    · by_contra hone
      exact hnone _ (.indentSize hone hseen.1)
    · by_cases hset : s.packageName.isSet = true
      · obtain ⟨text, htext⟩ := hcheckable.packageName hset
        refine Or.inr (Or.inr ⟨text, htext, ?_⟩)
        by_contra hdotted
        refine hnone _ (.packageName htext ?_ hdotted)
        rintro rfl
        rw [htext] at hset
        cases hset
      · by_contra hpackage
        rw [not_or, not_or] at hpackage
        exact hseen.2 ⟨Bool.eq_false_iff.mpr hset, hpackage.1, hpackage.2.1⟩

end

end Settings

namespace CommandLine

variable {env : Environment} {r : Request} {language : Text} {s : Settings}

/-- What is said about the settings is part of what a command leaves behind. -/
theorem mem_events_prepare (hlanguage : Registry.builtin.resolve r.language = some language)
    (hconfigured : Settings.load env.tree (.string language) (.object r.overrides)
      r.settingsFile = .ok s) {e : Event} (he : e ∈ (warnAbout s language).events) :
    e ∈ (prepare env r).events := by
  obtain ⟨members, hread, hresolve⟩ := load_eq_ok_iff.mp hconfigured
  unfold prepare
  simp only [hlanguage]
  refine Traced.mem_events_bind.mpr (Or.inr ⟨language, rfl, ?_⟩)
  refine Traced.mem_events_bind.mpr (Or.inr ⟨members, hread, ?_⟩)
  refine Traced.mem_events_bind.mpr (Or.inr ⟨s, ?_, Traced.mem_events_bind.mpr (Or.inl he)⟩)
  rw [hresolve]
  rfl

theorem prepare_of_unchecked (hlanguage : Registry.builtin.resolve r.language = some language)
    (hconfigured : Settings.load env.tree (.string language) (.object r.overrides)
      r.settingsFile = .ok s) {k : Fault} (hk : s.warnings (.string language) = .error k) :
    (prepare env r).outcome = .error (.fault k) := by
  obtain ⟨members, hread, hresolve⟩ := load_eq_ok_iff.mp hconfigured
  have hwarn : (warnAbout s language).outcome = .error (.fault k) := by
    simp only [warnAbout, hk]
    rfl
  rw [prepare_of_resolved hlanguage, hread]
  change (Attempt.ofFaults (Settings.resolve (.string language) members (.object r.overrides)) >>=
    _) = _
  rw [hresolve]
  change ((warnAbout s language).outcome >>= _) = _
  rw [hwarn]
  rfl

/-- Whatever becomes of a command, what its preparation said is in the log, from the level on that is
logged. -/
theorem mem_log_generate {e : Event} (he : e ∈ (prepare env r).events)
    (hlevel : r.verbosity.threshold.rank ≤ e.record.level.rank) :
    e.record ∈ (generate env r).log := by
  have hlog (events : List Event) (h : e ∈ events) : e.record ∈ logOf r.verbosity events :=
    List.mem_filter.mpr ⟨List.mem_map_of_mem h, decide_eq_true hlevel⟩
  unfold generate
  rcases hprepare : (prepare env r).outcome with (c | k) | p
  · simp only [hprepare]
    exact hlog _ he
  · simp only [hprepare]
    exact hlog _ he
  · rcases hrun : Pass.run p.generator p.sink p.sources with ⟨st, _ | k⟩
    · simp only [hprepare, hrun]
      exact hlog _ (List.mem_append_left _ he)
    · simp only [hprepare, hrun]
      exact hlog _ (List.mem_append_left _ he)

theorem warning_mem_log (hlanguage : Registry.builtin.resolve r.language = some language)
    (hconfigured : Settings.load env.tree (.string language) (.object r.overrides)
      r.settingsFile = .ok s) {ws : List SettingsWarning}
    (hws : s.warnings (.string language) = .ok ws) (hloud : r.verbosity ≠ .quiet)
    {w : SettingsWarning} (hw : w ∈ ws) : ⟨.warning, w.message⟩ ∈ (generate env r).log := by
  have hevent : Event.trace ⟨.warning, w.message⟩ ∈ (warnAbout s language).events := by
    simp only [warnAbout, hws]
    exact List.mem_map_of_mem hw
  have hlevel : r.verbosity.threshold.rank ≤ Level.warning.rank := by
    cases hverbosity : r.verbosity with
    | normal => decide
    | verbose => decide
    | quiet => exact absurd hverbosity hloud
  exact mem_log_generate (mem_events_prepare hlanguage hconfigured hevent) hlevel

theorem generate_of_unchecked (hlanguage : Registry.builtin.resolve r.language = some language)
    (hconfigured : Settings.load env.tree (.string language) (.object r.overrides)
      r.settingsFile = .ok s) {k : Fault} (hk : s.warnings (.string language) = .error k) :
    (generate env r).exit = .fault k ∧ (generate env r).printed = [] ∧
      (generate env r).tree = env.tree := by
  simp only [generate, prepare_of_unchecked hlanguage hconfigured hk, and_self]

end CommandLine

namespace Settings

open CommandLine

/-- Settings can be checked exactly if each value is of a kind that its check takes, and then the
warnings are those that are due; there is none exactly if the settings are in order, but for what is
overlooked. A command whose settings can be checked logs each warning, unless it is told to be quiet;
any other ends with the fault of the check, without having printed or written anything. -/
theorem warnings_decided (s : Settings) (language : Json) :
    ((∃ ws, s.warnings language = .ok ws) ↔ s.IsCheckable) ∧
      (∀ ws, s.warnings language = .ok ws → ∀ w, w ∈ ws ↔ s.Deserves language w) ∧
      (s.IsInOrder language ↔ s.warnings language = .ok [] ∧ ¬ s.IsOverlooked) ∧
      (∀ k, s.warnings language = .error k → IsCheckFault k) ∧
      ∀ (env : Environment) (r : Request) (name : Text),
        Registry.builtin.resolve r.language = some name →
        load env.tree (.string name) (.object r.overrides) r.settingsFile = .ok s →
          (∀ ws, s.warnings (.string name) = .ok ws → r.verbosity ≠ .quiet →
            ∀ w ∈ ws, ⟨.warning, w.message⟩ ∈ (generate env r).log) ∧
          ∀ k, s.warnings (.string name) = .error k →
            (generate env r).exit = .fault k ∧ (generate env r).printed = [] ∧
              (generate env r).tree = env.tree := by
  have hdecides := warnings_decides s language
  refine ⟨hdecides.exists_ok_iff, fun ws hws => hdecides.mem_iff hws, ?_,
    fun k hk => hdecides.isCheckFault hk, ?_⟩
  · rw [isInOrder_iff, hdecides.eq_ok_nil_iff]
  · intro env r name hlanguage hconfigured
    exact ⟨fun ws hws hloud w hw => warning_mem_log hlanguage hconfigured hws hloud hw,
      fun k hk => generate_of_unchecked hlanguage hconfigured hk⟩

/-- A module with one aggregate, beside a file of settings. -/
def besideSettings (text : String) : Environment where
  tree := [(["c.json"], .file text.toUTF8)]
  modules := [⟨"app", [("Theme", .declaration themeClass)]⟩]
  console := plainConsole
  room := 1000000

def configuredRequest : Request :=
  ⟨["app"], "python", none, some "c.json", none, none, none, false, false, false, .normal⟩

def zeroIndent : Settings :=
  { indentSize := .int 0, languageConfig := .object [("type_hints", .bool true)] }

def nullSuffix : Settings :=
  { classSuffix := .null, languageConfig := .object [("type_hints", .bool true)] }

/-- One file is reported, the other one ends the command. -/
theorem zeroIndent_reported_nullSuffix_stops :
    Registry.builtin.resolve configuredRequest.language = some ("python" : Text) ∧
      load (besideSettings "\x7b\"indent_size\": 0\x7d").tree (.string "python")
        (.object configuredRequest.overrides) configuredRequest.settingsFile = .ok zeroIndent ∧
      zeroIndent.warnings (.string "python") = .ok [.indentSize (.int 0)] ∧
      ⟨.warning, "Invalid indent_size: 0"⟩ ∈
        (generate (besideSettings "\x7b\"indent_size\": 0\x7d") configuredRequest).log ∧
      load (besideSettings "\x7b\"class_suffix\": null\x7d").tree (.string "python")
        (.object configuredRequest.overrides) configuredRequest.settingsFile = .ok nullSuffix ∧
      nullSuffix.warnings (.string "python") = .error .missingOperation ∧
      (generate (besideSettings "\x7b\"class_suffix\": null\x7d") configuredRequest).exit =
        .fault .missingOperation := by
  have hlanguage : Registry.builtin.resolve configuredRequest.language = some ("python" : Text) := by
    decide +kernel
  have hzero : load (besideSettings "\x7b\"indent_size\": 0\x7d").tree (.string "python")
      (.object configuredRequest.overrides) configuredRequest.settingsFile = .ok zeroIndent := by
    decide +kernel
  have hnull : load (besideSettings "\x7b\"class_suffix\": null\x7d").tree (.string "python")
      (.object configuredRequest.overrides) configuredRequest.settingsFile = .ok nullSuffix := by
    decide +kernel
  have hwarned : zeroIndent.warnings (.string "python") = .ok [.indentSize (.int 0)] := by
    decide +kernel
  have hstopped : nullSuffix.warnings (.string "python") = .error .missingOperation := by
    decide +kernel
  obtain ⟨-, -, -, -, hreported⟩ := warnings_decided zeroIndent (.string "python")
  obtain ⟨-, -, -, -, hends⟩ := warnings_decided nullSuffix (.string "python")
  refine ⟨hlanguage, hzero, hwarned, ?_, hnull, hstopped, ?_⟩
  · exact (hreported _ _ _ hlanguage hzero).1 _ hwarned (by decide) _ List.mem_cons_self
  · exact ((hends _ _ _ hlanguage hnull).2 _ hstopped).1

/-- A suffix that is null ends the command by the fault of its check. An indentation that is no number,
which a file can hold, is not warned about, and neither is a broken number, though it ends the
command. -/
theorem mistyped_settings_end_command :
    (run (besideSettings "\x7b\"class_suffix\": null\x7d")
        ["generate", "app", "--config", "c.json"]).exit = .fault .missingOperation ∧
      (load (besideSettings "\x7b\"class_suffix\": null\x7d").tree (.string "python") .null
        (.string "c.json")).map (fun s => s.warnings (.string "python")) =
          .ok (.error .missingOperation) ∧
      (load (besideSettings "\x7b\"indent_size\": NaN\x7d").tree (.string "python") .null
        (.string "c.json")).map (fun s => (s.warnings (.string "python"), s.indentSize)) =
          .ok (.ok [], .float .nan) ∧
      ¬ (Json.float .nan).IsAtLeastOne ∧
      (run (besideSettings "\x7b\"indent_size\": 2.5\x7d")
        ["generate", "app", "--config", "c.json"]).exit = .fault .wrongKind ∧
      (run (besideSettings "\x7b\"indent_size\": 2.5\x7d")
        ["generate", "app", "--config", "c.json"]).log = [] := by
  decide +kernel

end Settings

end PrefAccessor
