import Mathlib.Data.List.Basic
import PrefAccessor.Generator

/-!
# What a generator returns

The methods of a class field by field, and the outcome of generating a schema: under settings of the
declared kinds it depends on nothing but the defaults of the fields, the indentation and the
template. This module does not look at the text of a class.
-/

namespace PrefAccessor

set_option autoImplicit false

/-- The settings have the kinds that they are declared with; nothing is said about their values. -/
structure Settings.WellTyped (s : Settings) : Prop where
  outputDir : s.outputDir = .null ∨ ∃ path, s.outputDir = .string path
  packageName : s.packageName = .null ∨ ∃ name, s.packageName = .string name
  indentSize : ∃ n, s.indentSize = .int n
  classSuffix : ∃ text, s.classSuffix = .string text
  methodCase : ∃ text, s.methodCase = .string text
  allowDuplicateKeys : ∃ b, s.allowDuplicateKeys = .bool b
  stopOnEmptySchema : ∃ b, s.stopOnEmptySchema = .bool b
  addComments : ∃ b, s.addComments = .bool b
  languageConfig : ∃ members, s.languageConfig = .object members

def Profile.WellTyped : Profile → Prop
  | .python _ => True
  | .kotlin contextClass dispatcher =>
    (∃ name, contextClass = .string name) ∧ ∃ text, dispatcher = .string text

structure Generator.WellTyped (g : Generator) : Prop where
  settings : g.settings.WellTyped
  profile : g.profile.WellTyped

/-- The texts of a schema that stand in literals have an encoded form. -/
structure Schema.HasEncodableTexts (s : Schema) : Prop where
  store : s.storeName.isEncodable = true
  keys : ∀ f ∈ s.fields, f.key.isEncodable = true
  defaults : ∀ f ∈ s.fields, ∀ t, f.defaultValue = .ok (.string t) → t.isEncodable = true

def Field.hasEncodableDefault (f : Field) : Bool :=
  match f.defaultValue with
  | .ok (.string t) => t.isEncodable
  | _ => true

theorem Field.hasEncodableDefault_iff {f : Field} :
    f.hasEncodableDefault = true ↔
      ∀ t, f.defaultValue = .ok (.string t) → t.isEncodable = true := by
  unfold hasEncodableDefault
  split
  · rename_i t ht
    simp [ht]
  · rename_i hother
    exact ⟨fun _ t ht => absurd ht (hother t), fun _ => rfl⟩

instance (s : Schema) : Decidable s.HasEncodableTexts :=
  decidable_of_iff (s.storeName.isEncodable = true ∧
      ∀ f ∈ s.fields, f.key.isEncodable = true ∧ f.hasEncodableDefault = true)
    ⟨fun ⟨hstore, hfields⟩ => ⟨hstore, fun f hf => (hfields f hf).1,
        fun f hf => Field.hasEncodableDefault_iff.mp (hfields f hf).2⟩,
      fun h => ⟨h.store, fun f hf =>
        ⟨h.keys f hf, Field.hasEncodableDefault_iff.mpr (h.defaults f hf)⟩⟩⟩

/-- The generator for Python under the default settings. -/
def Generator.standard : Generator := ⟨{}, .python true, true, 4294967296⟩

theorem Generator.standard_wellTyped : Generator.standard.WellTyped where
  settings :=
    { outputDir := Or.inl rfl
      packageName := Or.inl rfl
      indentSize := ⟨4, rfl⟩
      classSuffix := ⟨"SharedPref", rfl⟩
      methodCase := ⟨"camel", rfl⟩
      allowDuplicateKeys := ⟨false, rfl⟩
      stopOnEmptySchema := ⟨false, rfl⟩
      addComments := ⟨true, rfl⟩
      languageConfig := ⟨[], rfl⟩ }
  profile := trivial

theorem Settings.WellTyped.packageOr {s : Settings} (h : s.WellTyped) (package : Text) :
    ∃ name, s.packageOr package = .ok name := by
  rcases h.packageName with hp | ⟨name, hp⟩
  · exact ⟨package, by simp [Settings.packageOr, hp, Json.isSet]⟩
  · by_cases hn : name = ""
    · exact ⟨package, by simp [Settings.packageOr, hp, Json.isSet, hn]⟩
    · exact ⟨name, by simp [Settings.packageOr, hp, Json.isSet, hn]⟩

namespace Generator

/-- The indentation is out of range for a count, or beyond what fits into memory. -/
def IndentFails (g : Generator) (k : Fault) : Prop :=
  ∃ n, g.settings.indentSize = .int n ∧
    ((k = .tooLarge ∧ (n < Settings.leastCount ∨ Settings.countLimit ≤ n)) ∨
      (k = .outOfMemory ∧ (g.room : Int) < n ∧ n < Settings.countLimit))

theorem WellTyped.indent_eq_error {g : Generator} (hg : g.WellTyped) {k : Fault} :
    g.indent = .error k ↔ g.IndentFails k := by
  obtain ⟨n, hn⟩ := hg.settings.indentSize
  simp only [Generator.indent, Settings.indent, IndentFails, hn, Json.int.injEq, exists_eq_left',
    Settings.blanks]
  split
  · rename_i h
    simp only [Except.error.injEq]
    constructor
    · intro hk
      exact Or.inl ⟨hk.symm, h⟩
    · rintro (⟨hk, -⟩ | ⟨-, hroom, hlimit⟩)
      · exact hk.symm
      · unfold Settings.leastCount Settings.countLimit at *
        omega
  · rename_i h
    split
    · rename_i hroom
      simp only [Except.error.injEq]
      constructor
      · intro hk
        exact Or.inr ⟨hk.symm, hroom, by omega⟩
      · rintro (⟨-, hrange⟩ | ⟨hk, -⟩)
        · exact absurd hrange h
        · exact hk.symm
    · rename_i hroom
      simp only [reduceCtorEq, false_iff, not_or, not_and]
      exact ⟨fun _ => by omega, fun _ hlt => absurd hlt hroom⟩

theorem WellTyped.parameters {g : Generator} (h : g.WellTyped) : ∃ ps, g.parameters = .ok ps := by
  obtain ⟨settings, profile, hasTemplate, room⟩ := g
  cases profile with
  | python typeHints => exact ⟨_, rfl⟩
  | kotlin contextClass dispatcher =>
    obtain ⟨⟨name, rfl⟩, -⟩ := h.profile
    exact ⟨_, rfl⟩

theorem WellTyped.sourceLines {g : Generator} (h : g.WellTyped) (indent package : Text)
    (c : AccessorClass) : ∃ lines, g.sourceLines indent package c = .ok lines := by
  obtain ⟨settings, profile, hasTemplate, room⟩ := g
  cases profile with
  | python typeHints => exact ⟨_, rfl⟩
  | kotlin contextClass dispatcher =>
    obtain ⟨⟨name, rfl⟩, -⟩ := h.profile
    exact ⟨_, rfl⟩

theorem requireTemplate_ok (g : Generator) (package : Text) :
    g.requireTemplate (.ok package) =
      if g.hasTemplate then .ok () else Attempt.refuse (.templateMissing (templateName g.target)) := by
  by_cases ht : g.target = .kotlin <;> simp only [requireTemplate, ht] <;> rfl

theorem fieldMethods_eq_ok {g : Generator} {f : Field} {ms : List Method} :
    g.fieldMethods f = .ok ms ↔
      ∃ default, f.defaultValue = .ok default ∧ ms = f.methods (g.methodName f) default := by
  simp only [fieldMethods]
  cases hd : f.defaultValue with
  | error e => simp [Attempt.mapRefusal]
  | ok default => simp [Attempt.mapRefusal, eq_comm]

theorem methods_cons_eq_ok {g : Generator} {f : Field} {fs : List Field} {ms : List Method}
    (h : g.methods (f :: fs) = .ok ms) :
    ∃ default rest, f.defaultValue = .ok default ∧ g.methods fs = .ok rest ∧
      ms = f.methods (g.methodName f) default ++ rest := by
  obtain ⟨found, rest, hf, hrest, rfl⟩ := Attempt.collect_cons_eq_ok.mp h
  obtain ⟨default, hd, rfl⟩ := fieldMethods_eq_ok.mp hf
  exact ⟨default, rest, hd, hrest, rfl⟩

theorem mem_field_methods {f : Field} {nameOf : Access → Bool → Text} {default : PrefValue}
    {m : Method} (h : m ∈ f.methods nameOf default) :
    m.field = f ∧ m.default = default ∧ m.name = nameOf m.access m.isAsync ∧
      (m.isAsync = true → f.isAsync = true ∧ m.twin = some (nameOf m.access false)) := by
  by_cases hf : f.isAsync = true
  · simp only [Field.methods, hf, if_true, List.cons_append, List.nil_append, List.mem_cons,
      List.not_mem_nil, or_false] at h
    rcases h with rfl | rfl | rfl | rfl <;> simp [Method.isAsync, hf]
  · simp only [Field.methods, hf, Bool.false_eq_true, if_false, List.append_nil, List.mem_cons,
      List.not_mem_nil, or_false] at h
    rcases h with rfl | rfl <;> simp [Method.isAsync]

theorem mem_methods {g : Generator} {fs : List Field} {ms : List Method} (h : g.methods fs = .ok ms)
    {m : Method} (hm : m ∈ ms) :
    m.field ∈ fs ∧ m.field.defaultValue = .ok m.default ∧
      m.name = g.methodName m.field m.access m.isAsync ∧
      (m.isAsync = true → m.field.isAsync = true ∧
        m.twin = some (g.methodName m.field m.access false)) := by
  obtain ⟨f, hf, found, hfound, hm⟩ := Attempt.mem_collect h hm
  obtain ⟨default, hd, rfl⟩ := fieldMethods_eq_ok.mp hfound
  obtain ⟨rfl, rfl, hname, htwin⟩ := mem_field_methods hm
  exact ⟨hf, hd, hname, htwin⟩

/-- The methods of one verb and one kind, in the order of their fields: each field has one, or none
where it has no methods of the kind. -/
theorem methods_filter_map_field {g : Generator} {fs : List Field} {ms : List Method}
    (h : g.methods fs = .ok ms) (a : Access) (x : Bool) :
    (ms.filter fun m => decide (m.access = a) && decide (m.isAsync = x)).map Method.field =
      fs.filter fun f => !x || f.isAsync := by
  induction fs generalizing ms with
  | nil =>
    cases h
    rfl
  | cons f fs ih =>
    obtain ⟨default, rest, -, hr, rfl⟩ := methods_cons_eq_ok h
    rw [List.filter_append, List.map_append, ih hr]
    cases hf : f.isAsync <;> cases a <;> cases x <;> simp [Field.methods, Method.isAsync, hf]

theorem exists_method {g : Generator} {fs : List Field} {ms : List Method}
    (h : g.methods fs = .ok ms) {f : Field} (hf : f ∈ fs) (a : Access) {x : Bool}
    (hx : x = true → f.isAsync = true) :
    ∃ m ∈ ms, m.field = f ∧ m.access = a ∧ m.isAsync = x := by
  have hmem : f ∈ fs.filter fun f => !x || f.isAsync := by
    rw [List.mem_filter]
    refine ⟨hf, ?_⟩
    cases x with
    | false => rfl
    | true => simpa using hx rfl
  rw [← methods_filter_map_field h a x] at hmem
  obtain ⟨m, hm, rfl⟩ := List.mem_map.mp hmem
  obtain ⟨hm, hax⟩ := List.mem_filter.mp hm
  rw [Bool.and_eq_true, decide_eq_true_eq, decide_eq_true_eq] at hax
  exact ⟨m, hm, rfl, hax.1, hax.2⟩

/-- The methods of a list of fields can be had if all defaults can be read, and only then. -/
theorem methods_ok_iff {g : Generator} {fields : List Field} :
    (∃ ms, g.methods fields = .ok ms) ↔ ∀ f ∈ fields, ∃ v, f.defaultValue = .ok v := by
  constructor
  · rintro ⟨ms, hms⟩
    induction fields generalizing ms with
    | nil => simp
    | cons f fields ih =>
      obtain ⟨v, rest, hv, hrest, -⟩ := methods_cons_eq_ok hms
      intro f' hf'
      rcases List.mem_cons.mp hf' with rfl | hf'
      · exact ⟨v, hv⟩
      · exact ih rest hrest f' hf'
  · intro h
    refine Attempt.collect_eq_ok_of_forall fun f hf => ?_
    obtain ⟨v, hv⟩ := h f hf
    exact ⟨_, fieldMethods_eq_ok.mpr ⟨v, hv, rfl⟩⟩

/-- Methods are refused for a default that cannot be read, and the refusal names no aggregate. -/
theorem methods_eq_refused {g : Generator} {fields : List Field} {r : Refusal}
    (h : g.methods fields = .error (.refused r)) : ∃ p, r = ⟨.invalidDefault p, none⟩ := by
  obtain ⟨n, f, found, -, -, hf⟩ := Attempt.collect_eq_error.mp h
  unfold fieldMethods at hf
  split at hf
  · cases hf
  · rename_i e he
    cases hf
    obtain ⟨p, -, rfl⟩ := Attempt.mapRefusal_eq_refused.mp he
    exact ⟨p, rfl⟩

theorem accessorClass_eq_ok {g : Generator} {s : Schema} {c : AccessorClass} :
    g.accessorClass s = .ok c ↔ g.parameters = .ok c.parameters ∧ g.methods s.fields = .ok c.methods ∧
      c.schema = s ∧ c.name = g.className s := by
  obtain ⟨name, schema, parameters, methods⟩ := c
  simp only [accessorClass, Attempt.bind_eq_ok, Attempt.ofFaults_eq_ok, Except.ok.injEq,
    AccessorClass.mk.injEq]
  constructor
  · rintro ⟨ps, hps, ms, hms, rfl, rfl, rfl, rfl⟩
    exact ⟨hps, hms, rfl, rfl⟩
  · rintro ⟨hps, hms, rfl, rfl⟩
    exact ⟨_, hps, _, hms, rfl, rfl, rfl, rfl⟩

/-- What an artifact tells about the schema that it was generated from. -/
theorem generate_eq_ok {g : Generator} {s : Schema} {a : Artifact} (h : g.generate s = .ok a) :
    g.accessorClass s = .ok a.accessorClass ∧ a.target = g.target ∧
      ∃ indent, g.indent = .ok indent := by
  simp only [generate, Attempt.bind_eq_ok, Attempt.ofFaults_eq_ok, Attempt.mapRefusal_eq_ok,
    Except.ok.injEq] at h
  obtain ⟨c, hc, indent, hindent, -, -, package, -, lines, -, rfl⟩ := h
  exact ⟨hc, rfl, indent, hindent⟩

theorem schema_of_generate {g : Generator} {s : Schema} {a : Artifact} (h : g.generate s = .ok a) :
    a.accessorClass.schema = s := by
  obtain ⟨hc, -⟩ := generate_eq_ok h
  obtain ⟨-, -, hschema, -⟩ := accessorClass_eq_ok.mp hc
  exact hschema

/-- The text and the path of an artifact come from its class and the settings alone. -/
theorem generate_text {g : Generator} {s : Schema} {a : Artifact} (h : g.generate s = .ok a) :
    ∃ indent package lines, g.indent = .ok indent ∧
      g.settings.packageOr s.package = .ok package ∧
      g.sourceLines indent package a.accessorClass = .ok lines ∧ a.source = sourceOf lines ∧
      a.path = pathOf g.target package a.accessorClass.name ∧ a.package = package := by
  simp only [generate, Attempt.bind_eq_ok, Attempt.ofFaults_eq_ok, Attempt.mapRefusal_eq_ok,
    Except.ok.injEq] at h
  obtain ⟨c, -, indent, hindent, -, -, package, hpackage, lines, hlines, rfl⟩ := h
  exact ⟨indent, package, lines, hindent, hpackage, hlines, rfl, rfl, rfl⟩

/-- Whatever the settings are, a schema that has passed its checks is refused for a default only. -/
theorem generate_eq_refused {g : Generator} {s : Schema} {r : Refusal}
    (h : g.generate s = .error (.refused (.refused r))) : ∃ p, r = ⟨.invalidDefault p, none⟩ := by
  have htemplate (package : Except Fault Text) :
      g.requireTemplate package ≠ .error (.refused (.refused r)) := by
    intro ht
    unfold requireTemplate at ht
    by_cases hkotlin : g.target = .kotlin
    · by_cases hhas : g.hasTemplate = true
      · simp [hkotlin, hhas, Attempt.bind_eq_error] at ht
      · simp [hkotlin, hhas, Attempt.bind_eq_error, Attempt.refuse] at ht
    · by_cases hhas : g.hasTemplate = true
      · simp [hkotlin, hhas] at ht
      · simp [hkotlin, hhas, Attempt.refuse] at ht
  simp only [generate, Attempt.bind_eq_error, Attempt.mapRefusal_eq_refused, Attempt.mapRefusal_eq_ok,
    GenerationProblem.refused.injEq, Attempt.ofFaults_ne_refused, htemplate, reduceCtorEq,
    and_false, exists_false, or_false] at h
  obtain ⟨r', hclass, rfl⟩ := h
  simp only [accessorClass, Attempt.bind_eq_error, Attempt.ofFaults_ne_refused, reduceCtorEq,
    and_false, exists_false, or_false, false_or] at hclass
  obtain ⟨-, -, hmethods⟩ := hclass
  exact methods_eq_refused hmethods

/-- Under settings of the declared kinds a schema is generated unless a default cannot be read, the
indentation cannot be built or the template is missing. -/
theorem WellTyped.generate {g : Generator} (hg : g.WellTyped) (s : Schema) :
    (∃ e, g.methods s.fields = .error e ∧
      g.generate s = .error (e.map GenerationProblem.refused)) ∨
    ∃ ms, g.methods s.fields = .ok ms ∧
      ((∃ k, g.indent = .error k ∧ g.generate s = .error (.fault k)) ∨
        ∃ indent, g.indent = .ok indent ∧
          if g.hasTemplate then ∃ a, g.generate s = .ok a
          else g.generate s = .error (.refused (.templateMissing (templateName g.target)))) := by
  obtain ⟨ps, hps⟩ := hg.parameters
  obtain ⟨package, hpackage⟩ := hg.settings.packageOr s.package
  cases hms : g.methods s.fields with
  | error e =>
    refine Or.inl ⟨e, rfl, ?_⟩
    have hc : g.accessorClass s = .error e := by
      simp [accessorClass, Attempt.bind_eq_error, hps, hms]
    simp [Generator.generate, hc, Attempt.mapRefusal, Attempt.bind_eq_error]
  | ok ms =>
    refine Or.inr ⟨ms, rfl, ?_⟩
    have hc : g.accessorClass s = .ok ⟨g.className s, s, ps, ms⟩ :=
      accessorClass_eq_ok.mpr ⟨hps, hms, rfl, rfl⟩
    cases hindent : g.indent with
    | error k =>
      refine Or.inl ⟨k, rfl, ?_⟩
      simp [Generator.generate, hc, hindent, Attempt.bind_eq_error]
    | ok indent =>
      refine Or.inr ⟨indent, rfl, ?_⟩
      obtain ⟨lines, hlines⟩ := hg.sourceLines indent package ⟨g.className s, s, ps, ms⟩
      split
      · rename_i ht
        refine ⟨⟨g.target, ⟨g.className s, s, ps, ms⟩, package, sourceOf lines,
          pathOf g.target package (g.className s)⟩, ?_⟩
        simp [Generator.generate, hc, hindent, hpackage, requireTemplate_ok, ht, hlines,
          Attempt.bind_eq_ok]
      · rename_i ht
        simp [Generator.generate, hc, hindent, hpackage, requireTemplate_ok, ht, Attempt.refuse,
          Attempt.bind_eq_error]

theorem WellTyped.exists_artifact {g : Generator} (hg : g.WellTyped) (ht : g.hasTemplate = true)
    {indent : Text} (hindent : g.indent = .ok indent) {s : Schema} {ms : List Method}
    (hms : g.methods s.fields = .ok ms) : ∃ a, g.generate s = .ok a := by
  rcases hg.generate s with ⟨e, he, -⟩ | ⟨-, -, ⟨k, hk, -⟩ | ⟨-, -, hmade⟩⟩
  · rw [hms] at he
    cases he
  · rw [hindent] at hk
    cases hk
  · rwa [if_pos ht] at hmade

end Generator

end PrefAccessor
