import PrefAccessor.Proofs.PassFault

/-!
# Passes one after another

For documents and descriptors whose numerals fit, a pass over two lists of sources is the sum of the
passes over each: `run_append` says so for artifacts, diagnostics, counts and the texts in the sink,
and that every source adds an artifact with a note or a single error. The one thing that can keep
such a pass from returning is an indentation that cannot be built.
-/

namespace PrefAccessor

set_option autoImplicit false

/-- A document or a descriptor without defaults that are integers of too many digits. -/
def Source.IsShortData : Source → Prop
  | .schema s => ∀ f ∈ s.fields, ¬ f.type.IsOverlong f.default
  | .document d => ∀ raws, d.member? "fields" = some (.array raws) → ∀ raw ∈ raws,
      ∀ v, raw.member? "default" = some v → v.NumeralFits
  | .declaration _ => False

theorem Json.NumeralFits.isWritable {d : Json} (h : d.NumeralFits) (hscalar : d.IsScalar) :
    d.isWritable = true := by
  cases d with
  | int n => exact h
  | bool b => rfl
  | float x => rfl
  | string s => exact Json.isWritable_string s
  | _ => exact hscalar.elim

/-- The source has a schema that passes its check and whose defaults can be read, so that only its
text is left to be made. -/
def Source.ReachesText (g : Generator) (source : Source) : Prop :=
  ∃ s, source.toSchema = .ok s ∧ s.validate g.settings.allowDuplicateKeys.isSet = none ∧
    s.HasDefaults

theorem Source.IsShortData.breaks_iff {g : Generator} {source : Source} (h : source.IsShortData)
    {k : Fault} : source.Breaks g k ↔ source.ReachesText g ∧ g.IndentFails k := by
  constructor
  · intro hbreaks
    cases hbreaks with
    | reading hstops =>
      cases hstops with
      | entry hhead hn hfields hraw =>
        obtain ⟨declared, d, -, hd, hscalar, hcases⟩ := hraw
        have hfits : d.NumeralFits := by
          rcases hhead.fields with ⟨-, rfl⟩ | hraws
          · cases hn
          · exact h _ hraws _ (List.mem_of_getElem? hn) d hd
        rcases hcases with hw | ⟨type, literal, -, hl, hover⟩
        · rw [hfits.isWritable hscalar] at hw
          cases hw
        · exact absurd hover (not_isOverlong_of_numeralFits hscalar hfits hl type)
      | member => exact h.elim
      | documentation => exact h.elim
    | default hvalid hn hbefore hf => exact absurd hf (h _ (List.mem_of_getElem? hn))
    | indent hs hvalid hdefaults hfails => exact ⟨⟨_, hs, hvalid, hdefaults⟩, hfails⟩
  · rintro ⟨⟨s, hs, hvalid, hdefaults⟩, hfails⟩
    exact .indent hs hvalid hdefaults hfails

/-- Short data breaks only where the indentation cannot be built for something that needs it. -/
theorem not_breaks_iff_of_shortData {g : Generator} (hg : g.WellTyped) {sources : List Source}
    (hdata : ∀ source ∈ sources, source.IsShortData) :
    (∀ source ∈ sources, ∀ k, ¬ source.Breaks g k) ↔
      (∃ indent, g.indent = .ok indent) ∨
        ∀ source ∈ sources, ¬ source.ReachesText g := by
  constructor
  · intro h
    cases hindent : g.indent with
    | ok indent => exact Or.inl ⟨indent, rfl⟩
    | error k =>
      refine Or.inr fun source hsource hreaches => h source hsource k ?_
      exact (hdata source hsource).breaks_iff.mpr
        ⟨hreaches, hg.indent_eq_error.mp hindent⟩
  · intro h source hsource k hbreaks
    obtain ⟨hreaches, hfails⟩ := (hdata source hsource).breaks_iff.mp hbreaks
    rcases h with ⟨indent, hindent⟩ | hnone
    · rw [hg.indent_eq_error.mpr hfails] at hindent
      cases hindent
    · exact hnone source hsource hreaches

namespace Contribution

/-- Of the sources that end with an artifact or an error, the artifacts and the errors add up to
all. -/
theorem length_eq_add {cs : List Contribution}
    (h : ∀ c ∈ cs, c.IsArtifact ∨ ∃ label, c.IsError label) :
    cs.length = (cs.flatMap fun c => c.delivered.toList).length +
      (ofSeverity .error (cs.flatMap diagnostics)).length := by
  induction cs with
  | nil => rfl
  | cons c cs ih =>
    have hrest := ih fun c' hc' => h c' (List.mem_cons_of_mem c hc')
    simp only [List.flatMap_cons, List.length_append, ofSeverity_append, List.length_cons]
    rcases h c List.mem_cons_self with hc | ⟨label, hc⟩
    · obtain ⟨d, hd⟩ := hc.delivered
      rw [hd, hc.noError, Option.toList_some, List.length_singleton, List.length_nil]
      omega
    · obtain ⟨d, hd, -⟩ := hc.error
      rw [hc.noArtifact, hd, Option.toList_none, List.length_nil, List.length_singleton]
      omega

theorem noError_iff {c : Contribution} (h : c.IsArtifact ∨ ∃ label, c.IsError label) :
    ofSeverity .error c.diagnostics = [] ↔ c.delivered ≠ none := by
  rcases h with h | ⟨label, h⟩
  · obtain ⟨d, hd⟩ := h.delivered
    simp [h.noError, hd]
  · obtain ⟨d, hd, -⟩ := h.error
    simp [h.noArtifact, hd]

end Contribution

theorem ofSeverity_flatMap_eq_nil {s : Severity} {cs : List Contribution} :
    ofSeverity s (cs.flatMap Contribution.diagnostics) = [] ↔
      ∀ c ∈ cs, ofSeverity s c.diagnostics = [] := by
  rw [ofSeverity, List.filter_flatMap, List.flatMap_eq_nil_iff]
  rfl

/-- The counts of two passes together. -/
def Metadata.add (first second : Metadata) : Metadata where
  target := first.target
  aggregateCount := first.aggregateCount + second.aggregateCount
  generatedCount := first.generatedCount + second.generatedCount
  methodCount := first.methodCount + second.methodCount
  errorCount := first.errorCount + second.errorCount

namespace PassState

/-- Nothing but one artifact, its note and its text. -/
structure IsArtifact (st : PassState) (sink : Sink) : Prop where
  artifact : ∃ a, st.artifacts = [a] ∧ st.sink = sink.extend [a.entry]
  note : ∃ d, ofSeverity .note st.diagnostics = [d]
  noError : st.errors = []

/-- Nothing but one error, which carries the name of the aggregate if that has one. -/
structure IsError (st : PassState) (sink : Sink) (label : Option Text) : Prop where
  noArtifact : st.artifacts = []
  noText : st.sink = sink
  error : ∃ d, st.errors = [d] ∧ ∀ name, label = some name → name ≠ "" → d.aggregate = some name

/-- The state of a pass after one contribution to a sink. -/
def single (sink : Sink) (c : Contribution) : PassState :=
  (initial sink).extend [c]

theorem isArtifact_single {c : Contribution} (h : c.IsArtifact) (sink : Sink) :
    (single sink c).IsArtifact sink where
  artifact := by
    obtain ⟨d, hd⟩ := h.delivered
    refine ⟨d.artifact, ?_, ?_⟩
    · rw [single, artifacts_extend, List.flatMap_singleton, hd]
      rfl
    · simp [single, extend, hd, initial]
  note := by
    obtain ⟨d, hd⟩ := h.note
    refine ⟨d, ?_⟩
    rw [single, diagnostics_extend, List.flatMap_singleton]
    exact hd
  noError := by
    rw [errors, single, diagnostics_extend, List.flatMap_singleton]
    exact h.noError

theorem isError_single {c : Contribution} {label : Option Text} (h : c.IsError label)
    (sink : Sink) : (single sink c).IsError sink label where
  noArtifact := by
    rw [single, artifacts_extend, List.flatMap_singleton, h.noArtifact]
    rfl
  noText := by simp [single, extend, h.noArtifact, initial, Sink.extend_nil]
  error := by
    obtain ⟨d, hd, hname⟩ := h.error
    refine ⟨d, ?_, hname⟩
    rw [errors, single, diagnostics_extend, List.flatMap_singleton]
    exact hd

@[simp] theorem artifacts_initial (sink : Sink) : (initial sink).artifacts = [] := rfl

@[simp] theorem diagnostics_initial (sink : Sink) : (initial sink).diagnostics = [] := rfl

theorem success_iff (st : PassState) : st.success = true ↔ st.errors = [] := by
  simp [success, hasErrors, errors, bne]

end PassState

namespace Pass

variable {g : Generator} {sink : Sink}

/-- A pass over sources that do not break adds up what they contribute. -/
theorem run_eq_extend (hg : g.WellTyped) (hstop : g.settings.stopOnEmptySchema.isSet = false)
    (hsink : sink.usesFiles = false) {sources : List Source}
    (h : ∀ source ∈ sources, ∀ k, ¬ source.Breaks g k) :
    run g sink sources = ((PassState.initial sink).extend (contributions g sources), none) := by
  have hskips : skips g sources = false := by rw [skips, hstop, Bool.false_and]
  have hreached := reached_eq_self hstop sources
  rw [run, runFrom_eq hsink, hskips, hreached]
  · rfl
  · rw [hreached]
    exact fun source hsource k hk => h source hsource k ((contribute_eq_fault hg).mp hk)

theorem contribute_of_not_breaks (hg : g.WellTyped) {source : Source}
    (h : ∀ k, ¬ source.Breaks g k) :
    (contribute g .discard source).IsArtifact ∨
      (contribute g .discard source).IsError source.label := by
  rcases contribute_cases hg source with ⟨k, hk⟩ | hc
  · exact absurd ((contribute_eq_fault hg).mp hk) (h k)
  · exact hc

theorem metadata_append (sink : Sink) (cs ds : List Contribution) :
    metadata g ((PassState.initial sink).extend (cs ++ ds)) =
      (metadata g ((PassState.initial sink).extend cs)).add
        (metadata g ((PassState.initial sink.emptied).extend ds)) := by
  simp [metadata, Metadata.add, PassState.extend, PassState.initial, PassState.artifacts,
    PassState.errors, PassState.diagnostics, Artifact.deliveredTo, diagnosticsOf_append,
    ofSeverity_append, Function.comp_def]

/-- A pass over two lists of sources is the pass over the first one followed by that over the
second one, with the texts of the second one over those of the first one; and every source adds an
artifact or an error. This is so exactly if the pass returns: if the indentation can be built, or
nothing gets as far as needing it. -/
theorem run_append (hg : g.WellTyped) (hstop : g.settings.stopOnEmptySchema = .bool false)
    (hsink : sink.usesFiles = false) {xs ys : List Source}
    (hdata : ∀ source ∈ xs ++ ys, source.IsShortData) :
    ((run g sink (xs ++ ys)).2 = none ↔ (∃ indent, g.indent = .ok indent) ∨
      ∀ source ∈ xs ++ ys, ¬ source.ReachesText g) ∧
    ((run g sink (xs ++ ys)).2 = none → ∃ all first second : PassState,
      run g sink (xs ++ ys) = (all, none) ∧ run g sink xs = (first, none) ∧
      run g sink.emptied ys = (second, none) ∧
      all.artifacts = first.artifacts ++ second.artifacts ∧
      all.diagnostics = first.diagnostics ++ second.diagnostics ∧
      metadata g all = (metadata g first).add (metadata g second) ∧
      all.sink.files = Entries.merge first.sink.files second.sink.files ∧
      (∀ source ∈ xs ++ ys, ∃ st, run g sink [source] = (st, none) ∧
        (st.IsArtifact sink ∨ st.IsError sink source.label)) ∧
      (metadata g all).aggregateCount = (xs ++ ys).length ∧
      (metadata g all).aggregateCount =
        (metadata g all).generatedCount + (metadata g all).errorCount ∧
      (all.success = true ↔ ∀ source ∈ xs ++ ys, (run g sink [source]).1.artifacts ≠ [])) := by
  have hunset : g.settings.stopOnEmptySchema.isSet = false := by rw [hstop]; rfl
  have hreturns : (run g sink (xs ++ ys)).2 = none ↔
      ∀ source ∈ xs ++ ys, ∀ k, ¬ source.Breaks g k := by
    rw [run_eq_none_iff hg hsink, reached_eq_self hunset]
  refine ⟨hreturns.trans (not_breaks_iff_of_shortData hg hdata), fun hreturn => ?_⟩
  have hok := hreturns.mp hreturn
  have hsingle (source : Source) (hsource : source ∈ xs ++ ys) :
      run g sink [source] = (PassState.single sink (contribute g .discard source), none) :=
    run_eq_extend hg hunset hsink fun x hx => List.mem_singleton.mp hx ▸ hok source hsource
  have hcs : ∀ c ∈ contributions g (xs ++ ys), c.IsArtifact ∨ ∃ label, c.IsError label := by
    intro c hc
    obtain ⟨source, hsource, rfl⟩ := List.mem_map.mp hc
    exact (contribute_of_not_breaks hg (hok source hsource)).imp_right fun h => ⟨_, h⟩
  have hsplit : contributions g (xs ++ ys) = contributions g xs ++ contributions g ys :=
    List.map_append
  refine ⟨_, _, _, run_eq_extend hg hunset hsink hok,
    run_eq_extend hg hunset hsink fun x hx => hok x (List.mem_append_left ys hx),
    run_eq_extend hg hunset ((Sink.usesFiles_emptied sink).trans hsink)
      fun x hx => hok x (List.mem_append_right xs hx), ?_, ?_, ?_, ?_, ?_, ?_, ?_, ?_⟩
  · simp only [PassState.artifacts_extend, PassState.artifacts_initial, List.nil_append, hsplit,
      List.flatMap_append, List.map_append]
  · simp only [PassState.diagnostics_extend, PassState.diagnostics_initial, List.nil_append, hsplit,
      List.flatMap_append]
  · rw [hsplit]
    exact metadata_append sink _ _
  · have hempty : ((PassState.initial sink).extend (contributions g xs)).sink.emptied = sink.emptied :=
      Sink.emptied_extend sink _
    rw [hsplit, PassState.extend_append, ← hempty]
    exact Sink.files_extend _ _
  · intro source hsource
    refine ⟨_, hsingle source hsource, ?_⟩
    rcases contribute_of_not_breaks hg (hok source hsource) with hc | hc
    · exact Or.inl (PassState.isArtifact_single hc sink)
    · exact Or.inr (PassState.isError_single hc sink)
  · simp [metadata, PassState.extend, PassState.initial, contributions]
  · have hcount := Contribution.length_eq_add hcs
    simp only [metadata, PassState.errors, PassState.diagnostics_extend,
      PassState.diagnostics_initial, List.nil_append]
    simpa [PassState.extend, PassState.initial] using hcount
  · rw [PassState.success_iff, PassState.errors, PassState.diagnostics_extend,
      PassState.diagnostics_initial, List.nil_append, ofSeverity_flatMap_eq_nil]
    simp only [contributions, List.forall_mem_map]
    refine forall₂_congr fun source hsource => ?_
    rw [hsingle source hsource, PassState.single, PassState.artifacts_extend,
      List.flatMap_singleton, PassState.artifacts_initial]
    rw [Contribution.noError_iff (hcs _ (List.mem_map.mpr ⟨source, hsource, rfl⟩))]
    cases (contribute g .discard source).delivered <;> simp

/-- An indentation of more blanks than can be counted. -/
def wideGenerator : Generator :=
  { Generator.standard with settings := { Generator.standard.settings with
      indentSize := .int 9223372036854775808 } }

/-- Settings of the declared kinds are not enough: a pass that cannot build the indentation ends with
neither an artifact nor an error. -/
theorem wide_indentation_ends_pass :
    wideGenerator.WellTyped ∧ wideGenerator.settings.stopOnEmptySchema = .bool false ∧
      (run wideGenerator .discard [.document themeDocument]).2 = some .tooLarge ∧
      (run wideGenerator .discard [.document themeDocument]).1.artifacts = [] ∧
      (run wideGenerator .discard [.document themeDocument]).1.diagnostics = [] := by
  refine ⟨⟨?_, trivial⟩, rfl, by decide +kernel, by decide +kernel, by decide +kernel⟩
  exact { Generator.standard_wellTyped.settings with indentSize := ⟨9223372036854775808, rfl⟩ }

theorem isShortData_themeDocument : (Source.document themeDocument).IsShortData := by
  intro raws hraws raw hraw v hv
  have hfields : themeDocument.member? "fields" =
      some (.array [.object [("key", .string "theme")]]) := by decide
  rw [hfields] at hraws
  cases hraws
  rw [List.mem_singleton.mp hraw] at hv
  have hdefault : (Json.object [("key", .string "theme")]).member? "default" = none := by decide
  rw [hdefault] at hv
  cases hv

/-- A document beside null: one artifact, one error, and no success. -/
theorem theme_document_beside_null :
    ∃ all, run .standard (.memory []) ([.document themeDocument] ++ [.document .null]) = (all, none) ∧
      (metadata .standard all).aggregateCount = 2 ∧ all.success = false := by
  have hdata : ∀ source ∈ [Source.document themeDocument] ++ [Source.document .null],
      source.IsShortData := by
    intro source hsource
    rcases List.mem_append.mp hsource with h | h
    · rw [List.mem_singleton.mp h]
      exact isShortData_themeDocument
    · rw [List.mem_singleton.mp h]
      intro raws hraws
      cases hraws
  obtain ⟨hreturns, happend⟩ := run_append Generator.standard_wellTyped rfl
    (rfl : (Sink.memory []).usesFiles = false) hdata
  obtain ⟨all, first, second, hall, -, -, -, -, -, -, -, hcount, -, hsuccess⟩ :=
    happend (hreturns.mpr (Or.inl ⟨"    ", rfl⟩))
  refine ⟨all, hall, hcount, Bool.eq_false_iff.mpr fun h => ?_⟩
  have hnull := hsuccess.mp h (.document .null) (by simp)
  exact hnull (by decide +kernel)

end Pass

end PrefAccessor
