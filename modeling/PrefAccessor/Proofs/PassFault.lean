import PrefAccessor.Proofs.Contribution
import PrefAccessor.Proofs.ReadingFault

/-!
# What stops a pass

A pass recovers refusals only. Under settings of the declared kinds and without files, three things
keep it from returning: a source whose reading stops, a descriptor with a default of too many
digits, and an indentation that cannot be built. `Source.Breaks` collects them, and a pass returns
exactly if no source that it takes breaks; then each of these sources leaves an artifact or an error.
-/

namespace PrefAccessor

set_option autoImplicit false

/-- Why a source ends a pass. The last two need a schema that passes its checks. -/
inductive Source.Breaks (g : Generator) : Source → Fault → Prop
  | reading {source : Source} {k : Fault} (h : source.Stops k) : Breaks g source k
  | default {s : Schema} {n : Nat} {f : Field}
      (hvalid : s.validate g.settings.allowDuplicateKeys.isSet = none) (hn : s.fields[n]? = some f)
      (hbefore : ∀ f' ∈ s.fields.take n, ∃ v, f'.defaultValue = .ok v)
      (hf : f.type.IsOverlong f.default) : Breaks g (.schema s) .badValue
  | indent {source : Source} {s : Schema} {k : Fault} (hs : source.toSchema = .ok s)
      (hvalid : s.validate g.settings.allowDuplicateKeys.isSet = none) (hdefaults : s.HasDefaults)
      (hindent : g.IndentFails k) : Breaks g source k

namespace Generator

theorem fieldMethods_eq_fault {g : Generator} {f : Field} {k : Fault} :
    g.fieldMethods f = .error (.fault k) ↔ k = .badValue ∧ f.type.IsOverlong f.default := by
  rw [← PrefType.defaultValue_eq_fault]
  unfold fieldMethods Field.defaultValue
  cases f.type.defaultValue f.default with
  | ok v => simp [Attempt.mapRefusal]
  | error e => cases e <;> simp [Attempt.mapRefusal, Failure.map]

theorem methods_eq_fault {g : Generator} {fields : List Field} {k : Fault} :
    g.methods fields = .error (.fault k) ↔
      k = .badValue ∧ ∃ n f, fields[n]? = some f ∧
        (∀ f' ∈ fields.take n, ∃ v, f'.defaultValue = .ok v) ∧ f.type.IsOverlong f.default := by
  unfold methods
  rw [Attempt.collect_eq_error]
  constructor
  · rintro ⟨n, f, found, hn, hfound, hf⟩
    obtain ⟨rfl, hover⟩ := fieldMethods_eq_fault.mp hf
    exact ⟨rfl, n, f, hn, methods_ok_iff.mp ⟨found, hfound⟩, hover⟩
  · rintro ⟨rfl, n, f, hn, hbefore, hover⟩
    obtain ⟨found, hfound⟩ : ∃ ms, g.methods (fields.take n) = .ok ms := methods_ok_iff.mpr hbefore
    exact ⟨n, f, found, hn, hfound, fieldMethods_eq_fault.mpr ⟨rfl, hover⟩⟩

theorem WellTyped.generate_eq_fault {g : Generator} (hg : g.WellTyped) {s : Schema} {k : Fault} :
    g.generate s = .error (.fault k) ↔ g.methods s.fields = .error (.fault k) ∨
      ((∃ ms, g.methods s.fields = .ok ms) ∧ g.indent = .error k) := by
  rcases hg.generate s with ⟨e, hms, hgen⟩ | ⟨ms, hms, ⟨k', hindent, hgen⟩ | ⟨indent, hindent, hgen⟩⟩
  · cases e <;> simp [hgen, hms, Failure.map]
  · simp [hgen, hms, hindent]
  · split at hgen
    · obtain ⟨a, hgen⟩ := hgen
      simp [hgen, hms, hindent]
    · simp [hgen, hms, hindent]

end Generator

theorem Source.toSchema_hasDefaults {source : Source} {s : Schema} (h : source.toSchema = .ok s) :
    source = .schema s ∨ s.HasDefaults := by
  cases source with
  | schema s' =>
    cases h
    exact Or.inl rfl
  | declaration c => exact Or.inr (Schema.ofClass_eq_ok h).2.2
  | document d =>
    cases d with
    | object members => exact Or.inr (Schema.ofDocument_eq_ok h).2.2
    | _ => cases h

namespace Pass

theorem refuse_ne_fault {source : Source} {sink : Sink} {before : List Event} {r : Refusal}
    {k : Fault} : (refuse source sink before r).ending ≠ .fault k := by
  unfold refuse refusalEnding
  simp only
  split <;> simp

theorem deliver_ne_fault {source : Source} {before : List Event} {a : Artifact} {k : Fault} :
    (deliver source .discard before a).ending ≠ .fault k := by
  simp [deliver, Sink.write]

theorem contributeSchema_eq_fault {g : Generator} {source : Source} {before : List Event}
    {s : Schema} {k : Fault} :
    (contributeSchema g source .discard before s).ending = .fault k ↔
      s.validate g.settings.allowDuplicateKeys.isSet = none ∧ g.generate s = .error (.fault k) := by
  unfold contributeSchema
  split
  · rename_i r hr
    simp [hr, refuse_ne_fault]
  · rename_i hvalid
    simp only [hvalid, true_and]
    split
    · rename_i a ha
      simp [ha, deliver_ne_fault]
    · rename_i r hr
      simp [hr, refuse_ne_fault]
    · rename_i template ht
      simp [ht]
    · rename_i k' hk'
      simp [hk']

/-- A source ends the pass exactly if it breaks. -/
theorem contribute_eq_fault {g : Generator} (hg : g.WellTyped) {source : Source} {k : Fault} :
    (contribute g .discard source).ending = .fault k ↔ source.Breaks g k := by
  have hcontribute : (contribute g .discard source).ending = .fault k ↔
      source.toSchema = .error (.fault k) ∨ ∃ s, source.toSchema = .ok s ∧
        s.validate g.settings.allowDuplicateKeys.isSet = none ∧
          g.generate s = .error (.fault k) := by
    unfold contribute
    cases source.toSchema with
    | ok s => simp [contributeSchema_eq_fault]
    | error e => cases e <;> simp [refuse_ne_fault]
  rw [hcontribute]
  constructor
  · rintro (h | ⟨s, hs, hvalid, h⟩)
    · exact .reading (Source.toSchema_eq_fault.mp h)
    · rcases hg.generate_eq_fault.mp h with hms | ⟨hms, hindent⟩
      · obtain ⟨rfl, n, f, hn, hbefore, hf⟩ := Generator.methods_eq_fault.mp hms
        rcases Source.toSchema_hasDefaults hs with rfl | hdefaults
        · exact .default hvalid hn hbefore hf
        · obtain ⟨ms, hok⟩ : ∃ ms, g.methods s.fields = .ok ms :=
            Generator.methods_ok_iff.mpr hdefaults
          rw [hok] at hms
          cases hms
      · exact .indent hs hvalid (Generator.methods_ok_iff.mp hms)
          (hg.indent_eq_error.mp hindent)
  · intro h
    cases h with
    | reading h => exact Or.inl (Source.toSchema_eq_fault.mpr h)
    | default hvalid hn hbefore hf =>
      exact Or.inr ⟨_, rfl, hvalid, hg.generate_eq_fault.mpr
        (Or.inl (Generator.methods_eq_fault.mpr ⟨rfl, _, _, hn, hbefore, hf⟩))⟩
    | indent hs hvalid hdefaults hindent =>
      exact Or.inr ⟨_, hs, hvalid, hg.generate_eq_fault.mpr
        (Or.inr ⟨Generator.methods_ok_iff.mpr hdefaults, hg.indent_eq_error.mpr hindent⟩)⟩

/-- A pass ends by the fault of the first source it takes that has one. -/
theorem runFrom_fault {g : Generator} {st : PassState}
    (hsink : st.sink.usesFiles = false) (sources : List Source) :
    (runFrom g st sources).2 =
      (reached g sources).findSome? fun source => (contribute g .discard source).ending.fault? := by
  induction sources generalizing st with
  | nil => rfl
  | cons source rest ih =>
    have hsink' : (st.extend [contribute g .discard source]).sink.usesFiles = false :=
      (PassState.usesFiles_extend st _).trans hsink
    rw [runFrom_cons_extend hsink, reached, List.findSome?_cons]
    cases (contribute g .discard source).ending.fault? with
    | some k => rfl
    | none =>
      cases hlast : g.settings.stopOnEmptySchema.isSet && source.isEmpty with
      | true => rfl
      | false => exact ih hsink'

/-- A pass ends without a fault exactly if no source that it takes breaks. -/
theorem run_eq_none_iff {g : Generator} (hg : g.WellTyped) {sink : Sink}
    (hsink : sink.usesFiles = false) {sources : List Source} :
    (run g sink sources).2 = none ↔ ∀ source ∈ reached g sources, ∀ k, ¬ source.Breaks g k := by
  rw [run, runFrom_fault hsink, List.findSome?_eq_none_iff]
  refine forall₂_congr fun source _ => ?_
  rw [Option.eq_none_iff_forall_ne_some]
  exact forall_congr' fun k => not_congr (Ending.fault?_eq_some.trans (contribute_eq_fault hg))

/-- What a pass without faults has done, apart from the order of its diagnostics. -/
theorem run_of_unbroken {g : Generator} {sink : Sink}
    (hsink : sink.usesFiles = false) {sources : List Source}
    (h : ∀ source ∈ reached g sources, ∀ k, (contribute g .discard source).ending ≠ .fault k) :
    (run g sink sources).1.processed = (reached g sources).length ∧
      (run g sink sources).1.delivered =
        ((contributions g (reached g sources)).flatMap fun c => c.delivered.toList).map (fun d =>
          d.artifact.deliveredTo sink) ∧
      ∀ d ∈ (contributions g (reached g sources)).flatMap Contribution.diagnostics,
        d ∈ (run g sink sources).1.diagnostics := by
  have hrun : run g sink sources = _ := runFrom_eq hsink h
  have hdiagnostics : ((PassState.initial sink).extend
      (contributions g (reached g sources))).diagnostics =
        (contributions g (reached g sources)).flatMap Contribution.diagnostics :=
    PassState.diagnostics_extend _ _
  rw [hrun]
  split
  · refine ⟨by simp [PassState.extend, PassState.initial, contributions], rfl, fun d hd => ?_⟩
    rw [PassState.diagnostics_report, hdiagnostics]
    exact List.mem_append_left _ hd
  · refine ⟨by simp [PassState.extend, PassState.initial, contributions], rfl, fun d hd => ?_⟩
    rw [hdiagnostics]
    exact hd

/-- A pass returns exactly if none of the sources that it takes breaks. Then it has taken all of
them, which are all sources unless it ends at one without fields, and each of them has left its
artifact or its error. -/
theorem run_returns_iff {g : Generator} (hg : g.WellTyped) {sink : Sink}
    (hsink : sink.usesFiles = false) (sources : List Source) :
    ((run g sink sources).2 = none ↔ ∀ source ∈ reached g sources, ∀ k, ¬ source.Breaks g k) ∧
      ((run g sink sources).2 = none →
        (run g sink sources).1.processed = (reached g sources).length ∧
        ∀ source ∈ reached g sources,
          ((contribute g sink source).IsArtifact ∧
            ∃ d, (contribute g sink source).delivered = some d ∧
              d ∈ (run g sink sources).1.delivered) ∨
          ((contribute g sink source).IsError source.label ∧
            ∀ d ∈ (contribute g sink source).diagnostics,
              d ∈ (run g sink sources).1.diagnostics)) ∧
      (g.settings.stopOnEmptySchema.isSet = false → reached g sources = sources) := by
  refine ⟨run_eq_none_iff hg hsink, fun h => ?_, fun h => reached_eq_self h sources⟩
  have hall : ∀ source ∈ reached g sources, ∀ k,
      (contribute g .discard source).ending ≠ .fault k :=
    fun source hsource k hk =>
      (run_eq_none_iff hg hsink).mp h source hsource k ((contribute_eq_fault hg).mp hk)
  obtain ⟨hprocessed, hdelivered, hdiagnostics⟩ := run_of_unbroken hsink hall
  refine ⟨hprocessed, fun source hsource => ?_⟩
  rw [contribute_eq_under g hsink]
  have hmem : contribute g .discard source ∈ contributions g (reached g sources) :=
    List.mem_map.mpr ⟨source, hsource, rfl⟩
  rcases contribute_cases hg source with ⟨k, hk⟩ | hartifact | herror
  · exact absurd hk (hall source hsource k)
  · obtain ⟨d, hd⟩ := hartifact.delivered
    refine Or.inl ⟨hartifact.under sink, d.artifact.deliveredTo sink, ?_, ?_⟩
    · simp [Contribution.under, hd]
    rw [hdelivered]
    refine List.mem_map.mpr ⟨d, List.mem_flatMap.mpr ⟨_, hmem, ?_⟩, rfl⟩
    rw [hd]
    exact List.mem_singleton_self d
  · exact Or.inr ⟨herror.under sink, fun d hd =>
      hdiagnostics d (List.mem_flatMap.mpr ⟨_, hmem, hd⟩)⟩

/-- A class that is documented by blanks. -/
def blankClass : ClassDeclaration :=
  ⟨0, "Login", some (.string "login"), some "   ", "app", [],
    [("user", .annotated (.basic .str) [.key (.string "user") (.bool false)])], .error⟩

/-- A document with one field. -/
def themeDocument : Json :=
  .object [("name", .string "Theme"), ("fields", .array [.object [("key", .string "theme")]])]

/-- Documentation of blanks ends a pass before its last source, and the pass does not return. -/
theorem blank_documentation_ends_pass :
    Generator.standard.WellTyped ∧
      (run .standard .discard [.declaration blankClass, .document themeDocument]).2 =
        some .outOfBounds ∧
      (run .standard .discard [.declaration blankClass, .document themeDocument]).1.processed = 1 ∧
      (run .standard .discard [.declaration blankClass, .document themeDocument]).1.diagnostics = [] :=
  ⟨Generator.standard_wellTyped, by decide +kernel, by decide +kernel, by decide +kernel⟩

theorem theme_document_returns :
    (run .standard .discard [.document themeDocument]).2 = none ∧
      ∀ k, ¬ (Source.document themeDocument).Breaks .standard k := by
  have h := run_returns_iff Generator.standard_wellTyped (rfl : Sink.discard.usesFiles = false)
    [.document themeDocument]
  have hnone : (run .standard .discard [.document themeDocument]).2 = none := by decide +kernel
  refine ⟨hnone, h.1.mp hnone _ ?_⟩
  rw [h.2.2 rfl]
  exact List.mem_singleton_self _

end Pass

end PrefAccessor
