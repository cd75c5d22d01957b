import PrefAccessor.Proofs.PassFault

/-!
# Passes that end early

Where the settings say so, a pass ends with the first source whose schema has no fields. Up to there
it goes on as it would without this setting, whatever else is refused, and the sources behind are not
looked at: `run_stops_at_empty` compares it with a pass over the shortest beginning that ends with
such a source.
-/

namespace PrefAccessor

set_option autoImplicit false

/-- The same generator, whose passes take all sources. -/
def Generator.continuing (g : Generator) : Generator :=
  { g with settings := { g.settings with stopOnEmptySchema := .bool false } }

namespace Pass

/-- The sources before the first one without fields, and that one. -/
def upToEmpty (sources : List Source) : List Source :=
  sources.takeWhile (fun source => !source.isEmpty) ++ (sources.find? Source.isEmpty).toList

theorem upToEmpty_cons_of_isEmpty {source : Source} (h : source.isEmpty = true)
    (rest : List Source) : upToEmpty (source :: rest) = [source] := by
  simp [upToEmpty, h]

theorem upToEmpty_cons {source : Source} (h : source.isEmpty = false) (rest : List Source) :
    upToEmpty (source :: rest) = source :: upToEmpty rest := by
  simp [upToEmpty, h]

/-- The end of a pass, which says that it skips sources if it has come to one without fields. -/
def close (foundEmpty : Bool) (outcome : PassState × Option Fault) : PassState × Option Fault :=
  if foundEmpty = true ∧ outcome.2 = none then (outcome.1.report skippingNote, none) else outcome

theorem contribute_continuing (g : Generator) (sink : Sink) (source : Source) :
    contribute g.continuing sink source = contribute g sink source := rfl

section

variable {g : Generator} (hstop : g.settings.stopOnEmptySchema.isSet = true)

include hstop

/-- By induction on the sources: both passes do the same with the first one, and only one without
fields makes a difference to whether they go on. -/
theorem runFrom_eq_close (st : PassState) (sources : List Source) :
    runFrom g st sources =
      close (sources.any Source.isEmpty) (runFrom g.continuing st (upToEmpty sources)) := by
  induction sources generalizing st with
  | nil => rfl
  | cons source rest ih =>
    have hempty : (contribute g st.sink source).ending = .empty ↔ source.isEmpty = true :=
      ending_eq_empty_iff
    have hcontinues : g.continuing.settings.stopOnEmptySchema.isSet = false := rfl
    cases hend : (contribute g st.sink source).ending with
    | finished =>
      have hnot : source.isEmpty = false := by
        rw [← Bool.not_eq_true, ← hempty, hend]
        decide
      rw [upToEmpty_cons hnot, List.any_cons, hnot, Bool.false_or]
      simp only [runFrom, contribute_continuing, hend]
      exact ih _
    | empty =>
      have hyes : source.isEmpty = true := hempty.mp hend
      rw [upToEmpty_cons_of_isEmpty hyes, List.any_cons, hyes]
      simp only [runFrom, contribute_continuing, hend, hstop, hcontinues]
      rfl
    | fault k =>
      have hnot : source.isEmpty = false := by
        rw [← Bool.not_eq_true, ← hempty, hend]
        simp
      rw [upToEmpty_cons hnot]
      simp only [runFrom, contribute_continuing, hend]
      simp [close]

end

theorem metadata_report (g : Generator) (st : PassState) :
    metadata g (st.report skippingNote) = metadata g.continuing st := by
  rw [metadata, metadata, PassState.errors_report]
  rfl

/-- A pass that ends with the first source without fields does what a pass without this setting does
with the sources up to there, all of them if there is no such source, and adds one note if there is
one. Nothing else that is refused ends it: all sources up to there are taken unless a fault stops
both. -/
theorem run_stops_at_empty {g : Generator} (hstop : g.settings.stopOnEmptySchema.isSet = true)
    (sink : Sink) (sources : List Source) :
    ∃ short fault, run g.continuing sink (upToEmpty sources) = (short, fault) ∧
      (run g sink sources).2 = fault ∧
      (run g sink sources).1.delivered = short.delivered ∧
      (run g sink sources).1.sink = short.sink ∧
      metadata g (run g sink sources).1 = metadata g.continuing short ∧
      (run g sink sources).1.events = short.events ++
        (if (∃ source ∈ sources, source.isEmpty = true) ∧ fault = none then [skippingNote]
          else []) ∧
      (run g sink sources).1.diagnostics = short.diagnostics ++
        (if (∃ source ∈ sources, source.isEmpty = true) ∧ fault = none then
          [⟨.note, "Skipping remaining aggregates after empty schema", none⟩] else []) ∧
      (fault = none → short.processed = (upToEmpty sources).length) := by
  cases hshort : run g.continuing sink (upToEmpty sources) with
  | mk short fault =>
    have hrun : run g sink sources = close (sources.any Source.isEmpty) (short, fault) := by
      rw [← hshort]
      exact runFrom_eq_close hstop _ sources
    have hprocessed : fault = none → short.processed = (upToEmpty sources).length := by
      rintro rfl
      have hcount := processed_runFrom (congrArg Prod.snd hshort)
      rw [← run, hshort, reached_eq_self rfl] at hcount
      exact hcount.trans (Nat.zero_add _)
    have hany : (sources.any Source.isEmpty = true ∧ fault = none) ↔
        (∃ source ∈ sources, source.isEmpty = true) ∧ fault = none :=
      and_congr_left' List.any_eq_true
    refine ⟨short, fault, rfl, ?_⟩
    rw [hrun, close]
    simp only [hany]
    split
    · rename_i hskips
      refine ⟨hskips.2.symm, rfl, rfl, metadata_report g short, rfl, ?_, hprocessed⟩
      exact PassState.diagnostics_report short skippingNote
    · exact ⟨rfl, rfl, rfl, rfl, (List.append_nil _).symm, (List.append_nil _).symm, hprocessed⟩

/-- Three documents, of which the second one declares no fields. -/
def emptyBetween : List Source :=
  [.document themeDocument, .document (.object [("name", .string "Login"), ("fields", .array [])]),
    .document themeDocument]

/-- Generates for Python, and ends with a source without fields. -/
def stoppingGenerator : Generator :=
  { Generator.standard with settings := { Generator.standard.settings with
      stopOnEmptySchema := .bool true } }

/-- The document before the one without fields is delivered, the one behind it is not taken. -/
theorem theme_document_skipped :
    stoppingGenerator.settings.stopOnEmptySchema.isSet = true ∧
      (run stoppingGenerator (.memory []) emptyBetween).2 = none ∧
      (metadata stoppingGenerator
        (run stoppingGenerator (.memory []) emptyBetween).1).aggregateCount = 2 ∧
      (run stoppingGenerator (.memory []) emptyBetween).1.delivered.length = 1 ∧
      skippingNote ∈ (run stoppingGenerator (.memory []) emptyBetween).1.events := by
  obtain ⟨short, fault, hshort, hfault, hdelivered, -, hmetadata, hevents, -, hprocessed⟩ :=
    run_stops_at_empty (rfl : stoppingGenerator.settings.stopOnEmptySchema.isSet = true)
      (.memory []) emptyBetween
  have hreturns :
      (run stoppingGenerator.continuing (.memory []) (upToEmpty emptyBetween)).2 = none := by
    decide +kernel
  have hone :
      (run stoppingGenerator.continuing (.memory [])
        (upToEmpty emptyBetween)).1.delivered.length = 1 := by
    decide +kernel
  have hlength : (upToEmpty emptyBetween).length = 2 := by decide +kernel
  have hfound : ∃ source ∈ emptyBetween, source.isEmpty = true :=
    ⟨_, List.mem_cons_of_mem _ List.mem_cons_self, by decide +kernel⟩
  rw [hshort] at hreturns hone
  refine ⟨rfl, hfault.trans hreturns, ?_, (congrArg List.length hdelivered).trans hone, ?_⟩
  · rw [hmetadata]
    exact (hprocessed hreturns).trans hlength
  · rw [hevents, if_pos ⟨hfound, hreturns⟩]
    exact List.mem_append_right _ (List.mem_singleton_self _)

end Pass

end PrefAccessor
