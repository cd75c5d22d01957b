import Mathlib.Data.List.Basic
import PrefAccessor.Pass
import PrefAccessor.Proofs.EntryMerge
import PrefAccessor.Proofs.Extraction
import PrefAccessor.Proofs.Generation

/-!
# What one source contributes

A source comes to an artifact or to none before a sink is looked at (`Generator.artifactOf?`). While
texts go nowhere or into memory, what it contributes does not depend on what the sources before it
have done: `contribute_eq_under` moves it from one sink to another. It is an artifact with a note or
an error with neither, unless a fault ends the pass; and a pass without faults adds up the
contributions of its sources.
-/

namespace PrefAccessor

set_option autoImplicit false

namespace Sink

/-- The texts that a sink in memory holds. -/
def files : Sink → Entries Text Text
  | .memory files => files
  | _ => []

/-- The sink of the same kind that holds nothing. -/
def emptied : Sink → Sink
  | .memory _ => .memory []
  | sink => sink

def location (sink : Sink) (path : Path) : Option Text :=
  match sink with
  | .memory _ => some path.toString
  | _ => none

/-- The sink with more texts stored in it. -/
def extend (sink : Sink) (texts : List (Text × Text)) : Sink :=
  match sink with
  | .memory files => .memory (Entries.merge files texts)
  | sink => sink

theorem write_eq {sink : Sink} (h : sink.usesFiles = false) (path : Path) (text : Text) :
    sink.write path text = (sink.extend [(path.toString, text)], .done (sink.location path)) := by
  cases sink with
  | discard => rfl
  | memory files => rfl
  | directory root tree => cases h

theorem usesFiles_extend (sink : Sink) (texts : List (Text × Text)) :
    (sink.extend texts).usesFiles = sink.usesFiles := by
  cases sink <;> rfl

theorem usesFiles_emptied (sink : Sink) : sink.emptied.usesFiles = sink.usesFiles := by
  cases sink <;> rfl

theorem emptied_extend (sink : Sink) (texts : List (Text × Text)) :
    (sink.extend texts).emptied = sink.emptied := by
  cases sink <;> rfl

theorem location_extend (sink : Sink) (texts : List (Text × Text)) :
    (sink.extend texts).location = sink.location := by
  cases sink <;> rfl

theorem extend_nil (sink : Sink) : sink.extend [] = sink := by
  cases sink <;> rfl

theorem extend_extend (sink : Sink) (texts more : List (Text × Text)) :
    (sink.extend texts).extend more = sink.extend (texts ++ more) := by
  cases sink with
  | memory files => exact congrArg Sink.memory (Entries.merge_append files texts more).symm
  | _ => rfl

/-- What a sink holds after more texts is what it held, overridden by what they leave in an empty
one. -/
theorem files_extend (sink : Sink) (texts : List (Text × Text)) :
    (sink.extend texts).files = Entries.merge sink.files (sink.emptied.extend texts).files := by
  cases sink with
  | memory files => exact (Entries.merge_ofList files texts).symm
  | _ => rfl

end Sink

/-- Events that neither report an error nor note anything. -/
def IsQuiet (events : List Event) : Prop :=
  ofSeverity .error (diagnosticsOf events) = [] ∧ ofSeverity .note (diagnosticsOf events) = []

theorem diagnosticsOf_append (e₁ e₂ : List Event) :
    diagnosticsOf (e₁ ++ e₂) = diagnosticsOf e₁ ++ diagnosticsOf e₂ :=
  List.filterMap_append

theorem ofSeverity_append (s : Severity) (d₁ d₂ : List Diagnostic) :
    ofSeverity s (d₁ ++ d₂) = ofSeverity s d₁ ++ ofSeverity s d₂ :=
  List.filter_append ..

namespace IsQuiet

theorem append {e₁ e₂ : List Event} (h₁ : IsQuiet e₁) (h₂ : IsQuiet e₂) : IsQuiet (e₁ ++ e₂) := by
  constructor
  · rw [diagnosticsOf_append, ofSeverity_append, h₁.1, h₂.1, List.append_nil]
  · rw [diagnosticsOf_append, ofSeverity_append, h₁.2, h₂.2, List.append_nil]

theorem traces {events : List Event} (h : ∀ e ∈ events, ∃ r, e = .trace r) : IsQuiet events := by
  have hnone : diagnosticsOf events = [] := by
    rw [diagnosticsOf, List.filterMap_eq_nil_iff]
    intro e he
    obtain ⟨r, rfl⟩ := h e he
    rfl
  exact ⟨by rw [hnone]; rfl, by rw [hnone]; rfl⟩

theorem warnings (aggregate : Text) (ws : List SchemaWarning) :
    IsQuiet (ws.map (Pass.warning aggregate)) := by
  have hnone (s : Severity) (hs : s ≠ .warning) :
      ofSeverity s (diagnosticsOf (ws.map (Pass.warning aggregate))) = [] := by
    rw [ofSeverity, List.filter_eq_nil_iff]
    intro d hd
    obtain ⟨e, he, hed⟩ := List.mem_filterMap.mp hd
    obtain ⟨w, -, rfl⟩ := List.mem_map.mp he
    cases hed
    simpa using hs.symm
  exact ⟨hnone .error (by decide), hnone .note (by decide)⟩

theorem extractionEvents (source : Source) : IsQuiet (Pass.extractionEvents source) := by
  apply traces
  unfold Pass.extractionEvents
  intro e he
  split at he
  · split at he
    · rw [List.mem_singleton.mp he]
      exact ⟨_, rfl⟩
    · cases he
  · cases he

end IsQuiet

/-- The artifact that a source comes to, before it goes anywhere. -/
def Generator.artifactOf? (g : Generator) (source : Source) : Option Artifact :=
  match source.toSchema with
  | .error _ => none
  | .ok s =>
    match s.validate g.settings.allowDuplicateKeys.isSet with
    | some _ => none
    | none => (g.generate s).toOption

theorem Generator.generate_of_artifactOf? {g : Generator} {source : Source} {a : Artifact}
    (h : g.artifactOf? source = some a) : ∃ s, g.generate s = .ok a := by
  unfold artifactOf? at h
  split at h
  · cases h
  · rename_i s hs
    split at h
    · cases h
    · cases hgen : g.generate s with
      | error e => simp [hgen, Except.toOption] at h
      | ok a' =>
        obtain rfl : a' = a := by simpa [hgen, Except.toOption] using h
        exact ⟨s, hgen⟩

/-- The artifact with its place in a sink. -/
def Artifact.deliveredTo (sink : Sink) (a : Artifact) : Delivered :=
  ⟨a, sink.location a.path⟩

/-- The path of an artifact with its text, as a sink in memory holds it. -/
def Artifact.entry (a : Artifact) : Text × Text :=
  (a.path.toString, a.source)

/-- The same contribution to another sink. -/
def Contribution.under (c : Contribution) (sink : Sink) : Contribution where
  delivered := c.delivered.map fun d => d.artifact.deliveredTo sink
  events := c.events
  sink := sink.extend (c.delivered.toList.map fun d => d.artifact.entry)
  ending := c.ending

namespace Pass

theorem deliver_eq_under {source : Source} {sink : Sink} (h : sink.usesFiles = false)
    {before : List Event} {a : Artifact} :
    deliver source sink before a = (deliver source .discard before a).under sink := by
  simp only [deliver, Sink.write_eq h, Sink.write_eq (rfl : Sink.discard.usesFiles = false),
    Sink.usesFiles_extend, h]
  rfl

theorem error_of_quiet {before : List Event} (hbefore : IsQuiet before) {e : Event} {d : Diagnostic}
    (he : e = .diagnostic d) (hd : d.severity = .error) :
    ofSeverity .error (diagnosticsOf (before ++ [e])) = [d] := by
  rw [diagnosticsOf_append, ofSeverity_append, hbefore.1, he]
  simp [diagnosticsOf, Event.diagnostic?, ofSeverity, hd]

theorem refusalEvent_isError (source : Source) (r : Refusal) :
    ∃ d : Diagnostic, refusalEvent source r = .diagnostic d ∧ d.severity = .error := by
  unfold refusalEvent
  split
  · exact ⟨_, rfl, rfl⟩
  · exact ⟨_, rfl, rfl⟩

/-- A source without an artifact leaves every sink alone, and one error unless it faults. -/
theorem contribute_withholds {g : Generator} {source : Source} (h : g.artifactOf? source = none) :
    ∃ events ending, (∀ sink, contribute g sink source = ⟨none, events, sink, ending⟩) ∧
      ((∃ k, ending = .fault k) ∨ ∃ d, ofSeverity .error (diagnosticsOf events) = [d]) := by
  have hbefore := IsQuiet.extractionEvents source
  have hrefused {before : List Event} (hquiet : IsQuiet before) (r : Refusal) :
      ∃ d, ofSeverity .error (diagnosticsOf (before ++ [refusalEvent source r])) = [d] := by
    obtain ⟨d, he, hd⟩ := refusalEvent_isError source r
    exact ⟨d, error_of_quiet hquiet he hd⟩
  unfold Generator.artifactOf? at h
  cases hs : source.toSchema with
  | error e =>
    simp only [contribute, hs]
    cases e with
    | refused r => exact ⟨_, _, fun sink => rfl, Or.inr (hrefused hbefore r)⟩
    | fault k => exact ⟨_, _, fun sink => rfl, Or.inl ⟨k, rfl⟩⟩
  | ok s =>
    rw [hs] at h
    simp only [contribute, hs, contributeSchema]
    cases hr : s.validate g.settings.allowDuplicateKeys.isSet with
    | some r => exact ⟨_, _, fun sink => rfl, Or.inr (hrefused hbefore r)⟩
    | none =>
      have hwarned := hbefore.append (IsQuiet.warnings s.name (g.warnings s))
      cases hgen : g.generate s with
      | ok a => simp [hr, hgen, Except.toOption] at h
      | error e =>
        rcases e with (r | template) | k
        · exact ⟨_, _, fun sink => rfl, Or.inr (hrefused hwarned r)⟩
        · exact ⟨_, _, fun sink => rfl, Or.inr ⟨_, error_of_quiet hwarned rfl rfl⟩⟩
        · exact ⟨_, _, fun sink => rfl, Or.inl ⟨k, rfl⟩⟩

/-- A source hands its artifact to the sink, and has reported no error before. -/
theorem contribute_delivers {g : Generator} {source : Source} {a : Artifact}
    (h : g.artifactOf? source = some a) :
    ∃ before, IsQuiet before ∧ ∀ sink, contribute g sink source = deliver source sink before a := by
  unfold Generator.artifactOf? at h
  cases hs : source.toSchema with
  | error e => simp [hs] at h
  | ok s =>
    cases hr : s.validate g.settings.allowDuplicateKeys.isSet with
    | some r => simp [hs, hr] at h
    | none =>
      cases hgen : g.generate s with
      | error e => simp [hs, hr, hgen, Except.toOption] at h
      | ok a' =>
        obtain rfl : a' = a := by simpa [hs, hr, hgen, Except.toOption] using h
        have htrace : IsQuiet [renderedEvent a'] := IsQuiet.traces fun e he =>
          ⟨_, List.mem_singleton.mp he⟩
        have hwarned := (IsQuiet.extractionEvents source).append
          (IsQuiet.warnings s.name (g.warnings s))
        refine ⟨_, hwarned.append htrace, fun sink => ?_⟩
        simp only [contribute, hs, contributeSchema, hr, hgen]

/-- What a source contributes depends on the kind of the sink only. -/
theorem contribute_eq_under (g : Generator) {sink : Sink} (h : sink.usesFiles = false)
    (source : Source) : contribute g sink source = (contribute g .discard source).under sink := by
  cases ha : g.artifactOf? source with
  | none =>
    obtain ⟨events, ending, hnone, -⟩ := contribute_withholds ha
    simp [hnone, Contribution.under, Sink.extend_nil]
  | some a =>
    obtain ⟨before, -, hdeliver⟩ := contribute_delivers ha
    rw [hdeliver, hdeliver]
    exact deliver_eq_under h

end Pass

namespace Contribution

def diagnostics (c : Contribution) : List Diagnostic :=
  diagnosticsOf c.events

/-- One artifact, one note and no error. -/
structure IsArtifact (c : Contribution) : Prop where
  delivered : ∃ d, c.delivered = some d
  note : ∃ d, ofSeverity .note c.diagnostics = [d]
  noError : ofSeverity .error c.diagnostics = []

/-- Nothing but one error, which carries the name of the aggregate if that has one. -/
structure IsError (c : Contribution) (label : Option Text) : Prop where
  noArtifact : c.delivered = none
  noNote : ofSeverity .note c.diagnostics = []
  error : ∃ d, ofSeverity .error c.diagnostics = [d] ∧
    ∀ name, label = some name → name ≠ "" → d.aggregate = some name

theorem IsArtifact.under {c : Contribution} (h : c.IsArtifact) (sink : Sink) :
    (c.under sink).IsArtifact where
  delivered := by
    obtain ⟨d, hd⟩ := h.delivered
    exact ⟨d.artifact.deliveredTo sink, by rw [Contribution.under, hd]; rfl⟩
  note := h.note
  noError := h.noError

theorem IsError.under {c : Contribution} {label : Option Text} (h : c.IsError label)
    (sink : Sink) : (c.under sink).IsError label where
  noArtifact := by rw [Contribution.under, h.noArtifact]; rfl
  noNote := h.noNote
  error := h.error

theorem isError_of_quiet {before : List Event} (hbefore : IsQuiet before) {message : Text}
    {aggregate label : Option Text} (sink : Sink) (ending : Ending)
    (h : ∀ name, label = some name → name ≠ "" → aggregate = some name) :
    IsError ⟨none, before ++ [.diagnostic ⟨.error, message, aggregate⟩], sink, ending⟩ label where
  noArtifact := rfl
  noNote := by
    rw [diagnostics, diagnosticsOf_append, ofSeverity_append, hbefore.2]
    rfl
  error := by
    refine ⟨⟨.error, message, aggregate⟩, ?_, h⟩
    rw [diagnostics, diagnosticsOf_append, ofSeverity_append, hbefore.1]
    rfl

end Contribution

namespace Pass

/-- A refusal is laid to the source by its name, or to nothing where the report can add the name. -/
def Attributed (r : Refusal) (label : Option Text) : Prop :=
  ∀ name, label = some name → name ≠ "" →
    r.aggregate = some name ∨ (r.aggregate = none ∧ ∀ aggregate, r.cause ≠ .empty aggregate)

theorem isError_refuse {source : Source} {sink : Sink} {before : List Event} {r : Refusal}
    (hbefore : IsQuiet before) (hr : Attributed r source.label) :
    (refuse source sink before r).IsError source.label := by
  unfold refuse refusalEvent
  split
  · rename_i aggregate hempty
    refine Contribution.isError_of_quiet hbefore sink _ fun name hname hne => ?_
    rcases hr name hname hne with h | ⟨-, h⟩
    · exact h
    · exact absurd hempty (h aggregate)
  · refine Contribution.isError_of_quiet hbefore sink _ fun name hname hne => ?_
    rcases hr name hname hne with h | ⟨h, -⟩
    · simp only [Refusal.orAggregate, h]
    · simp only [Refusal.orAggregate, h, hname]

theorem isArtifact_deliver {source : Source} {before : List Event} (hbefore : IsQuiet before)
    (a : Artifact) : (deliver source .discard before a).IsArtifact where
  delivered := ⟨⟨a, none⟩, rfl⟩
  note := by
    refine ⟨⟨.note, "Generated " ++ a.accessorClass.name, some a.accessorClass.schema.name⟩, ?_⟩
    change ofSeverity .note (diagnosticsOf (before ++ [] ++ [generatedNote a])) = _
    rw [List.append_nil, diagnosticsOf_append, ofSeverity_append, hbefore.2]
    rfl
  noError := by
    change ofSeverity .error (diagnosticsOf (before ++ [] ++ [generatedNote a])) = _
    rw [List.append_nil, diagnosticsOf_append, ofSeverity_append, hbefore.1]
    rfl

theorem attributed_validate {s : Schema} {allow : Bool} {r : Refusal}
    (h : s.validate allow = some r) : Attributed r (some s.name) := by
  intro name hname hne
  cases hname
  unfold Schema.validate at h
  split at h
  · cases h
    exact Or.inl rfl
  · split at h
    · cases h
    · cases h
      exact Or.inl rfl

theorem attributed_methods {g : Generator} {fields : List Field} {r : Refusal}
    (h : g.methods fields = .error (.refused r)) (label : Option Text) : Attributed r label := by
  obtain ⟨p, rfl⟩ := Generator.methods_eq_refused h
  intro name _ _
  exact Or.inr ⟨rfl, fun aggregate hcause => by cases hcause⟩

/-- How a source with a schema ends: by a fault, with an artifact or with an error. -/
theorem contributeSchema_cases {g : Generator} (hg : g.WellTyped) {source : Source}
    {before : List Event} (hbefore : IsQuiet before) {s : Schema} (hlabel : source.label = some s.name) :
    (∃ k, (contributeSchema g source .discard before s).ending = .fault k) ∨
      (contributeSchema g source .discard before s).IsArtifact ∨
      (contributeSchema g source .discard before s).IsError source.label := by
  unfold contributeSchema
  split
  · rename_i r hr
    exact Or.inr (Or.inr (isError_refuse hbefore (hlabel ▸ attributed_validate hr)))
  · have hwarnings := hbefore.append (IsQuiet.warnings s.name (g.warnings s))
    rcases hg.generate s with ⟨e, he, hgen⟩ | ⟨ms, -, ⟨k, -, hgen⟩ | ⟨indent, -, hgen⟩⟩
    · cases e with
      | refused r =>
        rw [hgen]
        exact Or.inr (Or.inr (isError_refuse hwarnings (attributed_methods he _)))
      | fault k =>
        rw [hgen]
        exact Or.inl ⟨k, rfl⟩
    · rw [hgen]
      exact Or.inl ⟨k, rfl⟩
    · split at hgen
      · obtain ⟨a, hgen⟩ := hgen
        rw [hgen]
        have htrace : IsQuiet [renderedEvent a] := IsQuiet.traces fun e he =>
          ⟨_, List.mem_singleton.mp he⟩
        exact Or.inr (Or.inl (isArtifact_deliver (hwarnings.append htrace) a))
      · rw [hgen]
        exact Or.inr (Or.inr (Contribution.isError_of_quiet hwarnings .discard _
          fun name hname _ => hname))

theorem contribute_cases {g : Generator} (hg : g.WellTyped) (source : Source) :
    (∃ k, (contribute g .discard source).ending = .fault k) ∨
      (contribute g .discard source).IsArtifact ∨
      (contribute g .discard source).IsError source.label := by
  have hbefore := IsQuiet.extractionEvents source
  unfold contribute
  split
  · rename_i s hs
    exact contributeSchema_cases hg hbefore (Source.toSchema_label hs)
  · rename_i r hr
    refine Or.inr (Or.inr (isError_refuse hbefore fun name hname hne => ?_))
    exact Or.inl (Source.toSchema_laidTo hname hne r hr)
  · rename_i k hk
    exact Or.inl ⟨k, rfl⟩

end Pass

namespace Pass

/-- What the sources add, put down in a row. -/
def contributions (g : Generator) (sources : List Source) : List Contribution :=
  sources.map (contribute g .discard)

end Pass

namespace PassState

/-- The state after more contributions to a sink without files. -/
def extend (st : PassState) (cs : List Contribution) : PassState where
  processed := st.processed + cs.length
  delivered := st.delivered ++ (cs.flatMap fun c => c.delivered.toList).map fun d =>
    d.artifact.deliveredTo st.sink
  events := st.events ++ cs.flatMap fun c => c.events
  sink := st.sink.extend ((cs.flatMap fun c => c.delivered.toList).map fun d => d.artifact.entry)

@[simp] theorem processed_add (st : PassState) (c : Contribution) :
    (st.add c).processed = st.processed + 1 := rfl

theorem add_under (st : PassState) (c : Contribution) : st.add (c.under st.sink) = st.extend [c] := by
  simp only [add, extend, Contribution.under, List.flatMap_cons, List.flatMap_nil, List.append_nil,
    List.length_singleton]
  cases c.delivered <;> rfl

theorem extend_nil (st : PassState) : st.extend [] = st := by
  simp [extend, Sink.extend_nil]

theorem extend_append (st : PassState) (cs ds : List Contribution) :
    st.extend (cs ++ ds) = (st.extend cs).extend ds := by
  simp [extend, Sink.extend_extend, Artifact.deliveredTo, Sink.location_extend, Nat.add_assoc]

theorem usesFiles_extend (st : PassState) (cs : List Contribution) :
    (st.extend cs).sink.usesFiles = st.sink.usesFiles :=
  Sink.usesFiles_extend _ _

end PassState

/-- The schema of the source turns out to have no fields. -/
def Source.isEmpty (source : Source) : Bool :=
  match source.toSchema with
  | .ok s => s.fields.isEmpty
  | .error (.refused ⟨.empty _, _⟩) => true
  | .error _ => false

/-- The fault by which a source ends, if it does. -/
def Ending.fault? : Ending → Option Fault
  | .fault k => some k
  | _ => none

theorem Ending.fault?_eq_some {e : Ending} {k : Fault} : e.fault? = some k ↔ e = .fault k := by
  cases e <;> simp [fault?]

namespace Pass

/-- Neither a default that cannot be read nor a file that cannot be written counts as a schema without
fields. -/
theorem deliver_ne_empty {source : Source} {sink : Sink} {before : List Event} {a : Artifact} :
    (deliver source sink before a).ending ≠ .empty := by
  cases sink with
  | discard => simp [deliver, Sink.write]
  | memory files => simp [deliver, Sink.write]
  | directory root tree =>
    unfold deliver Sink.write
    simp only
    rcases tree.save (root.join a.path) a.source with ⟨saved, _ | (e | k)⟩
    · simp
    · simp [refuse, refusalEnding]
    · simp

theorem contributeSchema_eq_empty_iff {g : Generator} {source : Source} {sink : Sink}
    {before : List Event} {s : Schema} :
    (contributeSchema g source sink before s).ending = .empty ↔ s.fields = [] := by
  unfold contributeSchema
  by_cases hfields : s.fields = []
  · simp [Schema.validate, hfields, refuse, refusalEnding]
  · simp only [hfields, iff_false]
    split
    · rename_i r hr
      simp only [Schema.validate, hfields, if_false] at hr
      split at hr
      · cases hr
      · cases hr
        simp [refuse, refusalEnding]
    · cases hgen : g.generate s with
      | ok a => exact deliver_ne_empty
      | error e =>
        rcases e with (r | template) | k
        · obtain ⟨p, rfl⟩ := Generator.generate_eq_refused hgen
          simp [refuse, refusalEnding]
        · simp
        · simp

/-- A source ends as one without fields exactly if it is one, whatever the settings and the sink. -/
theorem ending_eq_empty_iff {g : Generator} {sink : Sink} {source : Source} :
    (contribute g sink source).ending = .empty ↔ source.isEmpty = true := by
  unfold contribute Source.isEmpty
  cases source.toSchema with
  | ok s => simp only [contributeSchema_eq_empty_iff, List.isEmpty_iff]
  | error e =>
    cases e with
    | refused r =>
      obtain ⟨cause, aggregate⟩ := r
      cases cause <;> simp [refuse, refusalEnding]
    | fault k => simp

/-- The sources that a pass takes if nothing stops it: all of them, or those up to the first one
without fields where the settings say so. -/
def reached (g : Generator) : List Source → List Source
  | [] => []
  | source :: rest =>
    source :: if g.settings.stopOnEmptySchema.isSet && source.isEmpty then [] else reached g rest

/-- Whether the pass skips sources, or could have skipped some. -/
def skips (g : Generator) (sources : List Source) : Bool :=
  g.settings.stopOnEmptySchema.isSet && sources.any Source.isEmpty

/-- One step of a pass. -/
theorem runFrom_cons (g : Generator) (st : PassState) (source : Source) (rest : List Source) :
    runFrom g st (source :: rest) =
      match (contribute g st.sink source).ending.fault? with
      | some k => (st.add (contribute g st.sink source), some k)
      | none =>
        if g.settings.stopOnEmptySchema.isSet && source.isEmpty then
          ((st.add (contribute g st.sink source)).report skippingNote, none)
        else runFrom g (st.add (contribute g st.sink source)) rest := by
  have hempty : (contribute g st.sink source).ending = .empty ↔ source.isEmpty = true :=
    ending_eq_empty_iff
  rw [runFrom]
  cases hend : (contribute g st.sink source).ending with
  | finished =>
    have hnot : source.isEmpty = false := by
      rw [← Bool.not_eq_true, ← hempty, hend]
      decide
    simp [Ending.fault?, hnot]
  | empty =>
    have hyes : source.isEmpty = true := hempty.mp hend
    simp [Ending.fault?, hyes]
  | fault k => simp [Ending.fault?]

/-- One step of a pass to a sink without files. -/
theorem runFrom_cons_extend {g : Generator} {st : PassState}
    (hsink : st.sink.usesFiles = false) (source : Source) (rest : List Source) :
    runFrom g st (source :: rest) =
      match (contribute g .discard source).ending.fault? with
      | some k => (st.extend [contribute g .discard source], some k)
      | none =>
        if g.settings.stopOnEmptySchema.isSet && source.isEmpty then
          ((st.extend [contribute g .discard source]).report skippingNote, none)
        else runFrom g (st.extend [contribute g .discard source]) rest := by
  rw [runFrom_cons, contribute_eq_under g hsink source, PassState.add_under]
  rfl

/-- A pass in which no source faults adds up what its sources contribute. -/
theorem runFrom_eq {g : Generator} {st : PassState}
    (hsink : st.sink.usesFiles = false) {sources : List Source}
    (h : ∀ source ∈ reached g sources, ∀ k, (contribute g .discard source).ending ≠ .fault k) :
    runFrom g st sources =
      (if skips g sources then
        (st.extend (contributions g (reached g sources))).report skippingNote
      else st.extend (contributions g (reached g sources)), none) := by
  induction sources generalizing st with
  | nil => simp [runFrom, reached, skips, contributions, PassState.extend_nil]
  | cons source rest ih =>
    have hextend (cs : List Source) : st.extend (contributions g (source :: cs)) =
        (st.extend [contribute g .discard source]).extend (contributions g cs) :=
      PassState.extend_append st [contribute g .discard source] (contributions g cs)
    have hsink' : (st.extend [contribute g .discard source]).sink.usesFiles = false :=
      (PassState.usesFiles_extend st _).trans hsink
    have hhere : (contribute g .discard source).ending.fault? = none := by
      rw [Option.eq_none_iff_forall_ne_some]
      exact fun k hk => h source List.mem_cons_self k (Ending.fault?_eq_some.mp hk)
    rw [runFrom_cons_extend hsink, hhere]
    cases hlast : g.settings.stopOnEmptySchema.isSet && source.isEmpty with
    | true =>
      obtain ⟨hstop, hempty⟩ := Bool.and_eq_true_iff.mp hlast
      simp [reached, skips, hstop, hempty, contributions]
    | false =>
      have hrest := ih hsink' fun x hx => h x (by simp [reached, hlast, hx])
      have hskips : skips g (source :: rest) = skips g rest := by
        rw [skips, List.any_cons, Bool.and_or_distrib_left, hlast, Bool.false_or, skips]
      simp only [reached, hlast, Bool.false_eq_true, if_false, hskips, hrest, hextend]

/-- What one more contribution of a source and the note about skipped ones keep, a pass over the
sources keeps. -/
theorem runFrom_induction {g : Generator} {P : PassState → Prop} {sources : List Source}
    (hadd : ∀ st, ∀ source ∈ sources, P st → P (st.add (contribute g st.sink source)))
    (hreport : ∀ st, P st → P (st.report skippingNote)) {st : PassState} (h : P st) :
    P (runFrom g st sources).1 := by
  induction sources generalizing st with
  | nil => exact h
  | cons source rest ih =>
    have hnext := hadd st source List.mem_cons_self h
    have hrest := ih (fun st x hx => hadd st x (List.mem_cons_of_mem source hx)) hnext
    rw [runFrom]
    cases (contribute g st.sink source).ending with
    | finished => exact hrest
    | empty =>
      simp only
      split
      · exact hreport _ hnext
      · exact hrest
    | fault k => exact hnext

theorem runFrom_invariant {g : Generator} {P : PassState → Prop}
    (hadd : ∀ st source, P st → P (st.add (contribute g st.sink source)))
    (hreport : ∀ st, P st → P (st.report skippingNote)) {st : PassState} (h : P st)
    (sources : List Source) : P (runFrom g st sources).1 :=
  runFrom_induction (fun st source _ => hadd st source) hreport h

/-- What is reached stands at the front. -/
theorem reached_isPrefix (g : Generator) (sources : List Source) : reached g sources <+: sources := by
  induction sources with
  | nil => exact List.prefix_rfl
  | cons source rest ih =>
    rw [reached, List.prefix_cons_inj]
    split
    · exact List.nil_prefix
    · exact ih

/-- A pass that returns has taken all that it can reach. -/
theorem processed_runFrom {g : Generator} {st : PassState} {sources : List Source}
    (h : (runFrom g st sources).2 = none) :
    (runFrom g st sources).1.processed = st.processed + (reached g sources).length := by
  induction sources generalizing st with
  | nil => rfl
  | cons source rest ih =>
    rw [runFrom_cons] at h ⊢
    cases hfault : (contribute g st.sink source).ending.fault? with
    | some k =>
      rw [hfault] at h
      cases h
    | none =>
      rw [hfault] at h
      cases hlast : g.settings.stopOnEmptySchema.isSet && source.isEmpty with
      | true =>
        simp only [hlast, if_true, reached]
        rfl
      | false =>
        simp only [hlast, Bool.false_eq_true, if_false] at h ⊢
        rw [ih h, reached, hlast, if_neg Bool.false_ne_true, List.length_cons,
          PassState.processed_add]
        omega

theorem reached_eq_self {g : Generator} (h : g.settings.stopOnEmptySchema.isSet = false)
    (sources : List Source) : reached g sources = sources := by
  induction sources with
  | nil => rfl
  | cons source rest ih => simp [reached, h, ih]

end Pass

namespace PassState

@[simp] theorem processed_report (st : PassState) (e : Event) :
    (st.report e).processed = st.processed := rfl

theorem diagnostics_report (st : PassState) (e : Event) :
    (st.report e).diagnostics = st.diagnostics ++ diagnosticsOf [e] :=
  diagnosticsOf_append _ _

theorem errors_report (st : PassState) : (st.report Pass.skippingNote).errors = st.errors := by
  rw [errors, diagnostics_report, ofSeverity_append]
  exact List.append_nil _

theorem artifacts_add (st : PassState) (c : Contribution) :
    (st.add c).artifacts = st.artifacts ++ c.delivered.toList.map Delivered.artifact :=
  List.map_append

theorem diagnostics_add (st : PassState) (c : Contribution) :
    (st.add c).diagnostics = st.diagnostics ++ c.diagnostics :=
  diagnosticsOf_append _ _

theorem artifacts_extend (st : PassState) (cs : List Contribution) :
    (st.extend cs).artifacts =
      st.artifacts ++ (cs.flatMap fun c => c.delivered.toList).map Delivered.artifact := by
  simp [artifacts, extend, Artifact.deliveredTo, Function.comp_def]

theorem diagnostics_extend (st : PassState) (cs : List Contribution) :
    (st.extend cs).diagnostics = st.diagnostics ++ cs.flatMap Contribution.diagnostics := by
  simp only [diagnostics, extend, diagnosticsOf_append]
  exact congrArg _ (List.filterMap_flatMap ..)

end PassState

end PrefAccessor
