import PrefAccessor.Diagnostic
import PrefAccessor.Generator
import PrefAccessor.Schema.Source
import PrefAccessor.Sink

/-!
# Generation passes

A pass takes its sources one after another. A source either contributes one artifact and a note, or
one error; no refusal of one source stops the others, unless the settings say that the pass ends
with the first schema without fields. A fault ends the pass and leaves what has been done so far.
-/

namespace PrefAccessor

set_option autoImplicit false

/-- An artifact and where its text has been put. -/
structure Delivered where
  artifact : Artifact
  location : Option Text
  deriving DecidableEq

inductive Ending where
  | finished
  /-- Its schema has no fields. -/
  | empty
  | fault (fault : Fault)
  deriving DecidableEq, Repr

/-- What one source adds to a pass. -/
structure Contribution where
  delivered : Option Delivered
  events : List Event
  sink : Sink
  ending : Ending

namespace Pass

def warning (aggregate : Text) (w : SchemaWarning) : Event :=
  .diagnostic ⟨.warning, w.message, some aggregate⟩

def generatedNote (a : Artifact) : Event :=
  .diagnostic
    ⟨.note, "Generated " ++ a.accessorClass.name, some a.accessorClass.schema.name⟩

def skippingNote : Event :=
  .diagnostic ⟨.note, "Skipping remaining aggregates after empty schema", none⟩

/-- The events of a source whose schema cannot be had. Refusals that belong to no aggregate are laid
to the source, except where a schema has no fields. -/
def refusalEvent (source : Source) (r : Refusal) : Event :=
  match r.cause with
  | .empty _ => .diagnostic ⟨.error, r.message, r.aggregate⟩
  | _ => .diagnostic ⟨.error, r.message, (r.orAggregate source.label).aggregate⟩

def refusalEnding (r : Refusal) : Ending :=
  match r.cause with
  | .empty _ => .empty
  | _ => .finished

/-- What reading the schema of a source leaves in the log. -/
def extractionEvents : Source → List Event
  | .declaration c =>
    match c.fields with
    | .ok fields =>
      [Event.debug ("Extracted " ++ Text.ofList (Number.writeNat fields.length) ++
        " field(s) from " ++ c.name)]
    | .error _ => []
  | _ => []

def renderedEvent (a : Artifact) : Event :=
  Event.debug ("Rendered " ++ a.accessorClass.name ++ " (" ++
    Text.ofList (Number.writeNat a.accessorClass.methods.length) ++ " methods)")

def refuse (source : Source) (sink : Sink) (before : List Event) (r : Refusal) : Contribution :=
  ⟨none, before ++ [refusalEvent source r], sink, refusalEnding r⟩

/-- An artifact on its way to the sink. -/
def deliver (source : Source) (sink : Sink) (before : List Event) (a : Artifact) : Contribution :=
  match sink.write a.path a.source with
  | (sink, .done location) =>
    let written := if sink.usesFiles then [Event.info ("Wrote " ++ location.getD "")] else []
    ⟨some ⟨a, location⟩, before ++ written ++ [generatedNote a], sink, .finished⟩
  | (sink, .refused r) => refuse source sink before r
  | (sink, .fault k) => ⟨none, before, sink, .fault k⟩

def contributeSchema (g : Generator) (source : Source) (sink : Sink) (before : List Event)
    (s : Schema) : Contribution :=
  match s.validate g.settings.allowDuplicateKeys.isSet with
  | some r => refuse source sink before r
  | none =>
    let before := before ++ (g.warnings s).map (warning s.name)
    match g.generate s with
    | .ok a => deliver source sink (before ++ [renderedEvent a]) a
    | .error (.refused (.refused r)) => refuse source sink before r
    | .error (.refused (.templateMissing template)) =>
      ⟨none, before ++ [.diagnostic ⟨.error,
        "Failed to generate code: " ++ templateMissingMessage template, source.label⟩],
        sink, .finished⟩
    | .error (.fault k) => ⟨none, before, sink, .fault k⟩

def contribute (g : Generator) (sink : Sink) (source : Source) : Contribution :=
  let before := extractionEvents source
  match source.toSchema with
  | .ok s => contributeSchema g source sink before s
  | .error (.refused r) => refuse source sink before r
  | .error (.fault k) => ⟨none, before, sink, .fault k⟩

end Pass

/-- What a pass has done so far. -/
structure PassState where
  processed : Nat
  delivered : List Delivered
  events : List Event
  sink : Sink

namespace PassState

def initial (sink : Sink) : PassState := ⟨0, [], [], sink⟩

def add (st : PassState) (c : Contribution) : PassState :=
  ⟨st.processed + 1, st.delivered ++ c.delivered.toList, st.events ++ c.events, c.sink⟩

def report (st : PassState) (e : Event) : PassState :=
  { st with events := st.events ++ [e] }

def artifacts (st : PassState) : List Artifact :=
  st.delivered.map Delivered.artifact

def diagnostics (st : PassState) : List Diagnostic :=
  diagnosticsOf st.events

def errors (st : PassState) : List Diagnostic :=
  ofSeverity .error st.diagnostics

def warnings (st : PassState) : List Diagnostic :=
  ofSeverity .warning st.diagnostics

def success (st : PassState) : Bool :=
  !hasErrors st.diagnostics

/-- All generated texts in one, in the order of their sources. -/
def code (st : PassState) : Text :=
  Text.intercalate "\n\n" (st.artifacts.map Artifact.source)

/-- The first artifact of an aggregate. -/
def artifact? (st : PassState) (aggregate : Text) : Option Artifact :=
  st.artifacts.find? fun a => a.accessorClass.schema.name == aggregate

end PassState

structure Metadata where
  target : Target
  aggregateCount : Nat
  generatedCount : Nat
  methodCount : Nat
  errorCount : Nat
  deriving DecidableEq, Repr

namespace Pass

def metadata (g : Generator) (st : PassState) : Metadata where
  target := g.target
  aggregateCount := st.processed
  generatedCount := st.delivered.length
  methodCount := (st.artifacts.flatMap fun a => a.accessorClass.methods).length
  errorCount := st.errors.length

/-- A pass over the sources from a state on, with the fault that ended it, if one did. -/
def runFrom (g : Generator) (st : PassState) : List Source → PassState × Option Fault
  | [] => (st, none)
  | source :: rest =>
    let c := contribute g st.sink source
    let st := st.add c
    match c.ending with
    | .finished => runFrom g st rest
    | .empty =>
      if g.settings.stopOnEmptySchema.isSet then (st.report skippingNote, none)
      else runFrom g st rest
    | .fault k => (st, some k)

def run (g : Generator) (sink : Sink) (sources : List Source) : PassState × Option Fault :=
  runFrom g (PassState.initial sink) sources

end Pass

end PrefAccessor
