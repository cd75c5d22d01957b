import PrefAccessor.CommandLine.Arguments
import PrefAccessor.CommandLine.Console
import PrefAccessor.Pass
import PrefAccessor.Reference
import PrefAccessor.Registry
import PrefAccessor.Settings.Warning

/-!
# Runs of the program

From arguments to an exit status, the lines printed, the records logged and the files left behind.
Everything that can be refused is looked at before the first file is written: the language, the
settings and all sources. What is refused is printed and ends the run with status one. The aggregates
themselves are then taken one by one, and the status tells whether all of them were generated.
-/

namespace PrefAccessor.CommandLine

set_option autoImplicit false

/-- What a run finds around it. -/
structure Environment where
  tree : FileTree
  modules : List ModuleEntry
  console : Console
  /-- How many blanks fit into memory. -/
  room : Nat

inductive Exit where
  | status (n : Nat)
  /-- The arguments were not carried out. -/
  | usage (n : Nat)
  | fault (fault : Fault)
  deriving DecidableEq, Repr

structure Report where
  exit : Exit
  printed : List Text
  log : List LogRecord
  tree : FileTree

inductive Complaint where
  | unsupportedLanguage (language : Text) (supported : List Text)
  | settings (problem : Settings.FileProblem)
  | registry (problem : RegistryProblem)
  | reference (problem : ReferenceProblem)
  deriving DecidableEq

def Complaint.message : Complaint → Text
  | .unsupportedLanguage language supported =>
    "Unsupported language '" ++ language ++ "' (supported: " ++
      Text.intercalate ", " supported ++ ")"
  | .settings problem => problem.message
  | .registry problem => problem.message
  | .reference problem => problem.message

def Verbosity.threshold : Verbosity → Level
  | .normal => .warning
  | .verbose => .debug
  | .quiet => .error

def logOf (verbosity : Verbosity) (events : List Event) : List LogRecord :=
  (events.map Event.record).filter fun r => decide (verbosity.threshold.rank ≤ r.level.rank)

/-- A setting that is overridden where a value is given. -/
def overriding (name : Text) (value : Option Json) : List (Text × Json) :=
  match value with
  | some v => [(name, v)]
  | none => []

/-- An argument that counts only if it is not empty. -/
def nonempty (argument : Option Text) : Option Json :=
  match argument with
  | some "" => none
  | some s => some (.string s)
  | none => none

def flag (given value : Bool) : Option Json :=
  if given then some (.bool value) else none

def Request.overrides (r : Request) : Entries Text Json :=
  overriding "output_dir" (nonempty r.output) ++
  overriding "package_name" (nonempty r.packageName) ++
  overriding "class_suffix" (r.classSuffix.map .string) ++
  overriding "method_case" (nonempty r.methodCase) ++
  overriding "add_comments" (flag r.noComments false) ++
  overriding "allow_duplicate_keys" (flag r.allowDuplicateKeys true) ++
  overriding "stop_on_empty_schema" (flag r.stopOnEmpty true)

def readSettingsFile (tree : FileTree) (config : Option Text) :
    Traced Complaint (Entries Text Json) :=
  match nonempty config with
  | some (.string name) =>
    let path := Path.ofString name
    match Settings.readFile tree path with
    | .ok members => ⟨[Event.debug ("Loaded configuration from " ++ path.toString)], .ok members⟩
    | .error e => ⟨[], .error (e.map .settings)⟩
  | _ => Traced.pure []

def warnAbout (settings : Settings) (language : Text) : Traced Complaint Unit :=
  match settings.warnings (.string language) with
  | .error k => Traced.silent (Attempt.stop k)
  | .ok warnings => ⟨warnings.map fun w => .trace ⟨.warning, w.message⟩, .ok ()⟩

/-- What a request needs before a pass can begin. -/
structure Prepared where
  /-- The registered name of the language. -/
  language : Text
  generator : Generator
  sources : List Source
  sink : Sink

/-- Makes ready what a request needs, or says why it cannot be. -/
def prepare (env : Environment) (r : Request) : Traced Complaint Prepared := do
  let registry := Registry.builtin
  let language ← match registry.resolve r.language with
    | some language => Traced.pure language
    | none =>
      Traced.silent (Attempt.refuse (.unsupportedLanguage r.language registry.languages))
  let file ← readSettingsFile env.tree r.config
  let settings ← Traced.silent
    (Attempt.ofFaults (Settings.resolve (.string language) file (.object r.overrides)))
  warnAbout settings language
  let generator ← Traced.silent
    (Attempt.mapRefusal .registry (registry.create env.tree env.room language (.given settings)))
  let sources ← (Reference.loadAll env.tree env.modules r.sources).mapRefusal .reference
  Traced.tell (Event.debug ("Resolved " ++ Text.ofList (Number.writeNat sources.length) ++
    " aggregate source(s)"))
  let sink ← Traced.silent (Attempt.ofFaults (Sink.forOutput env.tree settings.outputDir))
  return ⟨language, generator, sources, sink⟩

def writtenMessage (d : Delivered) : Print :=
  .message ("[green]✓[/green] " ++ d.artifact.accessorClass.name ++ " written to [cyan]" ++
    d.location.getD "" ++ "[/cyan]")

def codePrints (language : Text) (d : Delivered) : List Print :=
  [.message ("[green]── " ++ d.artifact.path.toString ++ " ──[/green]"),
    .code d.artifact.source language]

def countText (n : Nat) : Text :=
  Text.ofList (Number.writeNat n)

def summaryMessage (st : PassState) : Print :=
  let style :=
    if st.errors.length ≠ 0 then "red" else if st.warnings.length ≠ 0 then "yellow" else "green"
  .message ("[" ++ style ++ "]" ++ countText st.delivered.length ++ " accessor(s) generated, " ++
    countText st.errors.length ++ " error(s), " ++ countText st.warnings.length ++
    " warning(s)[/" ++ style ++ "]")

def metadataTable (m : Metadata) : Print :=
  .table .simple "Generation Metadata" ["Property", "Value"] [
    ["Language", m.target.name],
    ["File Extension", m.target.extension],
    ["Aggregate Count", countText m.aggregateCount],
    ["Generated Count", countText m.generatedCount],
    ["Method Count", countText m.methodCount],
    ["Error Count", countText m.errorCount]]

def resultPrints (g : Generator) (language : Text) (verbosity : Verbosity) (st : PassState) :
    List Print :=
  (if st.sink.usesFiles then st.delivered.map writtenMessage
    else st.delivered.flatMap (codePrints language)) ++
  [summaryMessage st] ++
  (if verbosity = .verbose then [metadataTable (Pass.metadata g st)] else [])

/-- The end of a run that has things left to print. -/
def finish (env : Environment) (verbosity : Verbosity) (tree : FileTree) (events : List Event)
    (status : Nat) (prints : List Print) : Report :=
  let (printed, fault) := env.console.printAll prints
  ⟨match fault with
    | none => .status status
    | some k => .fault k,
    printed, logOf verbosity events, tree⟩

def complaintMessage (c : Complaint) : Print :=
  .message ("[red]✗ Error:[/red] " ++ c.message)

def generate (env : Environment) (r : Request) : Report :=
  let prepared := prepare env r
  match prepared.outcome with
  | .error (.refused c) =>
    finish env r.verbosity env.tree prepared.events 1 [complaintMessage c]
  | .error (.fault k) => ⟨.fault k, [], logOf r.verbosity prepared.events, env.tree⟩
  | .ok p =>
    let (st, fault) := Pass.run p.generator p.sink p.sources
    let events := prepared.events ++ st.events
    let tree := st.sink.treeOr env.tree
    match fault with
    | some k => ⟨.fault k, [], logOf r.verbosity events, tree⟩
    | none =>
      finish env r.verbosity tree events (exitStatus st.diagnostics)
        (resultPrints p.generator p.language r.verbosity st)

def languageRow (e : Text × LanguageInfo) : List Text :=
  [e.1, e.2.extension, e.2.className,
    if e.2.aliases = [] then "[dim]none[/dim]" else Text.intercalate ", " e.2.aliases]

def languagesPrints : List Print := [
  .table .rounded "Supported Languages" ["Language", "Extension", "Generator Class", "Aliases"]
    (Registry.builtin.infos.map languageRow),
  .panel "Quick Start"
    ("[bold]Usage:[/bold] sharedpreform generate [dim]SOURCE...[/dim] " ++
      "--language [cyan]LANGUAGE[/cyan]")]

def perform (env : Environment) : Invocation → Report
  | .misuse m => ⟨.usage m.status, [], [], env.tree⟩
  | .nothing => ⟨.status 1, [], [], env.tree⟩
  | .languages => finish env .normal env.tree [] 0 languagesPrints
  | .generate r => generate env r

def run (env : Environment) (arguments : List Text) : Report :=
  perform env (invocation arguments)

end PrefAccessor.CommandLine
