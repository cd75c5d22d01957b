import PrefAccessor.CommandLine.Run
import PrefAccessor.Proofs.PassOutcome
import PrefAccessor.Proofs.SinkAgreement
import PrefAccessor.Proofs.WrittenFiles

/-!
# From a request to its exit status

A request is refused as a whole or carried out source by source. It is refused if the language, the
settings, the generator or one of the sources cannot be had, and then no file has been touched:
`IsReady` says what has to be there. Otherwise each source that the pass takes leaves its artifact or
one error, and the status tells whether there was an error: `generate_status`.
-/

namespace PrefAccessor

set_option autoImplicit false

theorem Attempt.collect_eq_ok_iff {ε γ : Type} {β : Type} {f : γ → Attempt ε (List β)} {xs : List γ}
    {ys : List β} :
    collect f xs = .ok ys ↔
      ∃ found, List.Forall₂ (fun x zs => f x = .ok zs) xs found ∧ ys = found.flatten := by
  induction xs generalizing ys with
  | nil => simp [eq_comm]
  | cons x xs ih =>
    rw [collect_cons_eq_ok]
    constructor
    · rintro ⟨zs, rest, hx, hrest, rfl⟩
      obtain ⟨found, hfound, rfl⟩ := ih.mp hrest
      exact ⟨zs :: found, .cons hx hfound, rfl⟩
    · rintro ⟨_, ⟨⟩ | ⟨hx, hfound⟩, rfl⟩
      exact ⟨_, _, hx, ih.mpr ⟨_, hfound, rfl⟩, rfl⟩

theorem Reference.loadAll_outcome (tree : FileTree) (modules : List ModuleEntry)
    (references : List Text) :
    (loadAll tree modules references).outcome =
      Attempt.collect (fun r => (load tree modules r).outcome) references := by
  induction references with
  | nil => rfl
  | cons r rest ih =>
    have hbind := Traced.outcome_bind (load tree modules r) fun found =>
      (loadAll tree modules rest).map (found ++ ·)
    refine hbind.trans ?_
    rw [Attempt.collect, ← ih]
    cases (load tree modules r).outcome with
    | error e => rfl
    | ok found =>
      change (loadAll tree modules rest).outcome.map _ = _
      cases (loadAll tree modules rest).outcome <;> rfl

namespace CommandLine

/-- The file of settings that a request names, or null. -/
def Request.settingsFile (r : Request) : Json :=
  (nonempty r.config).getD .null

theorem nonempty_cases (argument : Option Text) :
    nonempty argument = none ∨ ∃ s : Text, s ≠ "" ∧ nonempty argument = some (.string s) := by
  cases argument with
  | none => exact Or.inl rfl
  | some s =>
    by_cases hs : s = ""
    · subst hs
      exact Or.inl rfl
    · refine Or.inr ⟨s, hs, ?_⟩
      unfold nonempty
      split
      · rename_i heq
        exact absurd (Option.some.inj heq) hs
      · rename_i heq
        rw [Option.some.inj heq]
      · rename_i heq
        cases heq

theorem readSettingsFile_eq_ok_iff {tree : FileTree} {config : Option Text}
    {members : Entries Text Json} :
    (readSettingsFile tree config).outcome = .ok members ↔
      (nonempty config = none ∧ members = []) ∨ ∃ s, nonempty config = some (.string s) ∧
        Settings.readFile tree (Path.ofString s) = .ok members := by
  unfold readSettingsFile
  rcases nonempty_cases config with hnone | ⟨s, -, hsome⟩
  · simp [hnone, Traced.pure, eq_comm]
  · rw [hsome]
    cases hread : Settings.readFile tree (Path.ofString s) with
    | ok found => simp [hread]
    | error e => simp [hread]

theorem load_eq_ok_iff {tree : FileTree} {language : Text} {overrides : Json} {r : Request}
    {settings : Settings} :
    Settings.load tree (.string language) overrides r.settingsFile = .ok settings ↔
      ∃ members, (readSettingsFile tree r.config).outcome = .ok members ∧
        Settings.resolve (.string language) members overrides = .ok settings := by
  simp only [Settings.load, Request.settingsFile, readSettingsFile_eq_ok_iff, Attempt.bind_eq_ok,
    Attempt.ofFaults_eq_ok, Settings.languageNamed]
  rcases nonempty_cases r.config with hnone | ⟨s, hs, hsome⟩
  · simp [hnone, Settings.filePath, Json.isSet, Attempt.bind_eq_ok]
  · simp [hsome, Settings.filePath_string hs, Attempt.bind_eq_ok]

/-- Everything that a request needs before a pass can begin is there. -/
structure IsReady (env : Environment) (r : Request) (language : Text) (settings : Settings)
    (p : Prepared) : Prop where
  resolved : Registry.builtin.resolve r.language = some language
  named : p.language = language
  configured : Settings.load env.tree (.string language) (.object r.overrides) r.settingsFile =
    .ok settings
  created : Registry.builtin.create env.tree env.room language (.given settings) = .ok p.generator
  loaded : ∃ found, List.Forall₂ (fun reference sources =>
    (Reference.load env.tree env.modules reference).outcome = .ok sources) r.sources found ∧
      p.sources = found.flatten
  directed : Sink.forOutput env.tree settings.outputDir = .ok p.sink

variable {env : Environment} {r : Request} {p : Prepared}

theorem prepare_of_unresolved (h : Registry.builtin.resolve r.language = none) :
    (prepare env r).outcome =
      Attempt.refuse (.unsupportedLanguage r.language Registry.builtin.languages) := by
  unfold prepare
  simp only [h, Traced.outcome_bind]
  rfl

theorem prepare_of_resolved {language : Text}
    (h : Registry.builtin.resolve r.language = some language) :
    (prepare env r).outcome = (do
      let file ← (readSettingsFile env.tree r.config).outcome
      let settings ← Attempt.ofFaults
        (Settings.resolve (.string language) file (.object r.overrides))
      let _ ← (warnAbout settings language).outcome
      let generator ← Attempt.mapRefusal .registry
        (Registry.builtin.create env.tree env.room language (.given settings))
      let sources ← Attempt.mapRefusal .reference
        (Reference.loadAll env.tree env.modules r.sources).outcome
      let sink ← Attempt.ofFaults (Sink.forOutput env.tree settings.outputDir)
      .ok ⟨language, generator, sources, sink⟩) := by
  unfold prepare
  simp only [h, Traced.outcome_bind]
  rfl

/-- Settings are warned about, or a fault stops the run; they are never refused. -/
theorem warnAbout_cases (settings : Settings) (language : Text) :
    (warnAbout settings language).outcome = .ok () ∨
      ∃ k, (warnAbout settings language).outcome = .error (.fault k) := by
  unfold warnAbout
  cases settings.warnings (.string language) with
  | ok warnings => exact Or.inl rfl
  | error k => exact Or.inr ⟨k, rfl⟩

theorem IsReady.prepare_outcome {language : Text} {settings : Settings}
    (h : IsReady env r language settings p) :
    (prepare env r).outcome = (warnAbout settings language).outcome.map fun _ => p := by
  obtain rfl := h.named
  obtain ⟨members, hread, hresolve⟩ := load_eq_ok_iff.mp h.configured
  have hsources : (Reference.loadAll env.tree env.modules r.sources).outcome = .ok p.sources := by
    rw [Reference.loadAll_outcome, Attempt.collect_eq_ok_iff]
    exact h.loaded
  -- every stage but the warnings is known to succeed
  rw [prepare_of_resolved h.resolved, hread, hsources]
  change (Attempt.ofFaults (Settings.resolve (.string p.language) members (.object r.overrides)) >>=
    _) = _
  rw [hresolve]
  change ((warnAbout settings p.language).outcome >>= _) = _
  rw [h.created, h.directed]
  cases (warnAbout settings p.language).outcome <;> rfl

theorem IsReady.not_refused {language : Text} {settings : Settings}
    (h : IsReady env r language settings p) (c : Complaint) :
    (prepare env r).outcome ≠ Attempt.refuse c := by
  rw [h.prepare_outcome]
  rcases warnAbout_cases settings language with hwarned | ⟨k, hfault⟩
  · rw [hwarned]
    nofun
  · rw [hfault]
    nofun

theorem IsReady.eq_of_prepare {language : Text} {settings : Settings} {p' : Prepared}
    (h : IsReady env r language settings p) (hp : (prepare env r).outcome = .ok p') : p = p' := by
  rw [h.prepare_outcome] at hp
  rcases warnAbout_cases settings language with hwarned | ⟨k, hfault⟩
  · rw [hwarned] at hp
    exact Except.ok.inj hp
  · rw [hfault] at hp
    cases hp

theorem IsReady.load_of_mem {language : Text} {settings : Settings}
    (h : IsReady env r language settings p) {reference : Text} (hmem : reference ∈ r.sources) :
    ∃ sources, (Reference.load env.tree env.modules reference).outcome = .ok sources := by
  obtain ⟨found, hfound, -⟩ := h.loaded
  obtain ⟨i, hi, rfl⟩ := List.getElem_of_mem hmem
  exact ⟨_, hfound.get hi (hfound.length_eq ▸ hi)⟩

theorem isReady_of_prepare (h : (prepare env r).outcome = .ok p) :
    ∃ language settings, IsReady env r language settings p := by
  cases hlanguage : Registry.builtin.resolve r.language with
  | none =>
    rw [prepare_of_unresolved hlanguage] at h
    cases h
  | some language =>
    simp only [prepare_of_resolved hlanguage, Attempt.bind_eq_ok, Attempt.ofFaults_eq_ok,
      Attempt.mapRefusal_eq_ok, Except.ok.injEq] at h
    obtain ⟨members, hread, settings, hresolve, -, -, generator, hcreate, sources, hload, sink,
      hsink, rfl⟩ := h
    rw [Reference.loadAll_outcome, Attempt.collect_eq_ok_iff] at hload
    exact ⟨language, settings, hlanguage, rfl, load_eq_ok_iff.mpr ⟨members, hread, hresolve⟩, hcreate,
      hload, hsink⟩

theorem exitStatus_le_one (diagnostics : List Diagnostic) : exitStatus diagnostics ≤ 1 := by
  unfold exitStatus
  split
  · exact Nat.le_refl 1
  · exact Nat.zero_le 1

theorem status_of_finish {verbosity : Verbosity} {tree : FileTree} {events : List Event}
    {status n : Nat} {prints : List Print}
    (h : (finish env verbosity tree events status prints).exit = .status n) : n = status := by
  unfold finish at h
  dsimp only at h
  split at h
  · exact (Exit.status.inj h).symm
  · cases h

/-- A run that returns has refused the request or come to the end of its pass. -/
theorem generate_cases {n : Nat} (h : (generate env r).exit = .status n) :
    (∃ c, (prepare env r).outcome = Attempt.refuse c ∧ n = 1 ∧ (generate env r).tree = env.tree) ∨
      ∃ p st, (prepare env r).outcome = .ok p ∧
        Pass.run p.generator p.sink p.sources = (st, none) ∧ n = exitStatus st.diagnostics ∧
        (generate env r).tree = st.sink.treeOr env.tree := by
  unfold generate at h ⊢
  rcases hprepare : (prepare env r).outcome with (c | k) | p
  · simp only [hprepare] at h ⊢
    exact Or.inl ⟨c, rfl, status_of_finish h, rfl⟩
  · simp only [hprepare] at h
    cases h
  · simp only [hprepare] at h ⊢
    rcases hrun : Pass.run p.generator p.sink p.sources with ⟨st, _ | k⟩
    · simp only [hrun] at h ⊢
      exact Or.inr ⟨p, st, rfl, hrun, status_of_finish h, rfl⟩
    · simp only [hrun] at h
      cases h

/-- A run whose console shows everything returns if its pass does. -/
theorem run_of_pass {args : List Text} (hargs : invocation args = .generate r)
    (hprepare : (prepare env r).outcome = .ok p) {st : PassState}
    (hpass : Pass.run p.generator p.sink p.sources = (st, none))
    (hshown : ∀ prints, (env.console.printAll prints).2 = none) :
    (run env args).exit = .status (exitStatus st.diagnostics) ∧
      (run env args).tree = st.sink.treeOr env.tree := by
  simp only [run, hargs, perform, generate, hprepare, hpass, finish, hshown, and_self]

theorem forOutput_cases {tree : FileTree} {output : Json} {sink : Sink}
    (h : Sink.forOutput tree output = .ok sink) :
    sink = .discard ∨ ∃ root, sink = .directory root tree := by
  unfold Sink.forOutput at h
  split at h
  · exact Or.inl (Except.ok.inj h).symm
  · exact Or.inr ⟨_, (Except.ok.inj h).symm⟩
  · split at h
    · cases h
    · exact Or.inl (Except.ok.inj h).symm

theorem sink_run_discard (g : Generator) (sources : List Source) :
    (Pass.run g .discard sources).1.sink = .discard := by
  have hadd (st : PassState) (source : Source) (hst : st.sink = .discard) :
      (st.add (Pass.contribute g st.sink source)).sink = .discard := by
    rw [hst, Pass.contribute_eq_under g rfl]
    rfl
  exact Pass.runFrom_invariant hadd (fun _ hst => hst) rfl sources

/-- What the pass of a request has done when it ends, in a tree that was `before`. -/
structure CarriedOut (p : Prepared) (st : PassState) (before after : FileTree) : Prop where
  returned : Pass.run p.generator p.sink p.sources = (st, none)
  /-- Only a setting to stop keeps the pass from a source. -/
  reached : p.sources.take st.processed = Pass.reached p.generator p.sources
  all : p.generator.settings.stopOnEmptySchema.isSet = false → st.processed = p.sources.length
  /-- Each source leaves its artifact or one error, and nothing else is delivered or an error. -/
  outcomes : ∃ outcomes,
    List.Forall₂ (Source.Leaves p.generator) (p.sources.take st.processed) outcomes ∧
      st.artifacts = outcomes.filterMap Sum.getRight? ∧ st.errors = outcomes.filterMap Sum.getLeft?
  /-- The sources without artifacts might as well not have been there. -/
  undisturbed : ∃ alone, Pass.run p.generator p.sink
      (Pass.producing p.generator (p.sources.take st.processed)) = (alone, none) ∧
    alone.delivered = st.delivered ∧ alone.sink = st.sink
  files : (p.sink = .discard ∧ after = before) ∨
    ∃ root, p.sink = .directory root before ∧ FileTree.Written root st.artifacts before after

theorem carriedOut {output : Json} {st : PassState}
    (hsink : Sink.forOutput env.tree output = .ok p.sink)
    (hrun : Pass.run p.generator p.sink p.sources = (st, none)) :
    CarriedOut p st env.tree (st.sink.treeOr env.tree) := by
  have hreturned : (Pass.run p.generator p.sink p.sources).2 = none := by rw [hrun]
  have hst : (Pass.run p.generator p.sink p.sources).1 = st := by rw [hrun]
  have hreached : p.sources.take st.processed = Pass.reached p.generator p.sources :=
    hst ▸ Pass.take_processed hreturned
  constructor
  · exact hrun
  · exact hreached
  · intro hall
    have hprocessed : st.processed = 0 + (Pass.reached p.generator p.sources).length :=
      hst ▸ Pass.processed_runFrom hreturned
    rw [hprocessed, Pass.reached_eq_self hall, Nat.zero_add]
  · obtain ⟨outcomes, hleaves, hartifacts, herrors⟩ := Pass.runFrom_leaves hreturned
    rw [hreached]
    exact ⟨outcomes, hleaves, hst ▸ hartifacts, hst ▸ herrors⟩
  · obtain ⟨halone, hdelivered, hsink'⟩ := Pass.runFrom_producing rfl rfl hreturned
    rw [hreached]
    exact ⟨_, Prod.ext rfl halone, hst ▸ hdelivered, hst ▸ hsink'⟩
  · rcases forOutput_cases hsink with hdiscard | ⟨root, hroot⟩
    · have hkept : st.sink = .discard := by
        rw [← hst, hdiscard]
        exact sink_run_discard _ _
      exact Or.inl ⟨hdiscard, by rw [hkept]; rfl⟩
    · obtain ⟨after, hafter, hwritten⟩ : st.Wrote root env.tree := by
        rw [← hst, hroot]
        rw [hroot] at hreturned
        exact (PassState.wrote_initial root env.tree).runFrom hreturned
      exact Or.inr ⟨root, hroot, by rw [hafter]; exact hwritten⟩

theorem CarriedOut.exitStatus_eq_zero_iff {st : PassState} {before after : FileTree}
    (h : CarriedOut p st before after) :
    exitStatus st.diagnostics = 0 ↔
      List.Forall₂ (fun source a => p.generator.artifactOf? source = some a)
        (p.sources.take st.processed) st.artifacts := by
  have hreturned : (Pass.run p.generator p.sink p.sources).2 = none := by rw [h.returned]
  have herrors := Pass.run_errors_eq_nil_iff hreturned
  rw [h.returned] at herrors
  have hstatus : exitStatus st.diagnostics = 0 ↔ st.errors = [] := by
    simp [exitStatus, hasErrors, PassState.errors]
  rw [hstatus, herrors, h.reached]

/-- The status of a run that returns is zero exactly if the request is ready and each source that the
pass takes leaves its artifact, and one otherwise. What is not ready is refused, and then all files
are as they were: so it is if one of the sources cannot be loaded. A request that is ready is carried
out, and a source without an artifact keeps none of the others from being written, unless the pass
is set to end there. -/
theorem generate_status {args : List Text} {n : Nat} (hargs : invocation args = .generate r)
    (hexit : (run env args).exit = .status n) :
    (n = 0 ∨ n = 1) ∧
    (n = 0 ↔ ∃ language settings p st, IsReady env r language settings p ∧
      CarriedOut p st env.tree (run env args).tree ∧
      List.Forall₂ (fun source a => p.generator.artifactOf? source = some a)
        (p.sources.take st.processed) st.artifacts) ∧
    ((∀ language settings p, ¬ IsReady env r language settings p) ↔
      ∃ c, (prepare env r).outcome = Attempt.refuse c) ∧
    ((∀ language settings p, ¬ IsReady env r language settings p) →
      n = 1 ∧ (run env args).tree = env.tree) ∧
    (∀ reference ∈ r.sources,
      (∀ sources, (Reference.load env.tree env.modules reference).outcome ≠ .ok sources) →
        n = 1 ∧ (run env args).tree = env.tree) ∧
    (∀ language settings p, IsReady env r language settings p →
      ∃ st, CarriedOut p st env.tree (run env args).tree) := by
  have hrun : run env args = generate env r := by rw [run, hargs, perform]
  rw [hrun] at hexit ⊢
  rcases generate_cases hexit with ⟨c, hrefused, rfl, htree⟩ | ⟨p, st, hprepare, hpass, hn, htree⟩
  · -- what has been refused was not ready
    have hnone (language : Text) (settings : Settings) (p : Prepared) :
        ¬ IsReady env r language settings p := fun hready => hready.not_refused c hrefused
    refine ⟨Or.inr rfl, ?_, ⟨fun _ => ⟨c, hrefused⟩, fun _ => hnone⟩, fun _ => ⟨rfl, htree⟩,
      fun _ _ _ => ⟨rfl, htree⟩, fun language settings p hready => ?_⟩
    · constructor
      · nofun
      · rintro ⟨language, settings, p, st, hready, -⟩
        exact absurd hready (hnone language settings p)
    · exact absurd hready (hnone language settings p)
  · -- what has been prepared was ready, and nothing else is
    obtain ⟨language, settings, hready⟩ := isReady_of_prepare hprepare
    have hdone : CarriedOut p st env.tree (generate env r).tree := by
      rw [htree]
      exact carriedOut hready.directed hpass
    refine ⟨?_, ?_, ?_, fun hnone => absurd hready (hnone _ _ _), ?_, ?_⟩
    · have hle := exitStatus_le_one st.diagnostics
      omega
    · rw [hn, hdone.exitStatus_eq_zero_iff]
      constructor
      · exact fun hall => ⟨language, settings, p, st, hready, hdone, hall⟩
      · rintro ⟨language', settings', p', st', hready', hdone', hall⟩
        obtain rfl := hready'.eq_of_prepare hprepare
        obtain rfl : st' = st := by
          have hsame := hdone'.returned.symm.trans hdone.returned
          exact congrArg Prod.fst hsame
        exact hall
    · constructor
      · exact fun hnone => absurd hready (hnone _ _ _)
      · rintro ⟨c, hrefused⟩
        exact absurd hrefused (hready.not_refused c)
    · intro reference hreference hunloaded
      obtain ⟨sources, hsources⟩ := hready.load_of_mem hreference
      exact absurd hsources (hunloaded sources)
    · intro language' settings' p' hready'
      rw [hready'.eq_of_prepare hprepare]
      exact ⟨st, hdone⟩

/-- The characters outside square brackets. -/
def unbracketed (inside : Bool) : List CodePoint → List CodePoint
  | [] => []
  | c :: cs =>
    if c = char '[' then unbracketed true cs
    else if c = char ']' then unbracketed false cs
    else if inside then unbracketed inside cs
    else c :: unbracketed inside cs

/-- A console without colours, which shows a message on one line. -/
def plainConsole : Console
  | .message markup => .ok [Text.ofList (unbracketed false markup.toList)]
  | .code source _ => .ok [source]
  | _ => .ok []

/-- The console shows everything. -/
theorem printAll_plainConsole (prints : List Print) : (plainConsole.printAll prints).2 = none := by
  induction prints with
  | nil => rfl
  | cons p rest ih => cases p <;> exact ih

def emptyClass : ClassDeclaration :=
  ⟨0, "Empty", some (.string "empty"), none, "app", [], [], .error⟩

def themeClass : ClassDeclaration :=
  ⟨1, "Theme", some (.string "theme"), none, "app", [],
    [("shade", .annotated (.basic .str) [.key (.string "shade") (.bool false)])], .error⟩

/-- A module with two aggregates, of which only the second one declares a field. -/
def emptyAndTheme : Environment where
  tree := []
  modules := [⟨"app", [("Empty", .declaration emptyClass), ("Theme", .declaration themeClass)]⟩]
  console := plainConsole
  room := 1000000

/-- The request to write the accessors of the module into a directory. -/
def outRequest (stopOnEmpty : Bool) : Request :=
  ⟨["app"], "python", some "out", none, none, none, none, false, false, stopOnEmpty, .normal⟩

def outArguments : List Text := ["generate", "app", "-o", "out"]

def themePath : Path := Path.ofString "out/app/theme_shared_pref.py"

def outSettings : Settings :=
  { outputDir := .string "out", languageConfig := .object [("type_hints", .bool true)] }

/-- What the request comes to. -/
def outPrepared : Prepared :=
  ⟨"python", ⟨outSettings, .python true, true, 1000000⟩,
    [.declaration emptyClass, .declaration themeClass], .directory Pass.outDirectory []⟩

theorem outPrepared_isReady :
    IsReady emptyAndTheme (outRequest false) "python" outSettings outPrepared := by
  refine ⟨by decide +kernel, rfl, by decide +kernel, by decide +kernel, ?_, rfl⟩
  exact ⟨[[.declaration emptyClass, .declaration themeClass]], .cons rfl .nil, rfl⟩

/-- The pass of the request writes what it would keep in memory: one text, behind one error. -/
theorem outPrepared_writes :
    ∃ st t, Pass.run outPrepared.generator outPrepared.sink outPrepared.sources = (st, none) ∧
      exitStatus st.diagnostics = 1 ∧ st.sink = .directory Pass.outDirectory t ∧
      t.isFile? themePath = .ok true := by
  have hidentifier : Text.isIdentifier ("SharedPref" : Text).toList = true := by decide +kernel
  have hfacts : (∀ a ∈ (Pass.run outPrepared.generator (.memory []) outPrepared.sources).1.artifacts,
      a.Fits Pass.outDirectory ∧ a.accessorClass.name.isEncodable = true ∧
        a.accessorClass.schema.HasEncodableTexts) ∧
      (Pass.run outPrepared.generator (.memory []) outPrepared.sources).2 = none ∧
      exitStatus (Pass.run outPrepared.generator (.memory [])
        outPrepared.sources).1.diagnostics = 1 ∧
      (Entries.find? (Pass.run outPrepared.generator (.memory [])
        outPrepared.sources).1.sink.files "app/theme_shared_pref.py").isSome = true := by
    decide +kernel
  obtain ⟨hartifacts, hreturns, hstatus, hstored⟩ := hfacts
  obtain ⟨st, files, t, hrun, hdiagnostics, hmemory, hsink, hfiles⟩ :=
    Pass.run_directory_eq (g := outPrepared.generator) rfl hidentifier Pass.outDirectory_isVacant
      (fun a ha => (hartifacts a ha).1) fun a ha =>
        Pass.isEncodable_of_mem_artifacts rfl ha (hartifacts a ha).2.1 (hartifacts a ha).2.2
  rw [hreturns] at hrun
  rw [hmemory] at hstored
  refine ⟨st, t, hrun, hdiagnostics ▸ hstatus, hsink, ?_⟩
  obtain ⟨text, htext⟩ := Option.isSome_iff_exists.mp hstored
  obtain ⟨bytes, hbytes⟩ := Option.isSome_iff_exists.mp (hfiles.keys _ _ htext).1
  have hdownward : Path.IsDownward ⟨"", ["app", "theme_shared_pref.py"]⟩ :=
    ⟨rfl, by decide, by decide⟩
  have hlook := (hfiles.texts _ hdownward _).mpr ⟨text, htext, hbytes⟩
  have hpath : themePath = Pass.outDirectory.join ⟨"", ["app", "theme_shared_pref.py"]⟩ := by
    decide +kernel
  have hnamed : FileTree.pathFault? themePath = none := by decide +kernel
  rw [FileTree.isFile?, FileTree.find?, hnamed, hpath, hlook]
  rfl

/-- The run fails for the first aggregate and writes the second one. -/
theorem theme_written_behind_empty :
    invocation outArguments = .generate (outRequest false) ∧
      (run emptyAndTheme outArguments).exit = .status 1 ∧
      (∃ language settings p st, IsReady emptyAndTheme (outRequest false) language settings p ∧
        CarriedOut p st emptyAndTheme.tree (run emptyAndTheme outArguments).tree) ∧
      (run emptyAndTheme outArguments).tree.isFile? themePath = .ok true := by
  have hargs : invocation outArguments = .generate (outRequest false) := by decide +kernel
  have hready := outPrepared_isReady
  have hwarned : (warnAbout outSettings "python").outcome = .ok () := rfl
  have hprepare : (prepare emptyAndTheme (outRequest false)).outcome = .ok outPrepared := by
    rw [hready.prepare_outcome, hwarned]
    rfl
  obtain ⟨st, t, hpass, hstatus, hsink, hfile⟩ := outPrepared_writes
  obtain ⟨hexit, htree⟩ := run_of_pass hargs hprepare hpass printAll_plainConsole
  rw [hstatus] at hexit
  rw [hsink] at htree
  obtain ⟨-, -, -, -, -, hcarried⟩ := generate_status hargs hexit
  obtain ⟨st', hdone⟩ := hcarried _ _ _ hready
  refine ⟨hargs, hexit, ⟨_, _, _, st', hready, hdone⟩, ?_⟩
  rw [htree]
  exact hfile

/-- Set to end at an aggregate without fields, the run does not write the second one, though that
comes to an artifact. -/
theorem theme_withheld_behind_empty :
    invocation (outArguments ++ (["--stop-on-empty"] : List Text)) = .generate (outRequest true) ∧
      (run emptyAndTheme (outArguments ++ (["--stop-on-empty"] : List Text))).exit = .status 1 ∧
      (run emptyAndTheme (outArguments ++ (["--stop-on-empty"] : List Text))).tree.isFile? themePath =
        .ok false ∧
      ∃ p, (prepare emptyAndTheme (outRequest true)).outcome = .ok p ∧
        (∃ source ∈ p.sources, (p.generator.artifactOf? source).isSome) ∧
        (Pass.run p.generator p.sink p.sources).1.artifacts = [] := by
  have hrun : (run emptyAndTheme (outArguments ++ (["--stop-on-empty"] : List Text))).exit = .status 1 ∧
      (run emptyAndTheme (outArguments ++ (["--stop-on-empty"] : List Text))).tree.isFile? themePath =
        .ok false := by decide +kernel
  have hfacts : (match (prepare emptyAndTheme (outRequest true)).outcome with
      | .ok p => decide ((∃ source ∈ p.sources, (p.generator.artifactOf? source).isSome) ∧
          (Pass.run p.generator p.sink p.sources).1.artifacts = [])
      | .error _ => false) = true := by decide +kernel
  refine ⟨by decide +kernel, hrun.1, hrun.2, ?_⟩
  cases h : (prepare emptyAndTheme (outRequest true)).outcome with
  | error e =>
    rw [h] at hfacts
    cases hfacts
  | ok p =>
    rw [h] at hfacts
    exact ⟨p, rfl, of_decide_eq_true hfacts⟩

end CommandLine

end PrefAccessor
