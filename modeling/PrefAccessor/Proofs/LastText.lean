import PrefAccessor.Proofs.MethodText
import PrefAccessor.Proofs.PassFault

/-!
# The text that stays under a path

A sink in memory holds one text for each path, and two aggregates may lead to the same one: names
that differ only in what the naming rules drop, or the same name twice. Then the later text replaces
the earlier one, as `run_keeps_last` says, and nothing is reported.
-/

namespace PrefAccessor

set_option autoImplicit false

/-- What a pass has put into memory: the texts of its artifacts, over what was there before. -/
def PassState.Holds (st : PassState) (files : Entries Text Text) : Prop :=
  st.sink = .memory (Entries.merge files (st.artifacts.map Artifact.entry))

namespace PassState

theorem holds_initial (files : Entries Text Text) : (initial (.memory files)).Holds files := rfl

theorem Holds.report {st : PassState} {files : Entries Text Text} (e : Event)
    (h : st.Holds files) : (st.report e).Holds files := h

/-- One more contribution puts its text over those of all before it. -/
theorem Holds.add {st : PassState} {files : Entries Text Text} (h : st.Holds files)
    (g : Generator) (source : Source) :
    (st.add (Pass.contribute g st.sink source)).Holds files := by
  have hmemory : st.sink.usesFiles = false := by
    rw [h]
    rfl
  rw [Pass.contribute_eq_under g hmemory, add_under]
  unfold Holds at h ⊢
  rw [artifacts_extend]
  simp only [extend, h, Sink.extend, List.flatMap_singleton, List.map_append, List.map_map,
    Entries.merge_append]
  rfl

theorem Holds.runFrom {g : Generator} {st : PassState} {files : Entries Text Text}
    (h : st.Holds files) (sources : List Source) : (Pass.runFrom g st sources).1.Holds files := by
  have hadd (st : PassState) (source : Source) (hst : st.Holds files) :
      (st.add (Pass.contribute g st.sink source)).Holds files := hst.add g source
  exact Pass.runFrom_invariant hadd (fun _ => Holds.report Pass.skippingNote) h sources

/-- Under a path memory holds the text of the last artifact that has this path. -/
theorem Holds.find? {st : PassState} {files : Entries Text Text} (h : st.Holds files)
    (path : Text) :
    Entries.find? st.sink.files path =
      ((st.artifacts.reverse.find? fun a => decide (a.path.toString = path)).map
        Artifact.source).or (Entries.find? files path) := by
  have hfiles : st.sink.files = Entries.merge files (st.artifacts.map Artifact.entry) := by
    rw [h]
    rfl
  rw [hfiles, Entries.find?_merge, ← List.map_reverse, Entries.find?_map]
  rfl

end PassState

namespace Pass

open Generator

/-- When a pass into memory ends, the path of each artifact leads to its own text, or else to that of
a later artifact with the same path: the last one there is. -/
theorem run_keeps_last (g : Generator) (files : Entries Text Text) (sources : List Source)
    {before after : List Artifact} {a : Artifact}
    (ha : (run g (.memory files) sources).1.artifacts = before ++ a :: after) :
    ((∀ b ∈ after, b.path.toString ≠ a.path.toString) ∧
      Entries.find? (run g (.memory files) sources).1.sink.files a.path.toString = some a.source) ∨
    ∃ between b rest, after = between ++ b :: rest ∧ b.path.toString = a.path.toString ∧
      (∀ c ∈ rest, c.path.toString ≠ a.path.toString) ∧
      Entries.find? (run g (.memory files) sources).1.sink.files a.path.toString =
        some b.source := by
  have hholds : (run g (.memory files) sources).1.Holds files :=
    (PassState.holds_initial files).runFrom sources
  rw [hholds.find?, ha, List.reverse_append, List.reverse_cons, List.append_assoc,
    List.find?_append]
  cases hlater : after.reverse.find? fun b => decide (b.path.toString = a.path.toString) with
  | none =>
    refine Or.inl ⟨fun b hb => ?_, by simp⟩
    simpa using List.find?_eq_none.mp hlater b (List.mem_reverse.mpr hb)
  | some b =>
    obtain ⟨hb, rest, between, hsplit, hrest⟩ := List.find?_eq_some_iff_append.mp hlater
    refine Or.inr ⟨between.reverse, b, rest.reverse, ?_, by simpa using hb, fun c hc => ?_, by simp⟩
    · rw [← List.reverse_reverse after, hsplit]
      simp
    · simpa using hrest c (List.mem_reverse.mp hc)

/-- A document for another aggregate, whose class has the name of the first one's. -/
def smallThemeDocument : Json :=
  .object [("name", .string "theme"), ("fields", .array [.object [("key", .string "shade")]])]

theorem generate_of_delivered {g : Generator} {sink : Sink} {source : Source} {d : Delivered}
    (h : (contribute g sink source).delivered = some d) : ∃ s, g.generate s = .ok d.artifact := by
  cases ha : g.artifactOf? source with
  | none =>
    obtain ⟨events, ending, hnone, -⟩ := contribute_withholds ha
    rw [hnone] at h
    cases h
  | some a =>
    obtain ⟨before, -, hdeliver⟩ := contribute_delivers ha
    rw [hdeliver, deliver] at h
    split at h
    · cases h
      exact generate_of_artifactOf? ha
    · cases h
    · cases h

/-- Nothing is delivered that has not been generated from a schema. -/
theorem generate_of_mem_artifacts {g : Generator} {st : PassState} {sources : List Source}
    {a : Artifact} (h : a ∈ (runFrom g st sources).1.artifacts) :
    a ∈ st.artifacts ∨ ∃ s, g.generate s = .ok a := by
  let P (st' : PassState) : Prop :=
    a ∈ st'.artifacts → a ∈ st.artifacts ∨ ∃ s, g.generate s = .ok a
  have hadd (st' : PassState) (source : Source) (hst' : P st') :
      P (st'.add (contribute g st'.sink source)) := by
    intro hmem
    rw [PassState.artifacts_add, List.mem_append, List.mem_map] at hmem
    simp only [Option.mem_toList] at hmem
    rcases hmem with hmem | ⟨d, hd, rfl⟩
    · exact hst' hmem
    · exact Or.inr (generate_of_delivered hd)
  exact runFrom_invariant hadd (fun _ hst' => hst') (show P st from Or.inl) sources h

/-- What has been delivered stays so. -/
theorem mem_artifacts_runFrom {g : Generator} {st : PassState} {sources : List Source}
    {a : Artifact} (h : a ∈ st.artifacts) : a ∈ (runFrom g st sources).1.artifacts := by
  have hadd (st : PassState) (source : Source) (hst : a ∈ st.artifacts) :
      a ∈ (st.add (contribute g st.sink source)).artifacts := by
    rw [PassState.artifacts_add]
    exact List.mem_append_left _ hst
  exact runFrom_invariant hadd (fun _ hst => hst) h sources

/-- A pass over two aggregates whose classes have one name. -/
def twoThemes : PassState × Option Fault :=
  run .standard (.memory []) [.document themeDocument, .document smallThemeDocument]

theorem twoThemes_artifacts :
    ∃ a b, twoThemes.1.artifacts = [a, b] ∧ b.path.toString = a.path.toString := by
  have hpaths : twoThemes.1.artifacts.map (fun a => a.path.toString) =
      (["theme_shared_pref.py", "theme_shared_pref.py"] : List Text) := by decide +kernel
  have hlength : twoThemes.1.artifacts.length = 2 := by
    rw [← List.length_map, hpaths]
    rfl
  obtain ⟨a, b, hab⟩ := List.length_eq_two.mp hlength
  rw [hab] at hpaths
  refine ⟨a, b, hab, ?_⟩
  rw [List.map_cons, List.map_singleton, List.cons.injEq, List.cons.injEq] at hpaths
  exact hpaths.2.1.trans hpaths.1.symm

theorem twoThemes_methods :
    twoThemes.1.artifacts.map (fun a =>
      a.accessorClass.methods.flatMap (standard.profile.methodText "    ")) = ([
        ["", "    def getTheme(self) -> str | None:",
          "        return self._store.get_string(\"theme\", \"\")",
          "", "    def setTheme(self, value: str | None) -> None:",
          "        self._store.edit().put_string(\"theme\", value).apply()"],
        ["", "    def getShade(self) -> str | None:",
          "        return self._store.get_string(\"shade\", \"\")",
          "", "    def setShade(self, value: str | None) -> None:",
          "        self._store.edit().put_string(\"shade\", value).apply()"]] : List (List Text)) := by
  decide +kernel

theorem twoThemes_unreported :
    twoThemes.2 = none ∧ twoThemes.1.warnings = [] ∧ twoThemes.1.errors = [] := by
  decide +kernel

/-- A generated text ends with the methods of its class. -/
theorem twoThemes_ends {a : Artifact} (h : a ∈ twoThemes.1.artifacts) :
    ∃ before, (a.source.toList.splitOn (char '\n')).map Text.ofList = before ++
      (a.accessorClass.methods.flatMap (standard.profile.methodText "    ") ++ []) ++
        ([""] : List Text) := by
  obtain ⟨s, hs⟩ := (generate_of_mem_artifacts h).resolve_left List.not_mem_nil
  obtain ⟨hc, -⟩ := generate_eq_ok hs
  obtain ⟨-, hms, -⟩ := accessorClass_eq_ok.mp hc
  obtain ⟨indent, package, lines, hindent, -, hlines, hsource, -⟩ := generate_text hs
  have hfour : standard.indent = .ok "    " := by decide
  obtain rfl : indent = "    " := Except.ok.inj (hindent.symm.trans hfour)
  rw [hsource]
  exact sourceOf_ends hlines (Settings.feedless_indent hindent) fun m hm => hasWordNames hms hm

/-- Of two aggregates with one class name the first one's text is lost, and no warning or error says
so. -/
theorem theme_text_lost_unreported :
    twoThemes.2 = none ∧ twoThemes.1.warnings = [] ∧ twoThemes.1.errors = [] ∧
      ∃ a ∈ twoThemes.1.artifacts,
        Entries.find? twoThemes.1.sink.files a.path.toString ≠ some a.source := by
  obtain ⟨hending, hwarnings, herrors⟩ := twoThemes_unreported
  refine ⟨hending, hwarnings, herrors, ?_⟩
  obtain ⟨a, b, hab, hpath⟩ := twoThemes_artifacts
  refine ⟨a, by simp [hab], ?_⟩
  have hholds : twoThemes.1.Holds [] := (PassState.holds_initial []).runFrom _
  have hkept : Entries.find? twoThemes.1.sink.files a.path.toString = some b.source := by
    rw [hholds.find?, hab]
    simp [hpath]
  rw [hkept]
  intro hsource
  obtain ⟨before, ha⟩ := twoThemes_ends (a := a) (by simp [hab])
  obtain ⟨before', hb⟩ := twoThemes_ends (a := b) (by simp [hab])
  have hmethods := twoThemes_methods
  rw [hab, List.map_cons, List.map_singleton, List.cons.injEq, List.cons.injEq] at hmethods
  obtain ⟨hma, hmb, -⟩ := hmethods
  rw [Option.some.inj hsource, ha, hma, hmb] at hb
  have hlines := (List.append_inj' (List.append_inj' hb rfl).1 rfl).2
  revert hlines
  decide

theorem theme_text_replaced :
    ∃ a b, twoThemes.1.artifacts = [] ++ a :: [b] ∧
      Entries.find? twoThemes.1.sink.files a.path.toString = some b.source := by
  obtain ⟨a, b, hab, hpath⟩ := twoThemes_artifacts
  have hsplit : twoThemes.1.artifacts = [] ++ a :: [b] := hab
  refine ⟨a, b, hsplit, ?_⟩
  rcases run_keeps_last .standard [] _ hsplit with ⟨hlast, -⟩ | ⟨between, c, rest, hrest, -, -, hkept⟩
  · exact absurd hpath (hlast b (List.mem_singleton_self b))
  · have hc : c = b := List.mem_singleton.mp (hrest ▸ by simp)
    rw [← hc]
    exact hkept

end Pass

end PrefAccessor
