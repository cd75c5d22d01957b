import PrefAccessor.Proofs.EncodedText
import PrefAccessor.Proofs.LastText
import PrefAccessor.Proofs.MirroredDirectory

/-!
# Sinks for files and sinks in memory

A pass that writes to an empty directory and one that writes into memory do the same, and the files
are the texts in memory: `run_directory_eq_memory`. No artifact is in the way of another one, since
the packages of all of them give directories without dots and their files have an extension. Only a
text without an encoded form sets the two apart: memory takes it, and a file does not.
-/

namespace PrefAccessor

set_option autoImplicit false

open FileTree Text

/-- The system takes the path of the artifact below `root`: its package has neither slashes nor NUL
characters, the components are names as a directory lists them, and neither they nor the path are too
long. -/
structure Artifact.Fits (root : Path) (a : Artifact) : Prop where
  no_slash : char '/' ∉ a.package.toList
  no_nul : char '\x00' ∉ a.package.toList
  listed : ∀ c ∈ a.path.parts, c.fileName? = some c
  components : ∀ c ∈ a.path.parts, c.nameSize ≤ maxNameBytes
  path : isTooLong (root.join a.path) = false

instance (root : Path) (a : Artifact) : Decidable (a.Fits root) :=
  decidable_of_iff (char '/' ∉ a.package.toList ∧ char '\x00' ∉ a.package.toList ∧
      (∀ c ∈ a.path.parts, c.fileName? = some c) ∧
      (∀ c ∈ a.path.parts, c.nameSize ≤ maxNameBytes) ∧ isTooLong (root.join a.path) = false)
    ⟨fun ⟨hslash, hnul, hlisted, hcomponents, hpath⟩ => ⟨hslash, hnul, hlisted, hcomponents, hpath⟩,
      fun h => ⟨h.no_slash, h.no_nul, h.listed, h.components, h.path⟩⟩

/-- One pass writes into memory and another one below `root`, and they have done the same so far,
all of it with texts that have an encoded form. -/
structure PassState.Agrees (root : Path) (st st' : PassState) : Prop where
  encodable : ∀ a ∈ st.artifacts, a.source.isEncodable = true
  processed : st'.processed = st.processed
  artifacts : st'.artifacts = st.artifacts
  diagnostics : st'.diagnostics = st.diagnostics
  sinks : ∃ files t, st.sink = .memory files ∧ st'.sink = .directory root t ∧ t.Holds root files

theorem PassState.Agrees.metadata_eq {root : Path} {st st' : PassState} (h : st.Agrees root st')
    (g : Generator) : Pass.metadata g st' = Pass.metadata g st := by
  have hcount (st : PassState) : st.delivered.length = st.artifacts.length :=
    List.length_map _ |>.symm
  rw [Pass.metadata, Pass.metadata, h.processed, h.artifacts, PassState.errors, PassState.errors,
    h.diagnostics, hcount, hcount, h.artifacts]

section

variable {g : Generator} {suffix : Text} (hsuffix : g.settings.classSuffix = .string suffix)
  (hidentifier : isIdentifier suffix.toList = true) {root : Path}

include hsuffix hidentifier

/-- What the path of an artifact consists of, if it fits. -/
theorem Generator.generate_fits {s : Schema} {a : Artifact} (h : g.generate s = .ok a)
    (hfits : a.Fits root) (hroot : pathFault? root = none) :
    ∃ cs f, a.path = ⟨"", cs ++ [f]⟩ ∧ AreSegments cs ∧ IsFileName f ∧
      pathFault? (root.descend (cs ++ [f])) = none ∧
        isTooLong (root.descend (cs ++ [f])) = false := by
  have hword : ∀ c ∈ (g.className s).toList, isIdentifierChar c = true :=
    fun c hc => isIdentifierChar_of_mem_className hsuffix hidentifier hc
  have hslash : char '/' ∉ (g.className s).toList := fun hmem => absurd (hword _ hmem) (by decide)
  have hpath := generate_path h
  rw [pathOf_eq hfits.no_slash hslash] at hpath
  have hlisted := hfits.listed
  have hshort := hfits.components
  rw [hpath] at hlisted hshort
  have hfileNul : char '\x00' ∉ (g.target.fileName (g.className s)).toList := fun hmem =>
    absurd (hword _ (g.target.mem_fileName (by decide) (by decide) hmem)) (by decide)
  refine ⟨packageSegments a.package, g.target.fileName (g.className s), hpath, ?_, ?_, ?_, ?_⟩
  · intro c hc
    have hpart := List.mem_append_left [g.target.fileName (g.className s)] hc
    obtain ⟨hne, hdot⟩ := mem_packageSegments hc
    exact ⟨hlisted c hpart, hne,
      fun hmem => hfits.no_slash (subset_of_mem_packageSegments hc hmem), hdot, hshort c hpart⟩
  · have hpart := List.mem_append_right (packageSegments a.package)
      (List.mem_singleton_self (g.target.fileName (g.className s)))
    exact ⟨hlisted _ hpart, g.target.fileName_ne _ (by simp), g.target.fileName_ne _ (by simp),
      g.target.fileName_no_slash hslash, g.target.dot_mem_fileName _, hshort _ hpart⟩
  · rw [pathFault?_eq_none, Path.isNamed, Path.hasNul] at hroot ⊢
    refine ⟨?_, ?_⟩
    · rw [Path.descend, List.all_append, hroot.1, Bool.true_and, List.all_eq_true]
      intro c hc
      rw [hlisted c hc, Option.isSome_some]
    · simp only [Path.descend, List.any_append, hroot.2, Bool.false_or, List.any_cons, List.any_nil,
        Bool.or_false, Bool.or_eq_false_iff, List.any_eq_false, List.contains_iff_mem]
      exact ⟨fun c hc hmem => hfits.no_nul (subset_of_mem_packageSegments hc hmem),
        by simpa using hfileNul⟩
  · have hlong := hfits.path
    rwa [hpath] at hlong

namespace Pass

/-- One source: it adds nothing to either pass, or an artifact, which can be saved if its text has an
encoded form. -/
theorem agrees_add {st st' : PassState} (h : st.Agrees root st') (hroot : pathFault? root = none)
    {source : Source}
    (hfits : ∀ a ∈ (st.add (contribute g st.sink source)).artifacts, a.Fits root) :
    (st.add (contribute g st.sink source)).Agrees root
          (st'.add (contribute g st'.sink source)) ∧
        (contribute g st'.sink source).ending = (contribute g st.sink source).ending ∨
      (∃ a ∈ (st.add (contribute g st.sink source)).artifacts, a.source.isEncodable = false) ∧
        (contribute g st'.sink source).ending = .fault .unencodable := by
  obtain ⟨files, t, hmemory, hdirectory, hholds⟩ := h.sinks
  have hprocessed : st'.processed + 1 = st.processed + 1 := by rw [h.processed]
  cases hartifact : g.artifactOf? source with
  | none =>
    obtain ⟨events, ending, hnone, -⟩ := contribute_withholds hartifact
    rw [hnone, hnone]
    refine Or.inl ⟨⟨?_, hprocessed, ?_, ?_, ⟨files, t, hmemory, hdirectory, hholds⟩⟩, rfl⟩
    · rw [PassState.artifacts_add]
      simpa using h.encodable
    · rw [PassState.artifacts_add, PassState.artifacts_add, h.artifacts]
    · rw [PassState.diagnostics_add, PassState.diagnostics_add, h.diagnostics]
      rfl
  | some a =>
    obtain ⟨before, -, hdeliver⟩ := contribute_delivers hartifact
    obtain ⟨s, hgen⟩ := Generator.generate_of_artifactOf? hartifact
    have hkept : contribute g st.sink source = ⟨some ⟨a, some a.path.toString⟩,
        before ++ [] ++ [generatedNote a], .memory (Entries.put files a.path.toString a.source),
        .finished⟩ := by
      rw [hdeliver, hmemory]
      rfl
    rw [hkept] at hfits ⊢
    have ha : a.Fits root := hfits a (by simp [PassState.artifacts_add])
    obtain ⟨cs, f, hpath, hcs, hf, hfault, hlong⟩ :=
      Generator.generate_fits hsuffix hidentifier hgen ha hroot
    have htarget : root.join a.path = root.descend (cs ++ [f]) := by
      rw [hpath]
      rfl
    cases hencodable : a.source.isEncodable with
    | false =>
      obtain ⟨t₁, base, -, -, hsave⟩ := hholds.save_eq hcs hf hfault hlong a.source
      rw [hencodable, if_neg Bool.false_ne_true] at hsave
      refine Or.inr ⟨⟨a, by simp [PassState.artifacts_add], hencodable⟩, ?_⟩
      rw [hdeliver, hdirectory, deliver, Sink.write, htarget]
      simp only [hsave]
    | true =>
      obtain ⟨t', hsave, hholds'⟩ := hholds.save hcs hf hfault hlong hencodable
      have hwritten : contribute g st'.sink source =
          ⟨some ⟨a, some (root.join a.path).toString⟩,
            before ++ [Event.info ("Wrote " ++ (root.join a.path).toString)] ++ [generatedNote a],
            .directory root t', .finished⟩ := by
        rw [hdeliver, hdirectory, deliver, Sink.write, htarget]
        simp only [hsave]
        rfl
      rw [hwritten]
      refine Or.inl ⟨⟨?_, hprocessed, ?_, ?_, ⟨_, t', rfl, rfl, by rwa [hpath]⟩⟩, rfl⟩
      · rw [PassState.artifacts_add]
        exact List.forall_mem_append.mpr ⟨h.encodable, by simpa using hencodable⟩
      · rw [PassState.artifacts_add, PassState.artifacts_add, h.artifacts]
        rfl
      · rw [PassState.diagnostics_add, PassState.diagnostics_add, h.diagnostics]
        simp only [Contribution.diagnostics, diagnosticsOf_append]
        rfl

/-- By induction on the sources, both passes do the same with all of them, up to the first artifact
whose text has no encoded form. -/
theorem agrees_runFrom {st st' : PassState} (h : st.Agrees root st')
    (hroot : pathFault? root = none) {sources : List Source}
    (hfits : ∀ a ∈ (runFrom g st sources).1.artifacts, a.Fits root) :
    (runFrom g st sources).1.Agrees root (runFrom g st' sources).1 ∧
        (runFrom g st' sources).2 = (runFrom g st sources).2 ∨
      (∃ a ∈ (runFrom g st sources).1.artifacts, a.source.isEncodable = false) ∧
        (runFrom g st' sources).2 = some .unencodable := by
  induction sources generalizing st st' with
  | nil => exact Or.inl ⟨h, rfl⟩
  | cons source rest ih =>
    have hkept : ∀ a ∈ (st.add (contribute g st.sink source)).artifacts,
        a ∈ (runFrom g st (source :: rest)).1.artifacts := by
      intro a ha
      rw [runFrom]
      split
      · exact mem_artifacts_runFrom ha
      · split
        · exact ha
        · exact mem_artifacts_runFrom ha
      · exact ha
    rcases agrees_add hsuffix hidentifier h hroot fun a ha => hfits a (hkept a ha) with
      ⟨hagrees, hending⟩ | ⟨⟨a, ha, hbroken⟩, hending⟩
    · rw [runFrom] at hfits
      rw [runFrom, runFrom, hending]
      cases hend : (contribute g st.sink source).ending with
      | finished =>
        simp only [hend] at hfits ⊢
        exact ih hagrees hfits
      | empty =>
        simp only [hend] at hfits ⊢
        split
        · refine Or.inl ⟨⟨hagrees.encodable, hagrees.processed, hagrees.artifacts, ?_,
            hagrees.sinks⟩, rfl⟩
          rw [PassState.diagnostics_report, PassState.diagnostics_report, hagrees.diagnostics]
        · rename_i hcontinues
          rw [if_neg hcontinues] at hfits
          exact ih hagrees hfits
      | fault k => exact Or.inl ⟨hagrees, rfl⟩
    · refine Or.inr ⟨⟨a, hkept a ha, hbroken⟩, ?_⟩
      rw [runFrom, hending]

theorem agrees_run {t : FileTree} (hroot : t.IsVacant root) {sources : List Source}
    (hfits : ∀ a ∈ (run g (.memory []) sources).1.artifacts, a.Fits root) :
    (run g (.memory []) sources).1.Agrees root (run g (.directory root t) sources).1 ∧
        (run g (.directory root t) sources).2 = (run g (.memory []) sources).2 ∨
      (∃ a ∈ (run g (.memory []) sources).1.artifacts, a.source.isEncodable = false) ∧
        (run g (.directory root t) sources).2 = some .unencodable := by
  have hinitial : (PassState.initial (.memory [])).Agrees root
      (PassState.initial (.directory root t)) :=
    ⟨fun a ha => absurd ha List.not_mem_nil, rfl, rfl, rfl, [], t, rfl, rfl, hroot.holds⟩
  exact agrees_runFrom hsuffix hidentifier hinitial hroot.1 hfits

/-- With encoded forms for all its texts a pass to files ends as one to memory, by a fault or not. -/
theorem run_directory_eq {t : FileTree} (hroot : t.IsVacant root) {sources : List Source}
    (hfits : ∀ a ∈ (run g (.memory []) sources).1.artifacts, a.Fits root)
    (hencodable : ∀ a ∈ (run g (.memory []) sources).1.artifacts, a.source.isEncodable = true) :
    ∃ st files t', run g (.directory root t) sources = (st, (run g (.memory []) sources).2) ∧
      st.diagnostics = (run g (.memory []) sources).1.diagnostics ∧
      (run g (.memory []) sources).1.sink = .memory files ∧ st.sink = .directory root t' ∧
      t'.HasFiles root files := by
  rcases agrees_run hsuffix hidentifier hroot hfits with ⟨hagrees, hfault⟩ | ⟨⟨a, ha, hbroken⟩, -⟩
  · obtain ⟨files, t', hmemory, hdirectory, hholds⟩ := hagrees.sinks
    exact ⟨_, files, t', Prod.ext rfl hfault, hagrees.diagnostics, hmemory, hdirectory,
      hholds.hasFiles⟩
  · rw [hencodable a ha] at hbroken
    cases hbroken

/-- A pass that writes to a directory with nothing in it, be it there or still to be made, returns if
the same pass returns that writes into memory and all its texts have an encoded form. Then it delivers
the same artifacts with the same diagnostics and counts, and the files in the directory are the texts
in memory. -/
theorem run_directory_eq_memory {t : FileTree} (hroot : t.IsVacant root) {sources : List Source}
    (hfits : ∀ a ∈ (run g (.memory []) sources).1.artifacts, a.Fits root) :
    ((run g (.directory root t) sources).2 = none ↔
      (run g (.memory []) sources).2 = none ∧
        ∀ a ∈ (run g (.memory []) sources).1.artifacts, a.source.isEncodable = true) ∧
    ((run g (.directory root t) sources).2 = none →
      (run g (.directory root t) sources).1.artifacts =
        (run g (.memory []) sources).1.artifacts ∧
      (run g (.directory root t) sources).1.diagnostics =
        (run g (.memory []) sources).1.diagnostics ∧
      metadata g (run g (.directory root t) sources).1 =
        metadata g (run g (.memory []) sources).1 ∧
      ∃ files t', (run g (.memory []) sources).1.sink = .memory files ∧
        (run g (.directory root t) sources).1.sink = .directory root t' ∧
          t'.HasFiles root files) := by
  rcases agrees_run hsuffix hidentifier hroot hfits with
    ⟨hagrees, hfault⟩ | ⟨⟨a, ha, hbroken⟩, hfault⟩
  · refine ⟨?_, fun _ => ?_⟩
    · rw [hfault]
      exact ⟨fun hnone => ⟨hnone, hagrees.encodable⟩, And.left⟩
    · obtain ⟨files, t', hmemory, hdirectory, hholds⟩ := hagrees.sinks
      exact ⟨hagrees.artifacts, hagrees.diagnostics, hagrees.metadata_eq g, files, t',
        hmemory, hdirectory, hholds.hasFiles⟩
  · have hstops : (run g (.directory root t) sources).2 ≠ none := by
      rw [hfault]
      exact Option.some_ne_none _
    refine ⟨⟨fun hnone => absurd hnone hstops, fun hall => ?_⟩, fun hnone => absurd hnone hstops⟩
    rw [hall.2 a ha] at hbroken
    cases hbroken

end Pass

end

namespace Pass

/-- A text in Python has an encoded form if the name of its class and the texts of its schema have. -/
theorem isEncodable_of_mem_artifacts {g : Generator} {sink : Sink} {sources : List Source}
    {a : Artifact} (hpython : g.target = .python) (ha : a ∈ (run g sink sources).1.artifacts)
    (hname : a.accessorClass.name.isEncodable = true)
    (hs : a.accessorClass.schema.HasEncodableTexts) : a.source.isEncodable = true := by
  obtain ⟨s, hgen⟩ := (generate_of_mem_artifacts ha).resolve_left List.not_mem_nil
  obtain ⟨-, -, rfl, -⟩ := Generator.accessorClass_eq_ok.mp (Generator.generate_eq_ok hgen).1
  exact Generator.isEncodable_source hpython hs hgen hname

/-- The same aggregate in a package and in one inside it. -/
def nestedThemes : List Source :=
  (["app", "app.ui"] : List Text).map fun package => .document (.object [("name", .string "Theme"),
    ("package", .string package), ("fields", .array [.object [("key", .string "theme")]])])

/-- A directory in the working directory. -/
def outDirectory : Path := ⟨"", ["out"]⟩

theorem outDirectory_isVacant : FileTree.IsVacant [] outDirectory := by
  refine ⟨rfl, Or.inr ⟨rfl, [(["out"], .directory)], rfl, ["out"], rfl, rfl, ?_⟩⟩
  intro cs hne hplain
  have hbase : isBase ([.plain "out"] ++ cs) = false := isBase_append hplain hne
  unfold entry?
  rw [hbase]
  simp [Entries.find?, Ne.symm hne]

/-- The file of the inner package lies in a directory beside the file of the outer one. -/
theorem nestedThemes_written :
    Generator.standard.settings.classSuffix = .string "SharedPref" ∧
      isIdentifier ("SharedPref" : Text).toList = true ∧ FileTree.IsVacant [] outDirectory ∧
      (∀ a ∈ (run .standard (.memory []) nestedThemes).1.artifacts, a.Fits outDirectory) ∧
      (run .standard (.directory outDirectory []) nestedThemes).2 = none ∧
      (run .standard (.directory outDirectory []) nestedThemes).1.artifacts.length = 2 ∧
      ∃ t', (run .standard (.directory outDirectory []) nestedThemes).1.sink =
          .directory outDirectory t' ∧
        ∃ text, t'.lookUp ⟨"", ["out", "app", "ui", "theme_shared_pref.py"]⟩ =
          .ok (.file text) := by
  have hidentifier : isIdentifier ("SharedPref" : Text).toList = true := by decide +kernel
  have hfits : ∀ a ∈ (run .standard (.memory []) nestedThemes).1.artifacts,
      a.Fits outDirectory := by decide +kernel
  have hreturns : (run .standard (.memory []) nestedThemes).2 = none := by decide +kernel
  have htexts : ∀ a ∈ (run .standard (.memory []) nestedThemes).1.artifacts,
      a.accessorClass.name.isEncodable = true ∧ a.accessorClass.schema.HasEncodableTexts := by
    decide +kernel
  have hencodable : ∀ a ∈ (run .standard (.memory []) nestedThemes).1.artifacts,
      a.source.isEncodable = true := fun a ha =>
    isEncodable_of_mem_artifacts rfl ha (htexts a ha).1 (htexts a ha).2
  have hlength : (run .standard (.memory []) nestedThemes).1.artifacts.length = 2 := by
    decide +kernel
  have hstored : (Entries.find? (run .standard (.memory []) nestedThemes).1.sink.files
      "app/ui/theme_shared_pref.py").isSome = true := by decide +kernel
  have hdownward :
      Path.IsDownward ⟨"", ["app", "ui", "theme_shared_pref.py"]⟩ :=
    ⟨rfl, by decide, by decide⟩
  obtain ⟨hiff, hsame⟩ :=
    run_directory_eq_memory rfl hidentifier outDirectory_isVacant hfits
  have hwritten := hiff.mpr ⟨hreturns, hencodable⟩
  obtain ⟨hartifacts, -, -, files, t', hmemory, hdirectory, hfiles⟩ := hsame hwritten
  obtain ⟨text, htext⟩ := Option.isSome_iff_exists.mp hstored
  rw [hmemory] at htext
  obtain ⟨bytes, hbytes⟩ := Option.isSome_iff_exists.mp (hfiles.keys _ _ htext).1
  refine ⟨rfl, hidentifier, outDirectory_isVacant, hfits, hwritten, ?_, t', hdirectory, bytes, ?_⟩
  · rw [hartifacts, hlength]
  · exact (hfiles.texts _ hdownward _).mpr ⟨text, htext, hbytes⟩

/-- A file in the working directory. -/
def fileTree : FileTree := [(["a"], .file .empty)]

/-- A directory that is not there and cannot be made keeps the artifact of a source from being
delivered. -/
theorem directory_below_file_refused :
    Generator.standard.settings.classSuffix = .string "SharedPref" ∧
      isIdentifier ("SharedPref" : Text).toList = true ∧
      FileTree.exists? fileTree ⟨"", ["a", "out"]⟩ = .ok false ∧
      (∀ a ∈ (run .standard (.memory []) [.document themeDocument]).1.artifacts,
        a.Fits ⟨"", ["a", "out"]⟩) ∧
      (run .standard (.memory []) [.document themeDocument]).2 = none ∧
      (run .standard (.directory ⟨"", ["a", "out"]⟩ fileTree) [.document themeDocument]).2 = none ∧
      (run .standard (.memory []) [.document themeDocument]).1.artifacts.length = 1 ∧
      (run .standard (.directory ⟨"", ["a", "out"]⟩ fileTree)
        [.document themeDocument]).1.artifacts = [] := by
  decide +kernel

end Pass

end PrefAccessor
