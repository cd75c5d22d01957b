import Mathlib.Data.List.Basic
import PrefAccessor.Settings.Layer
import PrefAccessor.Proofs.ObjectNames

/-!
# Precedence of layers

A setting of the generator has the value of the highest layer that gives one. For what is particular
to a language there are two spellings, a member of its own and a member of the nested object. Nested
objects are merged layer by layer, but the members of their own are put over them only at the end, so
one of these in a file wins over a nested one of the overrides. This is the only departure from the
order of the layers, and no name that a layer gives is lost.
-/

namespace PrefAccessor

set_option autoImplicit false

theorem Entries.find?_filter {β : Type} (p : Text → Bool) (m : Entries Text β) (k : Text) :
    find? (m.filter fun e => p e.1) k = if p k then find? m k else none := by
  induction m with
  | nil => simp [find?]
  | cons e m ih =>
    obtain ⟨j, v⟩ := e
    by_cases hj : j = k
    · subst hj
      by_cases hp : p j = true
      · simp [find?, hp]
      · simp [ih, hp]
    · by_cases hp : p j = true
      · simp [find?, hp, hj, ih]
      · simp [find?, hp, hj, ih]

namespace Settings

open Entries

/-- What a layer gives under a name that is no setting's. -/
def outer? (layer : Entries Text Json) (k : Text) : Option Json :=
  if k ∈ names then none else find? layer k

/-- What a layer gives inside the object for the language. -/
def nested? (layer : Entries Text Json) (k : Text) : Option Json :=
  match find? layer languageConfigName with
  | some (.object members) => find? members k
  | _ => none

/-- What one layer gives for a setting of the language. Its outer spelling counts first. -/
def given? (layer : Entries Text Json) (k : Text) : Option Json :=
  (outer? layer k).or (nested? layer k)

/-- If a layer has something for the language, then as an object. -/
def NestsObject (layer : Entries Text Json) : Prop :=
  ∀ v, find? layer languageConfigName = some v → ∃ members, v = .object members

/-- The outer spelling of a lower layer stands where the higher one has only the nested spelling. -/
def Overtakes (lower higher : Entries Text Json) (k : Text) : Prop :=
  outer? higher k = none ∧ ∃ x y, nested? higher k = some x ∧ outer? lower k = some y ∧ x ≠ y

/-- `merged` holds what `layer` gives and, where it gives nothing, what `base` gives. -/
structure Overlays (base layer merged : Entries Text Json) : Prop where
  nodup : (keys base).Nodup → (keys merged).Nodup
  object : ∃ members, find? merged languageConfigName = some (.object members)
  other : ∀ k, k ≠ languageConfigName → find? merged k = (find? layer k).or (find? base k)
  nested : ∀ k, nested? merged k = (nested? layer k).or (nested? base k)

theorem nested?_of_object {layer : Entries Text Json} {members : List (Text × Json)}
    (h : find? layer languageConfigName = some (.object members)) (k : Text) :
    nested? layer k = find? members k := by
  simp only [nested?, h]

theorem Overlays.refl {base : Entries Text Json}
    (h : ∃ members, find? base languageConfigName = some (.object members)) :
    Overlays base [] base :=
  ⟨id, h, fun _ _ => rfl, fun _ => rfl⟩

theorem override_overlays {base : Entries Text Json} {name : Text} {value : Json}
    (hbase : ∃ members, find? base languageConfigName = some (.object members))
    (hvalue : value.HasDistinctNames)
    (hobject : name = languageConfigName → ∃ members, value = .object members) :
    ∃ merged, override base name value = .ok merged ∧ Overlays base [(name, value)] merged := by
  obtain ⟨old, hold⟩ := hbase
  by_cases hname : name = languageConfigName
  · obtain ⟨members, rfl⟩ := hobject hname
    subst hname
    have hgiven : find? [(languageConfigName, Json.object members)] languageConfigName =
        some (.object members) := by simp [find?]
    refine ⟨put base languageConfigName (.object (merge old members)), ?_, ?_, ?_, ?_, ?_⟩
    · simp only [override, if_true, hold, Option.getD_some]
    · intro h
      exact nodup_keys_put h _ _
    · exact ⟨_, find?_put_self base _ _⟩
    · intro k hk
      rw [find?_put_of_ne base _ hk]
      simp [find?, Ne.symm hk]
    · intro k
      rw [nested?_of_object (find?_put_self base _ _), nested?_of_object hold,
        nested?_of_object hgiven, find?_merge_of_nodup _ hvalue.nodup_keys]
  · refine ⟨put base name value, ?_, ?_, ?_, ?_, ?_⟩
    · unfold override
      split
      · simp only [hname, if_false]
      · rfl
    · intro h
      exact nodup_keys_put h _ _
    · exact ⟨old, (find?_put_of_ne base value (Ne.symm hname)).trans hold⟩
    · intro k _
      by_cases hk : k = name
      · subst hk
        simp [find?]
      · rw [find?_put_of_ne base value hk]
        simp [find?, Ne.symm hk]
    · intro k
      have hnone : nested? [(name, value)] k = none := by simp [nested?, find?, hname]
      have hput : find? (put base name value) languageConfigName = some (.object old) :=
        (find?_put_of_ne base value (Ne.symm hname)).trans hold
      rw [hnone, nested?_of_object hput, nested?_of_object hold, Option.none_or]

theorem Overlays.cons {base layer between merged : Entries Text Json} {name : Text} {value : Json}
    (hfresh : name ∉ keys layer) (h : Overlays base [(name, value)] between)
    (h' : Overlays between layer merged) : Overlays base ((name, value) :: layer) merged := by
  have hnone : find? layer name = none := find?_eq_none.mpr hfresh
  refine ⟨fun hn => h'.nodup (h.nodup hn), h'.object, ?_, ?_⟩
  · intro k hk
    rw [h'.other k hk, h.other k hk, ← Option.or_assoc]
    congr 1
    by_cases hkn : name = k
    · subst hkn
      simp [find?, hnone]
    · simp [find?, hkn]
  · intro k
    rw [h'.nested k, h.nested k, ← Option.or_assoc]
    congr 1
    by_cases hn : name = languageConfigName
    · subst hn
      simp [nested?, find?, hnone]
    · simp [nested?, find?, hn]

/-- A layer whose object for the language is one is laid over another such layer without a fault. -/
theorem mergeLayer_overlays {layer : Entries Text Json}
    (hlayer : (Json.object layer).HasDistinctNames) (hnests : NestsObject layer)
    {base : Entries Text Json}
    (hbase : ∃ members, find? base languageConfigName = some (.object members)) :
    ∃ merged, mergeLayer base layer = .ok merged ∧ Overlays base layer merged := by
  induction layer generalizing base with
  | nil => exact ⟨base, rfl, .refl hbase⟩
  | cons e layer ih =>
    obtain ⟨name, value⟩ := e
    cases hlayer with
    | object hnames hvalues =>
      have hfresh := List.nodup_cons.mp hnames
      obtain ⟨between, hbetween, hover⟩ := override_overlays hbase
        (hvalues (name, value) List.mem_cons_self)
        (fun hn => hnests value (by rw [find?, if_pos hn]))
      have hrest : NestsObject layer := by
        intro v hv
        apply hnests v
        have hne : name ≠ languageConfigName := by
          rintro rfl
          rw [find?_eq_none.mpr hfresh.1] at hv
          cases hv
        simpa [find?, hne] using hv
      obtain ⟨merged, hmerged, hover'⟩ :=
        ih (.object hfresh.2 fun m hm => hvalues m (List.mem_cons_of_mem _ hm)) hrest hover.object
      refine ⟨merged, ?_, hover.cons hfresh.1 hover'⟩
      simp only [mergeLayer, hbetween, hmerged]

theorem find?_entries_ofEntries (m : Entries Text Json) {k : Text} (hk : k ∈ names) :
    find? (ofEntries m).entries k = (find? m k).or (find? (entries {}) k) := by
  simp only [names, keys, entries, List.map_cons, List.map_nil, List.mem_cons, List.not_mem_nil,
    or_false] at hk
  rcases hk with rfl | rfl | rfl | rfl | rfl | rfl | rfl | rfl | rfl <;>
    simp [ofEntries, entries, find?, languageConfigName]

/-- The settings of a merged layer: known names as they stand, all others in the object. -/
theorem ofLayer_eq_ok {layer : Entries Text Json} (hnodup : (keys layer).Nodup)
    (hobject : ∃ members, find? layer languageConfigName = some (.object members)) :
    ∃ s members, ofLayer layer = .ok s ∧ s.languageConfig = .object members ∧
      (∀ k ∈ names, k ≠ languageConfigName →
        find? s.entries k = (find? layer k).or (find? (entries {}) k)) ∧
      ∀ k, find? members k = given? layer k := by
  obtain ⟨old, hold⟩ := hobject
  have hothers (k : Text) :
      find? (layer.filter fun m => !names.contains m.1) k = outer? layer k := by
    rw [find?_filter (fun n => !names.contains n), outer?]
    by_cases hk : k ∈ names <;> simp [hk]
  have hkeys : (keys (layer.filter fun m => !names.contains m.1)).Nodup :=
    hnodup.sublist (List.filter_sublist.map Prod.fst)
  unfold ofLayer
  simp only
  generalize (layer.filter fun m => !names.contains m.1) = others at hothers hkeys ⊢
  split
  · rename_i hnil
    refine ⟨ofEntries layer, old, rfl, ?_, fun k hk _ => find?_entries_ofEntries layer hk, ?_⟩
    · simp [ofEntries, hold]
    · intro k
      rw [given?, nested?_of_object hold, ← hothers, hnil]
      rfl
  · have hput := find?_put_self layer languageConfigName (Json.object (merge old others))
    refine ⟨ofEntries (layer.put languageConfigName (.object (merge old others))),
      merge old others, ?_, ?_, ?_, ?_⟩
    · rw [hold, Option.getD_some, membersOf]
      rfl
    · simp only [ofEntries, hput, Option.getD_some]
    · intro k hk hne
      rw [find?_entries_ofEntries _ hk, find?_put_of_ne layer _ hne]
    · intro k
      rw [find?_merge_of_nodup _ hkeys, hothers, given?, nested?_of_object hold]

theorem Overlays.outer {base layer merged : Entries Text Json} (h : Overlays base layer merged)
    (k : Text) : outer? merged k = (outer? layer k).or (outer? base k) := by
  unfold outer?
  by_cases hk : k ∈ names
  · simp only [hk, if_true, Option.or_none]
  · have hne : k ≠ languageConfigName := by
      rintro rfl
      exact hk (by decide)
    simp only [hk, if_false, h.other k hne]

theorem defaultsOf_cases (language : Text) :
    defaultsOf language = pythonDefaults ∨ defaultsOf language = kotlinDefaults ∨
      defaultsOf language = [(languageConfigName, .object [])] := by
  unfold defaultsOf languageDefaults
  by_cases hpython : "python" = Text.lowercase language
  · simp [find?, ← hpython]
  · by_cases hkotlin : "kotlin" = Text.lowercase language
    · simp [find?, ← hkotlin]
    · simp [find?, hpython, hkotlin]

theorem nodup_keys_defaultsOf (language : Text) : (keys (defaultsOf language)).Nodup := by
  rcases defaultsOf_cases language with h | h | h <;> rw [h] <;> decide

theorem defaultsOf_object (language : Text) :
    ∃ members, find? (defaultsOf language) languageConfigName = some (.object members) := by
  rcases defaultsOf_cases language with h | h | h
  · exact ⟨_, by rw [h]; rfl⟩
  · exact ⟨_, by rw [h]; rfl⟩
  · exact ⟨_, by rw [h]; rfl⟩

theorem outer?_defaultsOf (language k : Text) : outer? (defaultsOf language) k = none := by
  unfold outer?
  by_cases hk : k ∈ names
  · rw [if_pos hk]
  · have hsub : ∀ j ∈ keys (defaultsOf language), j ∈ names := by
      rcases defaultsOf_cases language with h | h | h <;> rw [h] <;> decide
    rw [if_neg hk, find?_eq_none]
    exact fun hmem => hk (hsub k hmem)

theorem or_precedence_iff {α : Type} {a b c d e : Option α} :
    ((a.or c).or (b.or (d.or e)) = (a.or b).or ((c.or d).or e)) ↔
      ¬ (a = none ∧ ∃ x y, b = some x ∧ c = some y ∧ x ≠ y) := by
  cases a <;> cases b <;> cases c <;> simp [eq_comm]

theorem readFile_hasDistinctNames {tree : FileTree} {path : Path} {file : Entries Text Json}
    (h : readFile tree path = .ok file) : (Json.object file).HasDistinctNames := by
  simp only [readFile, Attempt.bind_eq_ok] at h
  obtain ⟨found, -, h⟩ := h
  split at h
  · obtain ⟨_, ⟨⟩, -⟩ := Attempt.bind_eq_ok.mp h
  · split at h
    · obtain ⟨_, ⟨⟩, -⟩ := Attempt.bind_eq_ok.mp h
    · obtain ⟨text, -, h⟩ := Attempt.bind_eq_ok.mp h
      split at h
      · rename_i hread
        cases h
        exact Json.read_hasDistinctNames hread
      all_goals cases h

/-- A file and overrides are always merged. A setting of the generator has the value of the highest
layer that gives it, and so has a setting of the language, unless the file gives another value for it
by its outer spelling and the overrides have it in their object only. -/
theorem load_by_layer_iff {tree : FileTree} {language : Json} {name path : Text}
    {file overrides : Entries Text Json} (hlanguage : languageNamed language = .ok name)
    (hpath : path ≠ "") (hfile : readFile tree (Path.ofString path) = .ok file)
    (hnestsFile : NestsObject file) (hoverrides : (Json.object overrides).HasDistinctNames)
    (hnests : NestsObject overrides) :
    ∃ s members, load tree language (.object overrides) (.string path) = .ok s ∧
      s.languageConfig = .object members ∧
      (∀ k ∈ names, k ≠ languageConfigName →
        find? s.entries k = (find? overrides k).or
          ((find? file k).or ((find? (defaultsOf name) k).or (find? (entries {}) k)))) ∧
      (∀ k, find? members k = ((outer? overrides k).or (outer? file k)).or
          ((nested? overrides k).or ((nested? file k).or (given? (defaultsOf name) k)))) ∧
      ∀ k, find? members k =
          (given? overrides k).or ((given? file k).or (given? (defaultsOf name) k)) ↔
        ¬ Overtakes file overrides k := by
  obtain ⟨lower, hlower, hoverFile⟩ := mergeLayer_overlays (readFile_hasDistinctNames hfile)
    hnestsFile (defaultsOf_object name)
  obtain ⟨merged, hmerged, hover⟩ := mergeLayer_overlays hoverrides hnests hoverFile.object
  obtain ⟨s, members, hs, hconfig, hknown, hmembers⟩ :=
    ofLayer_eq_ok (hover.nodup (hoverFile.nodup (nodup_keys_defaultsOf name))) hover.object
  -- The outer spellings of all layers are collected last, in front of every nested one.
  have hvalue (k : Text) : find? members k = ((outer? overrides k).or (outer? file k)).or
      ((nested? overrides k).or ((nested? file k).or (given? (defaultsOf name) k))) := by
    rw [hmembers, given?, hover.outer, hoverFile.outer, hover.nested, hoverFile.nested, given?,
      outer?_defaultsOf, Option.or_none, Option.none_or]
  refine ⟨s, members, ?_, hconfig, ?_, hvalue, ?_⟩
  · have hresolve : resolve language file (.object overrides) = .ok s := by
      simp only [resolve, hlanguage, hlower, overridesOf, hmerged, hs, bind, Except.bind]
    simp only [load, hlanguage, filePath_string hpath, hfile, hresolve, Attempt.ofFaults, bind,
      Except.bind]
  · intro k hk hne
    rw [hknown k hk hne, hover.other k hne, hoverFile.other k hne, Option.or_assoc, Option.or_assoc]
  · intro k
    rw [hvalue k]
    exact or_precedence_iff

def dispatcherTree : FileTree :=
  [(["conf.json"], .file "\x7b\"class_suffix\": \"Prefs\", \"dispatcher\": \"Slow\"\x7d".toUTF8)]

def dispatcherFile : Entries Text Json :=
  [("class_suffix", .string "Prefs"), ("dispatcher", .string "Slow")]

def nestedDispatcher : Entries Text Json :=
  [(languageConfigName, .object [("dispatcher", .string "Fast")])]

/-- The outer spelling in a file wins over the nested one in the overrides, which is lost. -/
theorem file_overtakes_nested_override :
    given? nestedDispatcher "dispatcher" = some (.string "Fast") ∧
      (load dispatcherTree (.string "kotlin") (.object nestedDispatcher) (.string "conf.json")).map
          languageConfig =
        .ok (.object [("context_class", .string "android.content.Context"),
          ("dispatcher", .string "Slow")]) :=
  ⟨by decide, by decide +kernel⟩

def outerDispatcher : Entries Text Json :=
  [("indent_size", .int 2), ("dispatcher", .string "Fast")]

theorem outer_override_wins :
    ∃ s members, load dispatcherTree (.string "Kotlin") (.object outerDispatcher)
        (.string "conf.json") = .ok s ∧ s.languageConfig = .object members ∧
      find? s.entries "indent_size" = some (.int 2) ∧
      find? s.entries "class_suffix" = some (.string "Prefs") ∧
      find? members "dispatcher" = some (.string "Fast") := by
  have hdistinct : (Json.object outerDispatcher).HasDistinctNames := by
    refine .object (by decide) ?_
    intro m hm
    rcases List.mem_cons.mp hm with rfl | hm
    · exact .int 2
    · rw [List.mem_singleton.mp hm]
      exact .string "Fast"
  have hlanguage : languageNamed (.string "Kotlin") = .ok "Kotlin" := rfl
  have hfile : readFile dispatcherTree (Path.ofString "conf.json") = .ok dispatcherFile := by
    decide +kernel
  have hnests (layer : Entries Text Json) (h : find? layer languageConfigName = none) :
      NestsObject layer := by
    intro v hv
    rw [h] at hv
    cases hv
  obtain ⟨s, members, hs, hconfig, hknown, -, hmembers⟩ :=
    load_by_layer_iff hlanguage (by decide) hfile (hnests _ (by decide))
      hdistinct (hnests _ (by decide))
  have hfast : ¬ Overtakes dispatcherFile outerDispatcher "dispatcher" := by
    rintro ⟨hnone, -⟩
    exact absurd hnone (by decide)
  refine ⟨s, members, hs, hconfig, ?_, ?_, ?_⟩
  · rw [hknown "indent_size" (by decide) (by decide)]
    decide
  · rw [hknown "class_suffix" (by decide) (by decide)]
    decide
  · rw [(hmembers "dispatcher").mpr hfast]
    decide

end Settings

end PrefAccessor
