import Mathlib.Data.List.Nodup
import PrefAccessor.Proofs.Grouping
import PrefAccessor.Proofs.Contribution

/-!
# Shared storage keys

The storage keys that two or more fields of a schema have in common, each with its fields. Where they
are not allowed, a schema that has some is refused with all of them, so that no artifact has any. Where
they are allowed, the report on the artifact names the same ones, each in one warning, before it notes
the artifact. Main statement: `shared_keys_refused_or_reported`.
-/

namespace PrefAccessor

set_option autoImplicit false

/-- No two members agree on the key, if no group has two. -/
theorem sharedGroups_eq_nil {α κ : Type} [DecidableEq κ] {key : α → κ} {l : List α} :
    sharedGroups key l = [] ↔ (l.map key).Nodup := by
  rw [List.eq_nil_iff_forall_not_mem, List.nodup_iff_count_le_one]
  have hcount (k : κ) : (l.map key).count k = (l.filter fun a => decide (key a = k)).length := by
    rw [List.count, List.countP_map, List.countP_eq_length_filter]
    rfl
  constructor
  · intro h k
    have hnot := h (k, l.filter fun a => decide (key a = k))
    rw [mem_sharedGroups] at hnot
    rw [hcount]
    exact Nat.not_lt.mp fun hlt => hnot ⟨rfl, hlt⟩
  · rintro h ⟨k, group⟩ hmem
    obtain ⟨rfl, hlt⟩ := mem_sharedGroups.mp hmem
    have hle := h k
    rw [hcount] at hle
    exact absurd hlt (Nat.not_lt.mpr hle)

theorem sortedGroups_perm (groups : Entries Text (List Text)) :
    (sortedGroups groups).Perm groups :=
  List.mergeSort_perm _ _

theorem keys_sortedGroups_ascending {groups : Entries Text (List Text)}
    (h : (Entries.keys groups).Nodup) :
    (Entries.keys (sortedGroups groups)).Pairwise (· < ·) := by
  have hsorted : (sortedGroups groups).Pairwise fun a b => a.1 ≤ b.1 := by
    have hpairwise : (sortedGroups groups).Pairwise fun a b => textLe a.1 b.1 = true := by
      refine List.pairwise_mergeSort (fun a b c hab hbc => ?_) (fun a b => ?_) groups
      · exact decide_eq_true (Text.le_trans (of_decide_eq_true hab) (of_decide_eq_true hbc))
      · simpa [textLe] using Text.le_total a.1 b.1
    exact hpairwise.imp of_decide_eq_true
  have hdistinct : (sortedGroups groups).Pairwise fun a b => a.1 ≠ b.1 :=
    List.pairwise_map.mp ((((sortedGroups_perm groups).map Prod.fst).nodup_iff).mpr h)
  refine List.pairwise_map.mpr ((hsorted.and hdistinct).imp ?_)
  rintro a b ⟨hle, hne⟩
  exact Text.not_le.mp fun hge => hne (Text.le_antisymm hle hge)

namespace Schema

/-- The names of the fields under a storage key, in field order. -/
def usersOf (s : Schema) (key : Text) : List Text :=
  (s.fields.filter fun f => decide (f.key = key)).map Field.name

theorem mem_sharedKeys {s : Schema} {key : Text} {names : List Text} :
    (key, names) ∈ s.sharedKeys ↔ names = s.usersOf key ∧ 1 < names.length := by
  simp only [sharedKeys, List.mem_map, Prod.mk.injEq]
  constructor
  · rintro ⟨⟨k, group⟩, hgroup, rfl, rfl⟩
    obtain ⟨rfl, hlength⟩ := mem_sharedGroups.mp hgroup
    exact ⟨rfl, by rwa [List.length_map]⟩
  · rintro ⟨rfl, hlength⟩
    rw [usersOf, List.length_map] at hlength
    exact ⟨(key, _), mem_sharedGroups.mpr ⟨rfl, hlength⟩, rfl, rfl⟩

theorem nodup_keys_sharedKeys (s : Schema) : (Entries.keys s.sharedKeys).Nodup := by
  have hkeys : Entries.keys s.sharedKeys = Entries.keys (sharedGroups Field.key s.fields) := by
    simp [Entries.keys, sharedKeys, Function.comp_def]
  rw [hkeys]
  exact nodup_keys_sharedGroups _ _

theorem sharedKeys_eq_nil {s : Schema} : s.sharedKeys = [] ↔ (s.fields.map Field.key).Nodup :=
  List.map_eq_nil_iff.trans sharedGroups_eq_nil

/-- A check ends in one of three ways, which exclude each other. -/
theorem validate_cases (s : Schema) (allow : Bool) :
    (s.fields = [] ∧ s.validate allow = some ⟨.empty s.name, some s.name⟩) ∨
    ((s.fields ≠ [] ∧ allow = false ∧ ¬ (s.fields.map Field.key).Nodup) ∧
      s.validate allow = some ⟨.duplicateKeys s.name (sortedGroups s.sharedKeys), some s.name⟩) ∨
    ((s.fields ≠ [] ∧ (allow = true ∨ (s.fields.map Field.key).Nodup)) ∧
      s.validate allow = none) := by
  rw [← sharedKeys_eq_nil, validate]
  by_cases hfields : s.fields = []
  · exact Or.inl ⟨hfields, if_pos hfields⟩
  · rw [if_neg hfields]
    by_cases hallowed : allow = true ∨ s.sharedKeys = []
    · exact Or.inr (Or.inr ⟨⟨hfields, hallowed⟩, if_pos hallowed⟩)
    · rw [if_neg hallowed]
      rw [not_or, Bool.not_eq_true] at hallowed
      exact Or.inr (Or.inl ⟨⟨hfields, hallowed⟩, rfl⟩)

theorem nodup_keys_of_validate {s : Schema} (h : s.validate false = none) :
    (s.fields.map Field.key).Nodup := by
  rcases validate_cases s false with ⟨-, hvalid⟩ | ⟨-, hvalid⟩ | ⟨⟨-, hallowed⟩, -⟩
  · rw [h] at hvalid
    cases hvalid
  · rw [h] at hvalid
    cases hvalid
  · exact hallowed.resolve_left Bool.false_ne_true

end Schema

/-- What is reported about a shared key of an aggregate. -/
def sharedKeyReport (aggregate : Text) (group : Text × List Text) : Diagnostic :=
  ⟨.warning, (SchemaWarning.sharedKey group.1 group.2).message, some aggregate⟩

/-- Whether a diagnostic is a warning about a shared key, which is told by how it begins. -/
def Diagnostic.isAboutSharedKey (d : Diagnostic) : Bool :=
  decide (d.severity = .warning) && ("Storage key '" : Text).toList.isPrefixOf d.message.toList

/-- The report on an artifact ends with the note of it. All before are warnings about its aggregate,
and those about shared keys are one for each of them, in the order of the keys. -/
def Artifact.IsReported (a : Artifact) (ds : List Diagnostic) : Prop :=
  ∃ ws, ds = ws ++ diagnosticsOf [Pass.generatedNote a] ∧
    (∀ d ∈ ws, d.severity = .warning ∧ d.aggregate = some a.accessorClass.schema.name) ∧
    ws.filter Diagnostic.isAboutSharedKey =
      (sortedGroups a.accessorClass.schema.sharedKeys).map
        (sharedKeyReport a.accessorClass.schema.name)

namespace SchemaWarning

def diagnostic (aggregate : Text) (w : SchemaWarning) : Diagnostic :=
  ⟨.warning, w.message, some aggregate⟩

def isSharedKey : SchemaWarning → Bool
  | .sharedKey .. => true
  | _ => false

theorem isAboutSharedKey_of_append {aggregate front rest : Text} {w : SchemaWarning}
    (h : w.message = front ++ rest) {c : CodePoint} (hc : front.toList.head? = some c) (hne : c ≠ 'S') :
    (w.diagnostic aggregate).isAboutSharedKey = false := by
  obtain ⟨cs, hcs⟩ := List.head?_eq_some_iff.mp hc
  have hstorage : ("Storage key '" : Text).toList = char 'S' :: ("torage key '" : Text).toList := rfl
  have hfirst : ('S' == c) = false := beq_eq_false_iff_ne.mpr hne.symm
  rw [Diagnostic.isAboutSharedKey, diagnostic, h, Text.toList_append, hcs, hstorage,
    List.cons_append, List.isPrefixOf, hfirst, Bool.false_and, Bool.and_false]

/-- The texts of the other warnings begin in another way. -/
theorem isAboutSharedKey_diagnostic (aggregate : Text) (w : SchemaWarning) :
    (w.diagnostic aggregate).isAboutSharedKey = w.isSharedKey := by
  -- the message is cut behind its first literal, which alone is looked at
  cases w with
  | sharedAccessor name fields =>
    have hmessage : (sharedAccessor name fields).message =
        "Fields " ++ (Text.intercalate ", " fields ++ (" all generate accessor " ++ name)) := by
      simp only [← Text.append_assoc]
      rfl
    exact isAboutSharedKey_of_append hmessage rfl (by decide)
  | sharedKey key fields =>
    have hmessage : (sharedKey key fields).message =
        "Storage key '" ++ (key ++ ("' shared by " ++ Text.intercalate ", " fields)) := by
      simp only [← Text.append_assoc]
      rfl
    have hprefix : ("Storage key '" : Text).toList <+: (sharedKey key fields).message.toList := by
      rw [hmessage, Text.toList_append]
      exact List.prefix_append _ _
    rw [Diagnostic.isAboutSharedKey, diagnostic, List.isPrefixOf_iff_prefix.mpr hprefix]
    rfl
  | ignoredDefault field =>
    have hmessage : (ignoredDefault field).message =
        "Default value of string set field '" ++ (field ++ "' is ignored") := by
      simp only [← Text.append_assoc]
      rfl
    exact isAboutSharedKey_of_append hmessage rfl (by decide)

end SchemaWarning

/-- The warnings about shared keys name them all: where they are not allowed, there are none. -/
theorem Generator.filter_isSharedKey {g : Generator} {s : Schema}
    (hvalid : s.validate g.settings.allowDuplicateKeys.isSet = none) :
    (g.warnings s).filter SchemaWarning.isSharedKey =
      (sortedGroups s.sharedKeys).map fun e => .sharedKey e.1 e.2 := by
  have hnone {α : Type} (l : List α) (w : α → SchemaWarning) (hw : ∀ a, (w a).isSharedKey = false) :
      (l.map w).filter SchemaWarning.isSharedKey = [] := by
    simp [List.filter_eq_nil_iff, hw]
  have hall (l : List (Text × List Text)) :
      (l.map fun e => SchemaWarning.sharedKey e.1 e.2).filter SchemaWarning.isSharedKey =
        l.map fun e => .sharedKey e.1 e.2 := by
    rw [List.filter_eq_self]
    exact List.forall_mem_map.mpr fun e _ => rfl
  rw [warnings, List.filter_append, List.filter_append, hnone _ _ fun _ => rfl,
    hnone _ _ fun _ => rfl, List.nil_append, List.append_nil]
  split
  · exact hall _
  · -- a schema that passes without the permission shares nothing
    rename_i hallowed
    rw [Bool.not_eq_true] at hallowed
    rw [hallowed] at hvalid
    rw [Schema.sharedKeys_eq_nil.mpr (Schema.nodup_keys_of_validate hvalid), sortedGroups,
      List.mergeSort_nil]
    rfl

namespace Pass

theorem diagnosticsOf_extractionEvents (source : Source) :
    diagnosticsOf (extractionEvents source) = [] := by
  unfold extractionEvents
  split
  · split <;> rfl
  · rfl

theorem diagnosticsOf_warnings (aggregate : Text) (ws : List SchemaWarning) :
    diagnosticsOf (ws.map (warning aggregate)) = ws.map (SchemaWarning.diagnostic aggregate) :=
  (List.filterMap_map ..).trans (congrFun List.filterMap_eq_map' ws)

theorem deliver_of_delivered {source : Source} {sink : Sink} {before : List Event} {a : Artifact}
    {d : Delivered} (h : (deliver source sink before a).delivered = some d) : d.artifact = a ∧
      (deliver source sink before a).diagnostics =
        diagnosticsOf before ++ diagnosticsOf [generatedNote a] := by
  unfold deliver at h ⊢
  split at h
  · rename_i written location _
    have htrace : diagnosticsOf (if written.usesFiles then [Event.info ("Wrote " ++ location.getD "")]
        else []) = [] := by
      split <;> rfl
    cases h
    refine ⟨rfl, ?_⟩
    rw [Contribution.diagnostics, diagnosticsOf_append, diagnosticsOf_append, htrace, List.append_nil]
  · cases h
  · cases h

/-- A source with an artifact has a schema that passes its check, and reports the warnings about it
before the note. -/
theorem contribute_of_delivered {g : Generator} {sink : Sink} {source : Source} {d : Delivered}
    (h : (contribute g sink source).delivered = some d) :
    ∃ s, s.validate g.settings.allowDuplicateKeys.isSet = none ∧ g.generate s = .ok d.artifact ∧
      (contribute g sink source).diagnostics =
        (g.warnings s).map (SchemaWarning.diagnostic s.name) ++
          diagnosticsOf [generatedNote d.artifact] := by
  unfold contribute at h ⊢
  split at h
  · rename_i s hs
    unfold contributeSchema at h ⊢
    split at h
    · cases h
    · rename_i hvalid
      simp only at h ⊢
      split at h
      · rename_i a ha
        obtain ⟨rfl, hdiagnostics⟩ := deliver_of_delivered h
        refine ⟨s, hvalid, ha, hdiagnostics.trans ?_⟩
        have htrace : diagnosticsOf [renderedEvent d.artifact] = [] := rfl
        rw [diagnosticsOf_append, diagnosticsOf_append, diagnosticsOf_extractionEvents,
          diagnosticsOf_warnings, htrace, List.nil_append, List.append_nil]
      · cases h
      · cases h
      · cases h
  · cases h
  · cases h

end Pass

theorem Generator.isReported {g : Generator} {s : Schema} {a : Artifact}
    (hvalid : s.validate g.settings.allowDuplicateKeys.isSet = none) (ha : g.generate s = .ok a) :
    a.IsReported ((g.warnings s).map (SchemaWarning.diagnostic s.name) ++
      diagnosticsOf [Pass.generatedNote a]) := by
  have hschema := schema_of_generate ha
  refine ⟨_, rfl, ?_, ?_⟩
  · rw [hschema]
    exact List.forall_mem_map.mpr fun w _ => ⟨rfl, rfl⟩
  · have habout : Diagnostic.isAboutSharedKey ∘ SchemaWarning.diagnostic s.name =
        SchemaWarning.isSharedKey :=
      funext fun w => SchemaWarning.isAboutSharedKey_diagnostic s.name w
    rw [hschema, List.filter_map, habout, filter_isSharedKey hvalid, List.map_map]
    rfl

/-- What a source adds to the artifacts and the diagnostics of a pass. -/
def Contribution.part (c : Contribution) : Option Artifact × List Diagnostic :=
  (c.delivered.map Delivered.artifact, c.diagnostics)

/-- The artifacts and the diagnostics of a pass are those of its parts, one after another. -/
structure PassState.IsCutInto (st : PassState) (parts : List (Option Artifact × List Diagnostic)) :
    Prop where
  artifacts : st.artifacts = parts.filterMap Prod.fst
  diagnostics : st.diagnostics = parts.flatMap Prod.snd

namespace PassState.IsCutInto

variable {st : PassState} {parts : List (Option Artifact × List Diagnostic)}

theorem add (h : st.IsCutInto parts) (c : Contribution) :
    (st.add c).IsCutInto (parts ++ [c.part]) where
  artifacts := by
    rw [artifacts_add, h.artifacts, List.filterMap_append, Contribution.part]
    cases c.delivered <;> rfl
  diagnostics := by
    rw [diagnostics_add, h.diagnostics, List.flatMap_append, List.flatMap_singleton,
      Contribution.part]

theorem report (h : st.IsCutInto parts) (e : Event) :
    (st.report e).IsCutInto (parts ++ [(none, diagnosticsOf [e])]) where
  artifacts := by
    rw [List.filterMap_append]
    exact h.artifacts.trans (List.append_nil _).symm
  diagnostics := by
    rw [diagnostics_report, h.diagnostics, List.flatMap_append, List.flatMap_singleton]

end PassState.IsCutInto

namespace Pass

/-- The part of one of the sources, or of the note that sources are skipped. -/
def IsPart (g : Generator) (sources : List Source) (part : Option Artifact × List Diagnostic) : Prop :=
  part = (none, diagnosticsOf [skippingNote]) ∨
    ∃ source ∈ sources, ∃ sink, part = (contribute g sink source).part

theorem exists_parts (g : Generator) (sink : Sink) (sources : List Source) :
    ∃ parts, (run g sink sources).1.IsCutInto parts ∧ ∀ part ∈ parts, IsPart g sources part := by
  have hstep {parts : List (Option Artifact × List Diagnostic)}
      (h : ∀ part ∈ parts, IsPart g sources part) {part : Option Artifact × List Diagnostic}
      (hpart : IsPart g sources part) : ∀ p ∈ parts ++ [part], IsPart g sources p :=
    List.forall_mem_append.mpr ⟨h, List.forall_mem_singleton.mpr hpart⟩
  refine runFrom_induction
    (P := fun st => ∃ parts, st.IsCutInto parts ∧ ∀ part ∈ parts, IsPart g sources part) ?_ ?_ ?_
  · rintro st source hsource ⟨parts, hcut, hparts⟩
    exact ⟨_, hcut.add _, hstep hparts (Or.inr ⟨source, hsource, st.sink, rfl⟩)⟩
  · rintro st ⟨parts, hcut, hparts⟩
    exact ⟨_, hcut.report _, hstep hparts (Or.inl rfl)⟩
  · exact ⟨[], ⟨rfl, rfl⟩, List.forall_mem_nil _⟩

/-- The part of an artifact is the report on it, and the artifact has distinct storage keys unless they
may be shared. -/
theorem IsPart.settles {g : Generator} {sources : List Source} {a : Artifact} {ds : List Diagnostic}
    (h : IsPart g sources (some a, ds)) :
    (g.settings.allowDuplicateKeys.isSet = false →
      (a.accessorClass.schema.fields.map Field.key).Nodup) ∧ a.IsReported ds := by
  rcases h with h | ⟨source, -, sink, h⟩
  · cases h
  · obtain ⟨hdelivered, rfl⟩ := Prod.mk.inj h
    obtain ⟨d, hd, rfl⟩ := Option.map_eq_some_iff.mp hdelivered.symm
    obtain ⟨s, hvalid, hmade, hdiagnostics⟩ := contribute_of_delivered hd
    refine ⟨fun hallowed => ?_, ?_⟩
    · rw [hallowed] at hvalid
      rw [Generator.schema_of_generate hmade]
      exact Schema.nodup_keys_of_validate hvalid
    · rw [hdiagnostics]
      exact Generator.isReported hvalid hmade

end Pass

/-- The shared keys of a schema are those of two or more fields, each once and with the names of its
fields in field order. A schema is refused for having no fields, or for having shared keys that are not
allowed, and then with all of them; otherwise it passes. So the artifacts of a pass that does not allow
them have distinct keys; and what a pass reports is made of parts, of which that of an artifact has one
warning for each of its shared keys, in the order of the keys, and the note behind them. -/
theorem shared_keys_refused_or_reported :
    (∀ s : Schema,
      (Entries.keys s.sharedKeys).Nodup ∧
      (∀ key names, (key, names) ∈ s.sharedKeys ↔ names = s.usersOf key ∧ 1 < names.length) ∧
      (sortedGroups s.sharedKeys).Perm s.sharedKeys ∧
      (Entries.keys (sortedGroups s.sharedKeys)).Pairwise (· < ·)) ∧
    (∀ (s : Schema) (allow : Bool),
      (s.validate allow = some ⟨.empty s.name, some s.name⟩ ↔ s.fields = []) ∧
      (s.validate allow =
          some ⟨.duplicateKeys s.name (sortedGroups s.sharedKeys), some s.name⟩ ↔
        s.fields ≠ [] ∧ allow = false ∧ ¬ (s.fields.map Field.key).Nodup) ∧
      (s.validate allow = none ↔
        s.fields ≠ [] ∧ (allow = true ∨ (s.fields.map Field.key).Nodup))) ∧
    ∀ (g : Generator) (sink : Sink) (sources : List Source),
      ∃ parts, (Pass.run g sink sources).1.IsCutInto parts ∧
        (∀ part ∈ parts, Pass.IsPart g sources part) ∧
        ∀ a ds, (some a, ds) ∈ parts →
          (g.settings.allowDuplicateKeys.isSet = false →
            (a.accessorClass.schema.fields.map Field.key).Nodup) ∧ a.IsReported ds := by
  refine ⟨?_, ?_, ?_⟩
  · intro s
    exact ⟨s.nodup_keys_sharedKeys, fun _ _ => Schema.mem_sharedKeys, sortedGroups_perm _,
      keys_sortedGroups_ascending s.nodup_keys_sharedKeys⟩
  · intro s allow
    rcases s.validate_cases allow with ⟨hempty, hresult⟩ | ⟨hrefused, hresult⟩ | ⟨hpassed, hresult⟩
    · exact ⟨iff_of_true hresult hempty, iff_of_false (by simp [hresult]) fun h => h.1 hempty,
        iff_of_false (by simp [hresult]) fun h => h.1 hempty⟩
    · obtain ⟨hfields, hallowed, hshared⟩ := id hrefused
      refine ⟨iff_of_false (by simp [hresult]) hfields, iff_of_true hresult hrefused,
        iff_of_false (by simp [hresult]) ?_⟩
      rintro ⟨-, htrue | hdistinct⟩
      · exact Bool.false_ne_true (hallowed.symm.trans htrue)
      · exact hshared hdistinct
    · obtain ⟨hfields, hallowed⟩ := id hpassed
      refine ⟨iff_of_false (by simp [hresult]) hfields, iff_of_false (by simp [hresult]) ?_,
        iff_of_true hresult hpassed⟩
      rintro ⟨-, hfalse, hshared⟩
      exact hallowed.elim (fun htrue => Bool.false_ne_true (hfalse.symm.trans htrue)) hshared
  · intro g sink sources
    obtain ⟨parts, hcut, hparts⟩ := Pass.exists_parts g sink sources
    exact ⟨parts, hcut, hparts, fun a ds hmem => (hparts _ hmem).settles⟩

/-- Three fields with one key, around two with another. -/
def menuSchema : Schema where
  name := "Menu"
  package := ""
  storeName := "Menu"
  fields := [⟨"z", "sort", .int, none, false⟩, ⟨"a", "page", .int, none, false⟩,
    ⟨"z", "sort", .long, some "1", false⟩, ⟨"b", "page", .int, none, false⟩,
    ⟨"m", "sort", .boolean, none, true⟩]
  description := none

/-- The generator for Python under default settings, but that keys may be shared. -/
def Generator.lenient : Generator :=
  ⟨{ allowDuplicateKeys := .bool true }, .python true, true, 4294967296⟩

theorem menu_keys_reported :
    menuSchema.validate false = some
      ⟨.duplicateKeys "Menu" [("page", ["a", "b"]), ("sort", ["z", "z", "m"])], some "Menu"⟩ ∧
    ∃ parts, (Pass.run .lenient .discard [.schema menuSchema]).1.IsCutInto parts ∧
      ∃ a ds, (some a, ds) ∈ parts ∧ ∃ ws, ds = ws ++ diagnosticsOf [Pass.generatedNote a] ∧
        ws.filter Diagnostic.isAboutSharedKey =
          [⟨.warning, "Storage key 'page' shared by a, b", some "Menu"⟩,
            ⟨.warning, "Storage key 'sort' shared by z, z, m", some "Menu"⟩] := by
  obtain ⟨hkeys, hvalid, hpass⟩ := shared_keys_refused_or_reported
  obtain ⟨-, -, hperm, hascending⟩ := hkeys menuSchema
  have hshared : menuSchema.sharedKeys.Perm [("page", ["a", "b"]), ("sort", ["z", "z", "m"])] := by
    decide
  have hgroups : sortedGroups menuSchema.sharedKeys =
      ([("page", ["a", "b"]), ("sort", ["z", "z", "m"])] : Entries Text (List Text)) := by
    have hbefore : (sortedGroups menuSchema.sharedKeys).Pairwise fun a b => a.1 < b.1 :=
      List.pairwise_map.mp hascending
    refine List.Perm.eq_of_pairwise (fun a b _ _ hab hba => ?_) hbefore (by decide)
      (hperm.trans hshared)
    exact absurd hba (Text.lt_asymm hab)
  obtain ⟨-, hrefused, -⟩ := hvalid menuSchema false
  obtain ⟨parts, hcut, -, hsettled⟩ := hpass .lenient .discard [.schema menuSchema]
  have hschemas : (Pass.run .lenient .discard [.schema menuSchema]).1.artifacts.map
      (fun a => a.accessorClass.schema) = [menuSchema] := by decide +kernel
  obtain ⟨a, ha, hschema⟩ := List.mem_map.mp (hschemas ▸ List.mem_singleton_self menuSchema)
  rw [hcut.artifacts] at ha
  obtain ⟨⟨found, ds⟩, hpart, rfl⟩ := List.mem_filterMap.mp ha
  obtain ⟨-, ws, hds, -, hws⟩ := hsettled a ds hpart
  rw [hschema, hgroups] at hws
  refine ⟨?_, parts, hcut, a, ds, hpart, ws, hds, hws.trans (by decide)⟩
  rw [← hgroups]
  exact hrefused.mpr ⟨by decide, rfl, by decide⟩

end PrefAccessor
