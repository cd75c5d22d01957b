import Mathlib.Data.List.Basic
import PrefAccessor.Proofs.Grouping
import PrefAccessor.Proofs.Generation

/-!
# Accessors that share a name

Two methods of one class never share a name across their verbs, and two of one verb and one kind
share it exactly when the blocking getters of their fields do: this is what the warnings look at.
The one case that they miss is a field whose blocking accessors are called like the twins of another
field. Main statement: `overridden_unreported_iff`.
-/

namespace PrefAccessor

set_option autoImplicit false

namespace Naming

/-- What stands between the verb of an accessor name and the mark of a twin. -/
def stem (style : NameStyle) (field : Text) : Text :=
  match style with
  | .camel => pascalCase (clean field)
  | .snake => "_" ++ snakeCase (clean field)

/-- The ending that tells a method that does not block from its twin. -/
def twinMark (style : NameStyle) (isAsync : Bool) : Text :=
  if isAsync then (match style with | .camel => "Async" | .snake => "_async") else ""

theorem accessorName_eq (verb field : Text) (style : NameStyle) (isAsync : Bool) :
    accessorName verb field style isAsync = verb ++ (stem style field ++ twinMark style isAsync) := by
  cases style <;> cases isAsync <;> simp [accessorName, stem, twinMark, Text.append_assoc]

theorem twinMark_inj {style : NameStyle} {x y : Bool} (h : twinMark style x = twinMark style y) :
    x = y := by
  cases style <;> cases x <;> cases y <;> first | rfl | simp [twinMark] at h

theorem verb_append_inj {a b : Access} {s t : Text} :
    a.verb ++ s = b.verb ++ t ↔ a = b ∧ s = t := by
  constructor
  · intro h
    have hab : a = b := by
      have hl := congrArg Text.toList h
      cases a <;> cases b <;> simp [Access.verb] at hl ⊢
    subst b
    exact ⟨rfl, (Text.append_right_inj _).mp h⟩
  · rintro ⟨rfl, rfl⟩
    rfl

end Naming

/-- Of two different members of a list one comes first. -/
theorem sublist_pair_or {α : Type} {l : List α} {a b : α} (ha : a ∈ l) (hb : b ∈ l) (hne : a ≠ b) :
    [a, b].Sublist l ∨ [b, a].Sublist l := by
  obtain ⟨before, after, rfl⟩ := List.append_of_mem ha
  rcases List.mem_append.mp hb with hb | hb
  · refine Or.inr ?_
    exact (List.singleton_sublist.mpr hb).append (List.singleton_sublist.mpr List.mem_cons_self)
  · rcases List.mem_cons.mp hb with rfl | hb
    · exact absurd rfl hne
    · refine Or.inl (List.sublist_append_of_sublist_right ?_)
      exact (List.singleton_sublist.mpr hb).cons_cons a

namespace Generator

theorem methodName_eq_iff (g : Generator) (f h : Field) (a b : Access) (x y : Bool) :
    g.methodName f a x = g.methodName h b y ↔
      a = b ∧ Naming.stem g.style f.name ++ Naming.twinMark g.style x =
        Naming.stem g.style h.name ++ Naming.twinMark g.style y := by
  simp only [methodName, Naming.accessorName_eq, Naming.verb_append_inj]

/-- Methods of one verb and one kind share a name when the blocking getters do. -/
theorem methodName_eq_iff_getter (g : Generator) (f h : Field) (a : Access) (x : Bool) :
    g.methodName f a x = g.methodName h a x ↔
      g.methodName f .get false = g.methodName h .get false := by
  simp only [methodName_eq_iff, true_and, Text.append_left_inj]

/-- Within one field the name tells the verb and the kind. -/
theorem methodName_self_inj {g : Generator} {f : Field} {a b : Access} {x y : Bool}
    (h : g.methodName f a x = g.methodName f b y) : a = b ∧ x = y := by
  obtain ⟨hab, hxy⟩ := (g.methodName_eq_iff f f a b x y).mp h
  exact ⟨hab, Naming.twinMark_inj ((Text.append_right_inj _).mp hxy)⟩

/-- There is a warning about the accessor of this name that lists both fields. -/
def Reports (g : Generator) (s : Schema) (name : Text) (f h : Field) : Prop :=
  ∃ names, SchemaWarning.sharedAccessor name names ∈ g.warnings s ∧ f.name ∈ names ∧ h.name ∈ names

theorem mem_warnings_sharedAccessor {g : Generator} {s : Schema} {name : Text}
    {names : List Text} :
    SchemaWarning.sharedAccessor name names ∈ g.warnings s ↔
      names = ((s.fields.map Field.name).filter fun a =>
        decide (Naming.accessorName "get" a g.style false = name)) ∧ 1 < names.length := by
  have hright : ∀ w : SchemaWarning, w ∈ (if g.settings.allowDuplicateKeys.isSet then
      (sortedGroups s.sharedKeys).map fun e => SchemaWarning.sharedKey e.1 e.2 else []) →
      w ≠ .sharedAccessor name names := by
    rintro w hw rfl
    split at hw <;> simp at hw
  simp only [warnings, List.mem_append]
  constructor
  · rintro ((h | h) | h)
    · obtain ⟨⟨k, l⟩, hk, heq⟩ := List.mem_map.mp h
      rw [sortedGroups, List.mem_mergeSort, Naming.collisions, mem_sharedGroups] at hk
      cases heq
      exact hk
    · exact absurd rfl (hright _ h)
    · simp at h
  · intro h
    refine Or.inl (Or.inl (List.mem_map.mpr ⟨(name, names), ?_, rfl⟩))
    rw [sortedGroups, List.mem_mergeSort, Naming.collisions, mem_sharedGroups]
    exact h

/-- Fields listed together have one blocking getter, which names the warning. -/
theorem Reports.getter {g : Generator} {s : Schema} {name : Text} {f h : Field}
    (hr : g.Reports s name f h) :
    g.methodName f .get false = name ∧ g.methodName h .get false = name := by
  obtain ⟨names, hw, hf, hh⟩ := hr
  rw [(mem_warnings_sharedAccessor.mp hw).1] at hf hh
  exact ⟨of_decide_eq_true (List.mem_filter.mp hf).2, of_decide_eq_true (List.mem_filter.mp hh).2⟩

/-- Two fields, one before the other, whose blocking getters share a name are reported under it. -/
theorem reports_of_sublist {g : Generator} {s : Schema} {f h : Field}
    (hs : [f, h].Sublist s.fields)
    (heq : g.methodName f .get false = g.methodName h .get false) :
    g.Reports s (g.methodName h .get false) f h := by
  have hpair : [f.name, h.name].Sublist ((s.fields.map Field.name).filter fun a =>
      decide (Naming.accessorName "get" a g.style false = g.methodName h .get false)) := by
    have hf : Naming.accessorName "get" f.name g.style false = g.methodName h .get false := heq
    have hh : Naming.accessorName "get" h.name g.style false = g.methodName h .get false := rfl
    simpa [hf, hh] using (hs.map Field.name).filter fun a =>
      decide (Naming.accessorName "get" a g.style false = g.methodName h .get false)
  refine ⟨_, mem_warnings_sharedAccessor.mpr ⟨rfl, ?_⟩, ?_, ?_⟩
  · exact hpair.length_le
  · exact hpair.subset List.mem_cons_self
  · exact hpair.subset (List.mem_cons_of_mem _ List.mem_cons_self)

/-- Methods of one verb and one kind stand in the order of their fields. -/
theorem field_sublist {g : Generator} {fs : List Field} {ms : List Method} (h : g.methods fs = .ok ms)
    {m n : Method} (hs : [m, n].Sublist ms) (ha : m.access = n.access)
    (hx : m.isAsync = n.isAsync) : [m.field, n.field].Sublist fs := by
  have hpair := (hs.filter fun k => decide (k.access = n.access) && decide (k.isAsync = n.isAsync)).map
    Method.field
  rw [methods_filter_map_field h] at hpair
  simp only [ha, hx, decide_true, Bool.and_self, List.filter_cons_of_pos, List.filter_nil,
    List.map_cons, List.map_nil] at hpair
  exact hpair.trans List.filter_sublist

/-- A field and one with twins, the blocking accessors of the first being called like those twins. -/
def TwinClash (g : Generator) (s : Schema) (f h : Field) : Prop :=
  f ∈ s.fields ∧ h ∈ s.fields ∧ f.isAsync = true ∧
    g.methodName h .get false = g.methodName f .get true

theorem TwinClash.exists_methods {g : Generator} {s : Schema} {ms : List Method}
    (hms : g.methods s.fields = .ok ms) {f h : Field} (hc : g.TwinClash s f h) :
    ∃ m n, m.field = f ∧ n.field = h ∧ m.isAsync = true ∧ n.isAsync = false ∧ m.name = n.name ∧
      ([m, n].Sublist ms ∨ [n, m].Sublist ms) := by
  obtain ⟨hf, hh, hasync, heq⟩ := hc
  obtain ⟨m, hm, hmf, hma, hmx⟩ := exists_method hms hf .get (x := true) fun _ => hasync
  obtain ⟨n, hn, hnf, hna, hnx⟩ := exists_method hms hh .get (x := false) (by simp)
  refine ⟨m, n, hmf, hnf, hmx, hnx, ?_, sublist_pair_or hm hn ?_⟩
  · rw [(mem_methods hms hm).2.2.1, (mem_methods hms hn).2.2.1, hmf, hnf, hma, hna, hmx, hnx, heq]
  · rintro rfl
    rw [hmx] at hnx
    cases hnx

/-- A method that does not block and a blocking one that share a name clash. -/
theorem twinClash_of_name_eq {g : Generator} {s : Schema} {ms : List Method}
    (hms : g.methods s.fields = .ok ms) {m n : Method} (hm : m ∈ ms) (hn : n ∈ ms)
    (hname : m.name = n.name) (hmx : m.isAsync = true) (hnx : n.isAsync = false) :
    g.TwinClash s m.field n.field := by
  obtain ⟨hmf, -, hmname, hasync⟩ := mem_methods hms hm
  obtain ⟨hnf, -, hnname, -⟩ := mem_methods hms hn
  rw [hmname, hnname] at hname
  obtain ⟨-, hstem⟩ := (g.methodName_eq_iff _ _ _ _ _ _).mp hname
  rw [hmx, hnx] at hstem
  exact ⟨hmf, hnf, (hasync hmx).1, (g.methodName_eq_iff _ _ _ _ _ _).mpr ⟨rfl, hstem.symm⟩⟩

/-- Two methods of one name have one verb, and are of one kind when their fields are reported. -/
theorem reports_iff_of_name_eq {g : Generator} {s : Schema} {ms : List Method}
    (hms : g.methods s.fields = .ok ms) {m n : Method} (hs : [m, n].Sublist ms)
    (hname : m.name = n.name) :
    m.access = n.access ∧
      ((∃ name, g.Reports s name m.field n.field) ↔ m.isAsync = n.isAsync) := by
  have hm := (mem_methods hms (hs.subset List.mem_cons_self)).2.2.1
  have hn := (mem_methods hms (hs.subset (List.mem_cons_of_mem _ List.mem_cons_self))).2.2.1
  rw [hm, hn] at hname
  obtain ⟨ha, hstem⟩ := (g.methodName_eq_iff _ _ _ _ _ _).mp hname
  refine ⟨ha, ?_, ?_⟩
  · rintro ⟨name, hr⟩
    obtain ⟨hf, hh⟩ := hr.getter
    have hg := ((g.methodName_eq_iff _ _ _ _ _ _).mp (hf.trans hh.symm)).2
    rw [Text.append_left_inj] at hg
    rw [hg] at hstem
    exact Naming.twinMark_inj ((Text.append_right_inj _).mp hstem)
  · intro hx
    rw [ha, hx, methodName_eq_iff_getter] at hname
    exact ⟨_, reports_of_sublist (field_sublist hms hs ha hx) hname⟩

/-- A warning under the shared name itself is one about two blocking getters. -/
theorem reports_name_iff_of_name_eq {g : Generator} {s : Schema} {ms : List Method}
    (hms : g.methods s.fields = .ok ms) {m n : Method} (hs : [m, n].Sublist ms)
    (hname : m.name = n.name) :
    g.Reports s m.name m.field n.field ↔
      m.access = .get ∧ m.isAsync = false ∧ n.isAsync = false := by
  have hm := (mem_methods hms (hs.subset List.mem_cons_self)).2.2.1
  have hn := (mem_methods hms (hs.subset (List.mem_cons_of_mem _ List.mem_cons_self))).2.2.1
  constructor
  · intro hr
    obtain ⟨hf, hh⟩ := hr.getter
    obtain ⟨hget, hsync⟩ := methodName_self_inj (hf.trans hm)
    obtain ⟨-, hsync'⟩ := methodName_self_inj (hh.trans (hname.trans hn))
    exact ⟨hget.symm, hsync.symm, hsync'.symm⟩
  · rintro ⟨hget, hmx, hnx⟩
    have ha := (reports_iff_of_name_eq hms hs hname).1
    have hmg : m.name = g.methodName m.field .get false := by rw [hm, hget, hmx]
    have hng : n.name = g.methodName n.field .get false := by rw [hn, ← ha, hget, hnx]
    rw [hname, hng]
    exact reports_of_sublist (field_sublist hms hs ha (hmx.trans hnx.symm))
      (by rw [← hmg, ← hng, hname])

/-- Two methods of one class that share a name share their verb. A warning lists their fields exactly
when both block or neither does, and bears their own name exactly when both are blocking getters. So
a class overrides one of its accessors without a word exactly when a twin of one field is called like
a blocking accessor of another. -/
theorem overridden_unreported_iff {g : Generator} {s : Schema} {c : AccessorClass}
    (hc : g.accessorClass s = .ok c) :
    (∀ m n, [m, n].Sublist c.methods → m.name = n.name →
      m.access = n.access ∧
      ((∃ name, g.Reports s name m.field n.field) ↔ m.isAsync = n.isAsync) ∧
      (g.Reports s m.name m.field n.field ↔
        m.access = .get ∧ m.isAsync = false ∧ n.isAsync = false)) ∧
    ((∃ m n, [m, n].Sublist c.methods ∧ m.name = n.name ∧
        ¬ ∃ name, g.Reports s name m.field n.field) ↔
      ∃ f h, g.TwinClash s f h) := by
  have hms := (accessorClass_eq_ok.mp hc).2.1
  refine ⟨fun m n hs hname => ?_, ?_, ?_⟩
  · obtain ⟨ha, hx⟩ := reports_iff_of_name_eq hms hs hname
    exact ⟨ha, hx, reports_name_iff_of_name_eq hms hs hname⟩
  · rintro ⟨m, n, hs, hname, hun⟩
    have hm : m ∈ c.methods := hs.subset List.mem_cons_self
    have hn : n ∈ c.methods := hs.subset (List.mem_cons_of_mem _ List.mem_cons_self)
    obtain ⟨-, hx⟩ := reports_iff_of_name_eq hms hs hname
    have hne : m.isAsync ≠ n.isAsync := fun he => hun (hx.mpr he)
    cases hma : m.isAsync with
    | true =>
      have hna : n.isAsync = false := by simpa [hma] using hne
      exact ⟨_, _, twinClash_of_name_eq hms hm hn hname hma hna⟩
    | false =>
      have hna : n.isAsync = true := by simpa [hma] using hne
      exact ⟨_, _, twinClash_of_name_eq hms hn hm hname.symm hna hma⟩
  · rintro ⟨f, h, hclash⟩
    obtain ⟨m, n, rfl, rfl, hmx, hnx, hname, hs | hs⟩ := hclash.exists_methods hms
    · refine ⟨m, n, hs, hname, fun hr => ?_⟩
      have := (reports_iff_of_name_eq hms hs hname).2.mp hr
      rw [hmx, hnx] at this
      cases this
    · refine ⟨n, m, hs, hname.symm, fun hr => ?_⟩
      have := (reports_iff_of_name_eq hms hs hname.symm).2.mp hr
      rw [hmx, hnx] at this
      cases this

/-- A theme with twins beside one whose name ends like them. -/
def themeFields : List Field := [
  ⟨"theme", "t", .string, none, true⟩, ⟨"themeAsync", "ta", .string, none, false⟩]

/-- The class of these fields has two pairs of methods with one name, and nothing is reported. -/
theorem theme_twins_overridden :
    let g : Generator := ⟨{}, .python true, true, 4294967296⟩
    let s : Schema := ⟨"Shared", "", "Shared", themeFields, none⟩
    ((g.accessorClass s).toOption.map fun c => c.methods.map Method.name) =
      some (["getTheme", "setTheme", "getThemeAsync", "setThemeAsync", "getThemeAsync",
        "setThemeAsync"] : List Text) ∧
    g.warnings s = [] := by
  decide +kernel

theorem theme_twins_overridden_unreported :
    let g : Generator := ⟨{}, .python true, true, 4294967296⟩
    let s : Schema := ⟨"Shared", "", "Shared", themeFields, none⟩
    ∃ c, g.accessorClass s = .ok c ∧ ∃ m n, [m, n].Sublist c.methods ∧ m.name = n.name ∧
      ¬ ∃ name, g.Reports s name m.field n.field := by
  intro g s
  have hclash : g.TwinClash s ⟨"theme", "t", .string, none, true⟩
      ⟨"themeAsync", "ta", .string, none, false⟩ :=
    ⟨by decide, by decide, rfl, by decide +kernel⟩
  cases hc : g.accessorClass s with
  | error e =>
    have hok : (g.accessorClass s).toOption.isSome = true := by decide +kernel
    rw [hc] at hok
    cases hok
  | ok c => exact ⟨c, rfl, (overridden_unreported_iff hc).2.mpr ⟨_, _, hclash⟩⟩

end Generator

end PrefAccessor
