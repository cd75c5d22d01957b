import PrefAccessor.Proofs.AccessorRefinement
import PrefAccessor.Proofs.EncodedText
import PrefAccessor.Proofs.SharedKeys

/-!
# Generated accessors over fresh stores

The class of a schema that passes its check has an instance that acts as a plain map from fields to
values: a getter answers what its field was given last, or the default. The bodies that stand in the
text for its methods read back as the statements that the instance runs.
-/

namespace PrefAccessor

set_option autoImplicit false

namespace AccessorCall

/-- The values given to a field, in the order of the calls. -/
def given (cs : List AccessorCall) (f : Field) : List PrefValue :=
  cs.filterMap fun c => if c.field = f then c.value else none

def lastGiven (cs : List AccessorCall) (f : Field) : Option PrefValue :=
  (given cs f).getLast?

theorem lastGiven_cons (c : AccessorCall) (cs : List AccessorCall) (f : Field) :
    lastGiven (c :: cs) f =
      (lastGiven cs f).or (if c.field = f then c.value else none) := by
  unfold lastGiven given
  rw [List.filterMap_cons]
  cases (if c.field = f then c.value else none) with
  | none => rw [Option.or_none]
  | some v =>
    rw [List.getLast?_cons]
    cases (cs.filterMap fun c => if c.field = f then c.value else none).getLast? <;> rfl

end AccessorCall

/-- What a getter of the field answers after the calls: the value given last, or the default where
there is none or it is the absent one. -/
def Field.answerAfter (f : Field) (cs : List AccessorCall) : Attempt DefaultProblem PrefValue :=
  match AccessorCall.lastGiven cs f with
  | none => f.defaultValue
  | some v => if v = .absent then f.defaultValue else .ok v

namespace FieldMap

theorem perform_of_ne (m : FieldMap) {c : AccessorCall} {f : Field} (h : f ≠ c.field) :
    (m.perform c).1 f = m f := by
  unfold perform
  cases c.value with
  | none => rfl
  | some v => exact give_of_ne m h v

theorem answer_perform_of_ne (m : FieldMap) {c : AccessorCall} {f : Field} (h : f ≠ c.field) :
    (m.perform c).1.answer f = m.answer f := by
  rw [answer, answer, perform_of_ne m h]

theorem performAll_apply (m : FieldMap) (cs : List AccessorCall) (f : Field) :
    (m.performAll cs).1 f =
      match AccessorCall.lastGiven cs f with
      | none => m f
      | some v => if v = .absent then none else some v := by
  induction cs generalizing m with
  | nil => rfl
  | cons c cs ih =>
    rw [performAll, ih, AccessorCall.lastGiven_cons]
    cases AccessorCall.lastGiven cs f with
    | some v => rfl
    | none =>
      rw [Option.none_or]
      by_cases hf : c.field = f
      · subst hf
        cases hv : c.value <;> simp [perform, hv, give_self]
      · rw [if_neg hf, perform_of_ne m (Ne.symm hf)]

theorem answer_performAll_empty (cs : List AccessorCall) (f : Field) :
    (empty.performAll cs).1.answer f = f.answerAfter cs := by
  rw [answer, performAll_apply, Field.answerAfter]
  cases AccessorCall.lastGiven cs f with
  | none => rfl
  | some v => by_cases hv : v = .absent <;> simp [hv]

end FieldMap

namespace Schema

/-- The schema is what a document or a class declares. -/
def IsDeclared (s : Schema) : Prop :=
  (∃ data package, ofDocument data package = .ok s) ∨ ∃ c package, ofClass c package = .ok s

theorem IsDeclared.hasDefaults {s : Schema} (h : s.IsDeclared) : s.HasDefaults := by
  rcases h with ⟨data, package, h⟩ | ⟨c, package, h⟩
  · exact (ofDocument_eq_ok h).2.2
  · exact (ofClass_eq_ok h).2.2

end Schema

namespace Accessor

/-- The instance acts as the plain map on calls that fit the schema. -/
structure ActsAsMap (g : Generator) (s : Schema) (a : Accessor) : Prop where
  /-- The calls return, one after another, what they return on the map. -/
  answers : ∀ cs : List AccessorCall, (∀ c ∈ cs, c.Fits s) →
    ∃ values : List PrefValue, (a.performAll g cs).2 = values.map .ok ∧
      (FieldMap.empty.performAll cs).2 = values.map .ok
  /-- Both getters of a field answer what the field was given last. -/
  getter : ∀ cs : List AccessorCall, (∀ c ∈ cs, c.Fits s) → ∀ f ∈ s.fields, ∀ x : Bool,
    (x = true → f.isAsync = true) → ∃ v, f.answerAfter cs = .ok v ∧
      ((a.performAll g cs).1.perform g ⟨f, x, none⟩).2 = .ok v
  /-- No call alters what the getters of another field answer. -/
  others : ∀ cs : List AccessorCall, (∀ c ∈ cs, c.Fits s) → ∀ c : AccessorCall, c.Fits s →
    ∀ f ∈ s.fields, f ≠ c.field → ∀ x : Bool, (x = true → f.isAsync = true) →
      (((a.performAll g cs).1.perform g c).1.perform g ⟨f, x, none⟩).2 =
        ((a.performAll g cs).1.perform g ⟨f, x, none⟩).2
  /-- No store but that of the schema is open. -/
  opened : ∀ cs : List AccessorCall, (∀ c ∈ cs, c.Fits s) →
    Entries.keys (a.performAll g cs).1.stores.stores = [s.storeName]

variable {g : Generator} {s : Schema} {ms : List Method} {a : Accessor}

theorem fits_getter {f : Field} (hf : f ∈ s.fields) {x : Bool}
    (hx : x = true → f.isAsync = true) : (⟨f, x, none⟩ : AccessorCall).Fits s :=
  ⟨hf, hx, fun _ hv => nomatch hv⟩

theorem Refines.actsAsMap (hms : g.methods s.fields = .ok ms) (hnodup : (ms.map Method.name).Nodup)
    (hkeys : (s.fields.map Field.key).Nodup) (h : a.Refines s ms FieldMap.empty) :
    a.ActsAsMap g s where
  answers := by
    intro cs hcs
    obtain ⟨values, hvalues, hvalues', -⟩ := h.performAll hms hnodup hkeys hcs
    exact ⟨values, hvalues, hvalues'⟩
  getter := by
    intro cs hcs f hf x hx
    obtain ⟨-, -, -, hafter⟩ := h.performAll hms hnodup hkeys hcs
    obtain ⟨v, hv, hv', -⟩ := hafter.perform hms hnodup hkeys (fits_getter hf hx)
    rw [← FieldMap.answer_performAll_empty]
    exact ⟨v, hv', hv⟩
  others := by
    intro cs hcs c hc f hf hne x hx
    obtain ⟨-, -, -, hafter⟩ := h.performAll hms hnodup hkeys hcs
    obtain ⟨-, -, -, hnext⟩ := hafter.perform hms hnodup hkeys hc
    obtain ⟨v, hv, hv', -⟩ := hafter.perform hms hnodup hkeys (fits_getter hf hx)
    obtain ⟨w, hw, hw', -⟩ := hnext.perform hms hnodup hkeys (fits_getter hf hx)
    have hanswer : (Except.ok w : Attempt DefaultProblem PrefValue) = .ok v :=
      calc Except.ok w = ((FieldMap.empty.performAll cs).1.perform c).1.answer f := hw'.symm
        _ = (FieldMap.empty.performAll cs).1.answer f := FieldMap.answer_perform_of_ne _ hne
        _ = .ok v := hv'
    rw [hv, hw]
    exact congrArg _ (Except.ok.inj hanswer)
  opened := by
    intro cs hcs
    obtain ⟨-, -, -, hafter⟩ := h.performAll hms hnodup hkeys hcs
    obtain ⟨values, hopened⟩ := hafter.opened
    rw [hopened]
    rfl

theorem ofArtifact_eq_ok {artifact : Artifact} {n : Int}
    (hencodable : artifact.source.isEncodable = true) (hpython : artifact.target = .python)
    (hclass : isClassName artifact.accessorClass.name = true)
    (hsize : g.settings.indentSize = .int n) (hpos : 1 ≤ n) {indent : Text}
    (hindent : g.indent = .ok indent) :
    ofArtifact g artifact = .ok ⟨artifact.accessorClass.methods, artifact.accessorClass.schema.storeName,
      MemoryStores.empty.openStore artifact.accessorClass.schema.storeName⟩ := by
  have hne : indent ≠ "" := by
    intro hempty
    subst hempty
    simp only [Generator.indent, Settings.indent, hsize, Settings.blanks] at hindent
    split at hindent
    · cases hindent
    · split at hindent
      · cases hindent
      · have hlist := congrArg Text.toList (Except.ok.inj hindent)
        have hlength := congrArg List.length hlist
        rw [Text.toList_ofList, List.length_replicate] at hlength
        have hzero : n.toNat = 0 := hlength
        omega
  simp [ofArtifact, hencodable, hpython, hclass, hindent, hne]

theorem isEncodable_className {name : Text} (h : isClassName name = true) :
    name.isEncodable = true :=
  Text.isEncodable_of_isIdentifier (Bool.and_eq_true_iff.mp h).1

theorem refines_fresh (s : Schema) (ms : List Method) :
    Refines s ms ⟨ms, s.storeName, MemoryStores.empty.openStore s.storeName⟩ FieldMap.empty where
  methods := rfl
  store := rfl
  opened := ⟨[], rfl⟩
  held := by
    intro f _
    have hopened : (MemoryStores.empty.openStore s.storeName).stores = [(s.storeName, [])] := rfl
    simp [Accessor.values, MemoryStores.values_of_opened hopened, Entries.find?, FieldMap.empty]
  typed := fun _ _ _ hv => nomatch hv

end Accessor

namespace Generator

/-- The class of a declared schema that passes its check has an instance, which acts as the plain
map. Its text ends with the members of the class, in which the name of the store and the bodies of the
methods read back as what the instance opens and runs. -/
theorem generate_actsAsMap {g : Generator} {s : Schema} {n : Int} (hg : g.WellTyped)
    (hpython : g.target = .python) (hsize : g.settings.indentSize = .int n) (hpos : 1 ≤ n)
    (hdeclared : s.IsDeclared) (hvalid : s.validate false = none)
    (hencodable : s.HasEncodableTexts)
    (hfloat : ∀ f ∈ s.fields, ∀ x, f.defaultValue = .ok (.float x) → Python.FloatReads x) :
    (g.hasTemplate = true ∧ n ≤ g.room ∧ n < Settings.countLimit →
      ∃ artifact, g.generate s = .ok artifact) ∧
    ∀ artifact, g.generate s = .ok artifact →
      Accessor.isClassName artifact.accessorClass.name = true →
      (artifact.accessorClass.methods.map Method.name).Nodup →
      (∃ o before, g.indent = .ok o.indent ∧
        (artifact.source.toList.splitOn (char '\n')).map Text.ofList =
          before ++ Python.classMembers o artifact.accessorClass ++ ([""] : List Text)) ∧
      (∀ m ∈ artifact.accessorClass.methods, Text.isIdentifier m.name.toList = true ∧
        Python.reserved.keywords.contains m.name = false ∧
        (Python.body m).map Python.Statement.read? = (Python.statements m).map some) ∧
      Python.readString? (Python.stringLiteral artifact.accessorClass.schema.storeName).toList =
        some s.storeName ∧
      ∃ a, Accessor.ofArtifact g artifact = .ok a ∧ a.ActsAsMap g s := by
  constructor
  · rintro ⟨htemplate, hroom, hlimit⟩
    rcases hg.generate s with ⟨e, hms, -⟩ | ⟨ms, -, ⟨k, hindent, -⟩ | ⟨indent, -, hmade⟩⟩
    · obtain ⟨ms, hms'⟩ : ∃ ms, g.methods s.fields = .ok ms :=
        methods_ok_iff.mpr hdeclared.hasDefaults
      rw [hms] at hms'
      cases hms'
    · obtain ⟨n', hn', hcases⟩ := hg.indent_eq_error.mp hindent
      obtain rfl : n = n' := Json.int.inj (hsize.symm.trans hn')
      unfold Settings.leastCount Settings.countLimit at *
      omega
    · rw [if_pos htemplate] at hmade
      exact hmade
  · intro artifact hmade hclass hnodup
    obtain ⟨hc, htarget, indent, hindent⟩ := generate_eq_ok hmade
    obtain ⟨-, hms, hschema, -⟩ := accessorClass_eq_ok.mp hc
    refine ⟨Python.source_ends_with_members hpython hmade, ?_, ?_, ?_⟩
    · intro m hm
      obtain ⟨hfield, hdefault, hname, htwin⟩ := mem_methods hms hm
      refine ⟨?_, ?_, Python.read?_body (hencodable.keys m.field hfield) ?_ ?_⟩
      · rw [hname]
        exact Naming.isIdentifier_accessorName _ _ _ _
      · rw [hname]
        exact Naming.accessorName_not_mem_keywords _ _ _ _
      · refine Python.hasLiteral_of_defaultValue hdefault (fun t ht => ?_) fun x hx => ?_
        · exact hencodable.defaults m.field hfield t (ht ▸ hdefault)
        · exact hfloat m.field hfield x (hx ▸ hdefault)
      · intro twin hsome
        have hasync : m.isAsync = true := by rw [Method.isAsync, hsome]; rfl
        have heq : twin = g.methodName m.field m.access false :=
          Option.some.inj (hsome.symm.trans (htwin hasync).2)
        rw [heq]
        exact ⟨Naming.isIdentifier_accessorName _ _ _ _, Naming.isWord_accessorName _ _ _ _⟩
    · obtain ⟨store, hstore⟩ := Text.isEncodable_iff.mp hencodable.store
      rw [hschema, hstore]
      exact Python.readString?_stringLiteral store
    · have hsource := isEncodable_source hpython hencodable hmade (Accessor.isEncodable_className hclass)
      refine ⟨_, Accessor.ofArtifact_eq_ok hsource (htarget.trans hpython) hclass hsize hpos hindent, ?_⟩
      rw [hschema]
      exact (Accessor.refines_fresh s _).actsAsMap hms hnodup (Schema.nodup_keys_of_validate hvalid)

def sessionDocument : Json :=
  .object [("name", .string "Session"), ("fields", .array [
    .object [("key", .string "zoom"), ("type", .string "float"), ("default", .string "1.5"),
      ("async", .bool true)],
    .object [("key", .string "tags"), ("type", .string "set<string>")]])]

def sessionSchema : Schema where
  name := "Session"
  package := ""
  storeName := "Session"
  fields := [⟨"zoom", "zoom", .float, some "1.5", true⟩, ⟨"tags", "tags", .stringSet, none, false⟩]
  description := none

theorem session_actsAsMap :
    ∃ artifact a, standard.generate sessionSchema = .ok artifact ∧
      Accessor.ofArtifact standard artifact = .ok a ∧ a.ActsAsMap standard sessionSchema := by
  have hdeclared : sessionSchema.IsDeclared := Or.inl ⟨sessionDocument, .null, by decide +kernel⟩
  have hzoom : PrefType.defaultValue .float (some "1.5") =
      .ok (.float (.finite false 6755399441055744 (-52))) := by decide +kernel
  have hfloat : ∀ f ∈ sessionSchema.fields, ∀ x, f.defaultValue = .ok (.float x) →
      Python.FloatReads x := by
    intro f hf x hx
    rcases List.mem_cons.mp hf with rfl | hf
    · cases hx.symm.trans hzoom
      unfold Python.FloatReads
      decide +kernel
    · rw [List.mem_singleton.mp hf] at hx
      cases hx
  have hencodable : sessionSchema.HasEncodableTexts := by decide +kernel
  obtain ⟨hmade, hacts⟩ := generate_actsAsMap standard_wellTyped rfl rfl (by decide) hdeclared
    (by decide +kernel) hencodable hfloat
  obtain ⟨artifact, hartifact⟩ := hmade ⟨rfl, by decide, by decide⟩
  obtain ⟨hc, -⟩ := generate_eq_ok hartifact
  obtain ⟨-, hms, -, hname⟩ := accessorClass_eq_ok.mp hc
  have hclass : Accessor.isClassName artifact.accessorClass.name = true := by
    rw [hname]
    decide +kernel
  have hnames : (standard.methods sessionSchema.fields).map (List.map Method.name) =
      .ok (["getZoom", "setZoom", "getZoomAsync", "setZoomAsync", "getTags", "setTags"] :
        List Text) := by
    decide +kernel
  have hnodup : (artifact.accessorClass.methods.map Method.name).Nodup := by
    rw [hms] at hnames
    rw [Except.ok.inj hnames]
    decide
  obtain ⟨-, -, -, a, ha, hmap⟩ := hacts artifact hartifact hclass hnodup
  exact ⟨artifact, a, hartifact, ha, hmap⟩

end Generator

end PrefAccessor
