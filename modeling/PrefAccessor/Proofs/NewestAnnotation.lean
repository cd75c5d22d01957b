import PrefAccessor.Proofs.AttributeField
import PrefAccessor.Proofs.InheritedAnnotation

/-!
# The newest annotation of an attribute counts

A schema that is read from a class has one field for each of the attributes whose annotation has a key
attached, and nothing else of the other classes in its resolution order is seen in it. If there is none,
the first cause in the order in which the class is read says why.
-/

namespace PrefAccessor

set_option autoImplicit false

/-- A collection fails as the first of its members does that fails. -/
theorem Attempt.collect_eq_error_iff_first {ε β γ : Type} {f : γ → Attempt ε (List β)} {xs : List γ}
    {e : Failure ε} :
    collect f xs = .error e ↔
      ∃ before x after, xs = before ++ x :: after ∧ f x = .error e ∧
        ∀ y ∈ before, ∀ e', f y ≠ .error e' := by
  constructor
  · intro h
    obtain ⟨n, x, found, hn, htake, hx⟩ := collect_eq_error.mp h
    obtain ⟨hlt, rfl⟩ := List.getElem?_eq_some_iff.mp hn
    refine ⟨xs.take n, xs[n], xs.drop (n + 1), ?_, hx, ?_⟩
    · rw [← List.drop_eq_getElem_cons hlt, List.take_append_drop]
    · intro y hy e' he'
      obtain ⟨found', hy⟩ := ok_of_mem_collect htake hy
      rw [hy] at he'
      cases he'
  · rintro ⟨before, x, after, rfl, hx, hbefore⟩
    have hall : ∀ y ∈ before, ∃ found, f y = .ok found := by
      intro y hy
      cases h : f y with
      | ok found => exact ⟨found, rfl⟩
      | error e' => exact absurd h (hbefore y hy e')
    obtain ⟨found, hfound⟩ := collect_eq_ok_of_forall hall
    exact collect_eq_error.mpr ⟨before.length, x, found, by simp, by simpa using hfound, hx⟩

namespace ClassDeclaration

variable {aggregate name : Text} {a : Annotation}

theorem fieldsOf_eq_ok {l : List (Text × Annotation)} {fields : List Field} :
    fieldsOf aggregate l = .ok fields ↔
      List.Forall₂ (fun e f => f.name = e.1 ∧ f.IsTakenFrom e.2) (l.filter fun e => e.2.isKeyed)
        fields := by
  induction l generalizing fields with
  | nil => simp [fieldsOf, eq_comm]
  | cons e l ih =>
    rw [fieldsOf, Attempt.collect_cons_eq_ok]
    cases hkeyed : e.2.isKeyed with
    | false =>
      rw [List.filter_cons_of_neg (by simp [hkeyed]), ← ih]
      simp only [attributeField_of_not_isKeyed hkeyed, Except.ok.injEq]
      constructor
      · rintro ⟨found, rest, rfl, hrest, rfl⟩
        exact hrest
      · intro h
        exact ⟨[], fields, rfl, h, rfl⟩
    | true =>
      rw [List.filter_cons_of_pos (by simpa using hkeyed)]
      simp only [attributeField_eq_ok_of_isKeyed hkeyed]
      constructor
      · rintro ⟨found, rest, ⟨f, hname, hf, rfl⟩, hrest, rfl⟩
        exact .cons ⟨hname, hf⟩ (ih.mp hrest)
      · intro h
        cases h with
        | cons hf hrest => exact ⟨_, _, ⟨_, hf.1, hf.2, rfl⟩, ih.mpr hrest, rfl⟩

theorem names_of_taken {l : List (Text × Annotation)} {fields : List Field}
    (h : List.Forall₂ (fun e f => f.name = e.1 ∧ f.IsTakenFrom e.2) l fields) :
    fields.map Field.name = Entries.keys l ∧
      ∀ f ∈ fields, ∃ a, (f.name, a) ∈ l ∧ f.IsTakenFrom a := by
  induction h with
  | nil => exact ⟨rfl, fun f hf => absurd hf List.not_mem_nil⟩
  | @cons e f l fields hf _ ih =>
    obtain ⟨hname, hf⟩ := hf
    refine ⟨congrArg₂ List.cons hname ih.1, List.forall_mem_cons.mpr ⟨⟨e.2, ?_, hf⟩, ?_⟩⟩
    · rw [hname]
      exact List.mem_cons_self
    · intro f' hf'
      obtain ⟨a, hmem, ha⟩ := ih.2 f' hf'
      exact ⟨a, List.mem_cons_of_mem e hmem, ha⟩

/-- The first of the attributes that has a key and makes no field fails this way. -/
def FirstOffends (c : ClassDeclaration) (order : List ClassDeclaration) (e : Failure Refusal) : Prop :=
  ∃ before name after a, attributeNames order = before ++ name :: after ∧
    annotation? order name = some a ∧ AttributeFails c.name name a e ∧
    ∀ earlier ∈ before, ∀ b e', annotation? order earlier = some b →
      ¬ AttributeFails c.name earlier b e'

/-- The attributes whose newest annotation has a key attached. -/
def keyedNames (order : List ClassDeclaration) : List Text :=
  (attributeNames order).filter fun name => (annotation? order name).any Annotation.isKeyed

section Readable

variable {c : ClassDeclaration} {order : List ClassDeclaration} {annotations : Entries Text Annotation}
  (horder : c.resolutionOrder? = some order) (h : c.annotations = .ok annotations)

include horder h

theorem keys_filter_isKeyed :
    Entries.keys (annotations.filter fun e => e.2.isKeyed) = keyedNames order := by
  rw [Entries.keys_filter (nodup_keys_annotations horder h), (annotations_eq_ok horder h).1]
  simp only [(annotations_eq_ok horder h).2]
  rfl

theorem fieldsOf_eq_error_iff {e : Failure Refusal} :
    fieldsOf c.name annotations = .error e ↔ c.FirstOffends order e := by
  have hkeys := (annotations_eq_ok horder h).1
  rw [fieldsOf, Attempt.collect_eq_error_iff_first]
  simp only [attributeField_eq_error, ne_eq]
  constructor
  · rintro ⟨before, ⟨name, a⟩, after, rfl, hx, hbefore⟩
    refine ⟨Entries.keys before, name, Entries.keys after, a, ?_, ?_, hx, ?_⟩
    · rw [← hkeys, Entries.keys, List.map_append]
      rfl
    · exact (mem_annotations horder h).mp (by simp)
    · rintro earlier hmem b e' hb
      obtain ⟨y, hy, rfl⟩ := List.mem_map.mp hmem
      have hb' : annotation? order y.1 = some y.2 :=
        (mem_annotations horder h).mp (List.mem_append_left _ hy)
      obtain rfl := Option.some.inj (hb.symm.trans hb')
      exact hbefore y hy e'
  · rintro ⟨before, name, after, a, hsplit, ha, hfails, hbefore⟩
    rw [← hkeys, Entries.keys] at hsplit
    obtain ⟨l₁, l₂, rfl, rfl, hrest⟩ := List.map_eq_append_iff.mp hsplit
    obtain ⟨x, l₃, rfl, rfl, rfl⟩ := List.map_eq_cons_iff.mp hrest
    have hx : annotation? order x.1 = some x.2 := (mem_annotations horder h).mp (by simp)
    obtain rfl := Option.some.inj (ha.symm.trans hx)
    refine ⟨l₁, x, l₃, rfl, hfails, ?_⟩
    intro y hy e'
    exact hbefore y.1 (List.mem_map_of_mem hy) y.2 e'
      ((mem_annotations horder h).mp (List.mem_append_left _ hy))

theorem fieldsOf_eq_ok_annotations {fields : List Field}
    (hfields : fieldsOf c.name annotations = .ok fields) :
    fields.map Field.name = keyedNames order ∧
      ∀ f ∈ fields, ∃ a, annotation? order f.name = some a ∧ f.IsTakenFrom a := by
  obtain ⟨hnames, htaken⟩ := names_of_taken (fieldsOf_eq_ok.mp hfields)
  refine ⟨hnames.trans (keys_filter_isKeyed horder h), ?_⟩
  intro f hf
  obtain ⟨a, hmem, ha⟩ := htaken f hf
  exact ⟨a, (mem_annotations horder h).mp (List.mem_filter.mp hmem).1, ha⟩

end Readable

variable {c : ClassDeclaration} {order : List ClassDeclaration}

def IsTagged (c : ClassDeclaration) : Prop :=
  ∃ store, c.tag = some (.string store) ∧ store ≠ ""

/-- Why a class with this resolution order declares no schema, as it is found out. -/
inductive Fails (c : ClassDeclaration) (order : List ClassDeclaration) : Failure Refusal → Prop
  | untagged (h : c.tag = none) :
    Fails c order (.refused (.malformed (some c.name) (.untagged c.name)))
  | store {v : Json} (h : c.tag = some v) (hv : ∀ store, v = .string store → store = "") :
    Fails c order (.refused (.malformed (some c.name) (.storeName c.name)))
  | annotations {reason : Text} (htag : c.IsTagged) (h : FirstUnread order reason) :
    Fails c order (.refused (.malformed (some c.name) (.annotations c.name reason)))
  | field {e : Failure Refusal} (htag : c.IsTagged) (hread : IsReadable order)
    (h : c.FirstOffends order e) : Fails c order e
  | documentation (htag : c.IsTagged) (hread : IsReadable order)
    (hfields : ∀ e, ¬ c.FirstOffends order e) (h : c.HasBlankDocumentation) :
    Fails c order (.fault .outOfBounds)
  | empty (htag : c.IsTagged) (hread : IsReadable order) (hdoc : ¬ c.HasBlankDocumentation)
    (h : keyedNames order = []) : Fails c order (.refused ⟨.empty c.name, some c.name⟩)

theorem not_firstOffends_of_keyless (h : keyedNames order = []) (e : Failure Refusal) :
    ¬ c.FirstOffends order e := by
  rintro ⟨before, name, after, a, hsplit, ha, hfails, -⟩
  have hkeyed : a.isKeyed = true := by
    by_contra hnot
    have hok := attributeField_of_fails hfails
    rw [attributeField_of_not_isKeyed (Bool.eq_false_iff.mpr hnot)] at hok
    cases hok
  have hmem : name ∈ keyedNames order := by
    refine List.mem_filter.mpr ⟨?_, ?_⟩
    · rw [hsplit]
      simp
    · rw [ha]
      exact hkeyed
  rw [h] at hmem
  cases hmem

theorem storeName_eq_ok {store : Text} :
    c.storeName = .ok store ↔ c.tag = some (.string store) ∧ store ≠ "" := by
  unfold storeName
  cases c.tag with
  | none => simp [Attempt.refuse]
  | some v =>
    cases v with
    | string text =>
      by_cases hne : text = ""
      · simp only [hne, if_true, Attempt.refuse, reduceCtorEq, Option.some.injEq, Json.string.injEq,
          false_iff, not_and, not_not]
        exact Eq.symm
      · simp only [hne, if_false, Except.ok.injEq, Option.some.injEq, Json.string.injEq]
        exact ⟨fun h => ⟨h, h ▸ hne⟩, And.left⟩
    | _ => simp [Attempt.refuse]

theorem fields_of_storeName_error {e : Failure Refusal} (h : c.storeName = .error e) :
    c.fields = .error e := by
  rw [fields, h]
  rfl

theorem IsTagged.fields_eq (htag : c.IsTagged) {annotations : Entries Text Annotation}
    (h : c.annotations = .ok annotations) : c.fields = fieldsOf c.name annotations := by
  obtain ⟨store, hstore⟩ := htag
  rw [fields, storeName_eq_ok.mpr hstore, Attempt.ok_bind, h]

/-- What the fields of a class are, if there are any to be had. -/
structure Declares (c : ClassDeclaration) (order : List ClassDeclaration) (fields : List Field) :
    Prop where
  tagged : c.IsTagged
  readable : IsReadable order
  sound : ∀ e, ¬ c.FirstOffends order e
  names : fields.map Field.name = keyedNames order
  taken : ∀ f ∈ fields, ∃ a, annotation? order f.name = some a ∧ f.IsTakenFrom a

section Fields

variable (horder : c.resolutionOrder? = some order)

include horder

theorem declares_of_fields {fields : List Field} (h : c.fields = .ok fields) :
    c.Declares order fields := by
  obtain ⟨store, hstore, hrest⟩ := Attempt.bind_eq_ok.mp h
  cases hread : c.annotations with
  | error reason =>
    rw [hread] at hrest
    cases hrest
  | ok annotations =>
    rw [hread] at hrest
    change fieldsOf c.name annotations = .ok fields at hrest
    obtain ⟨hnames, htaken⟩ := fieldsOf_eq_ok_annotations horder hread hrest
    refine ⟨⟨store, storeName_eq_ok.mp hstore⟩, (isReadable_iff horder).mpr ⟨annotations, hread⟩, ?_,
      hnames, htaken⟩
    intro e he
    have herror := (fieldsOf_eq_error_iff horder hread).mpr he
    rw [hrest] at herror
    cases herror

theorem exists_fields (htag : c.IsTagged) (hread : IsReadable order)
    (hfields : ∀ e, ¬ c.FirstOffends order e) : ∃ fields, c.fields = .ok fields := by
  obtain ⟨annotations, hread⟩ := (isReadable_iff horder).mp hread
  rw [htag.fields_eq hread]
  cases hf : fieldsOf c.name annotations with
  | error e => exact absurd ((fieldsOf_eq_error_iff horder hread).mp hf) (hfields e)
  | ok fields => exact ⟨fields, rfl⟩

end Fields

theorem ofClass_of_fields_error {package : Option Text} {e : Failure Refusal}
    (h : c.fields = .error e) : Schema.ofClass c package = .error e := by
  rw [Schema.ofClass, h]
  rfl

theorem ofClass_of_fields {package : Option Text} {store : Text} (htag : c.tag = some (.string store))
    (hne : store ≠ "") {fields : List Field} (h : c.fields = .ok fields) :
    Schema.ofClass c package = Attempt.ofFaults c.description >>= fun description =>
      if fields = [] then Attempt.refuse ⟨.empty c.name, some c.name⟩
      else .ok ⟨c.name, package.getD c.moduleName, store, fields, description⟩ := by
  rw [Schema.ofClass, h, Attempt.ok_bind, storeName_eq_ok.mpr ⟨htag, hne⟩, Attempt.ok_bind]

/-- What is declared by the class itself and by the newest annotations is the same, whatever else the
classes of the two orders hold. -/
structure LooksLike (d : ClassDeclaration) (order' : List ClassDeclaration) (c : ClassDeclaration)
    (order : List ClassDeclaration) : Prop where
  name : d.name = c.name
  tag : d.tag = c.tag
  documentation : d.documentation = c.documentation
  moduleName : d.moduleName = c.moduleName
  names : attributeNames order' = attributeNames order
  newest : ∀ name ∈ attributeNames order, annotation? order' name = annotation? order name
  readable : IsReadable order' ∧ IsReadable order

section OfClass

variable (horder : c.resolutionOrder? = some order) {package : Option Text}

include horder

theorem Fails.ofClass_eq {e : Failure Refusal} (h : c.Fails order e) :
    Schema.ofClass c package = .error e := by
  cases h with
  | untagged h =>
    apply ofClass_of_fields_error
    apply fields_of_storeName_error
    rw [storeName, h]
    rfl
  | @store v h hv =>
    apply ofClass_of_fields_error
    apply fields_of_storeName_error
    rw [storeName, h]
    cases v with
    | string text =>
      rw [hv text rfl]
      rfl
    | _ => rfl
  | annotations htag h =>
    obtain ⟨store, hstore⟩ := htag
    apply ofClass_of_fields_error
    rw [fields, storeName_eq_ok.mpr hstore, Attempt.ok_bind, (annotations_eq_error horder).mpr h]
    rfl
  | field htag hread h =>
    obtain ⟨annotations, hread⟩ := (isReadable_iff horder).mp hread
    apply ofClass_of_fields_error
    rw [htag.fields_eq hread]
    exact (fieldsOf_eq_error_iff horder hread).mpr h
  | documentation htag hread hfields h =>
    obtain ⟨fields, hf⟩ := exists_fields horder htag hread hfields
    obtain ⟨store, hstore, hne⟩ := htag
    rw [ofClass_of_fields hstore hne hf, description_eq_error.mpr ⟨rfl, h⟩]
    rfl
  | empty htag hread hdoc h =>
    obtain ⟨fields, hf⟩ := exists_fields horder htag hread (not_firstOffends_of_keyless h)
    obtain ⟨store, hstore, hne⟩ := htag
    have hnil : fields = [] := List.map_eq_nil_iff.mp ((declares_of_fields horder hf).names.trans h)
    rw [ofClass_of_fields hstore hne hf]
    cases hd : c.description with
    | error k => exact absurd (description_eq_error.mp hd).2 hdoc
    | ok d =>
      rw [hnil]
      rfl

theorem ok_or_fails_of_fields (package : Option Text) {store : Text}
    (htag : c.tag = some (.string store)) (hne : store ≠ "") (hread : IsReadable order)
    (hfields : ∀ e, ¬ c.FirstOffends order e) :
    (∃ s, Schema.ofClass c package = .ok s) ∨ ∃ e, c.Fails order e := by
  obtain ⟨fields, hf⟩ := exists_fields horder ⟨store, htag, hne⟩ hread hfields
  cases hd : c.description with
  | error k =>
    have hblank := (description_eq_error.mp hd).2
    exact Or.inr ⟨_, .documentation ⟨store, htag, hne⟩ hread hfields hblank⟩
  | ok d =>
    by_cases hnil : keyedNames order = []
    · refine Or.inr ⟨_, .empty ⟨store, htag, hne⟩ hread ?_ hnil⟩
      intro hblank
      rw [description_eq_error.mpr ⟨rfl, hblank⟩] at hd
      cases hd
    · have hnames : fields.map Field.name = keyedNames order := (declares_of_fields horder hf).names
      have hsome : fields ≠ [] := by
        rintro rfl
        exact hnil hnames.symm
      rw [ofClass_of_fields htag hne hf, hd]
      exact Or.inl ⟨_, if_neg hsome⟩

theorem ok_or_fails (package : Option Text) :
    (∃ s, Schema.ofClass c package = .ok s) ∨ ∃ e, c.Fails order e := by
  cases htag : c.tag with
  | none => exact Or.inr ⟨_, .untagged htag⟩
  | some v =>
    by_cases hstore : ∃ store, v = .string store ∧ store ≠ ""
    · obtain ⟨store, rfl, hne⟩ := hstore
      cases hread : c.annotations with
      | error reason =>
        have hunread := (annotations_eq_error horder).mp hread
        exact Or.inr ⟨_, .annotations ⟨store, htag, hne⟩ hunread⟩
      | ok annotations =>
        have hread : IsReadable order := (isReadable_iff horder).mpr ⟨annotations, hread⟩
        by_cases hfields : ∃ e, c.FirstOffends order e
        · obtain ⟨e, he⟩ := hfields
          exact Or.inr ⟨e, .field ⟨store, htag, hne⟩ hread he⟩
        · have hfields : ∀ e, ¬ c.FirstOffends order e := fun e he => hfields ⟨e, he⟩
          exact ok_or_fails_of_fields horder package htag hne hread hfields
    · refine Or.inr ⟨_, .store htag ?_⟩
      intro store hv
      by_contra hne
      exact hstore ⟨store, hv, hne⟩

theorem LooksLike.ofClass_eq {d : ClassDeclaration} {order' : List ClassDeclaration}
    (horder' : d.resolutionOrder? = some order') (h : d.LooksLike order' c order) :
    Schema.ofClass d package = Schema.ofClass c package := by
  obtain ⟨as, hd⟩ := (isReadable_iff horder').mp h.readable.1
  obtain ⟨bs, hc⟩ := (isReadable_iff horder).mp h.readable.2
  have hsame : as = bs := by
    rw [annotations_eq_map horder' hd, annotations_eq_map horder hc, h.names]
    refine List.map_congr_left fun name hname => ?_
    rw [h.newest name hname]
  simp only [Schema.ofClass, ClassDeclaration.fields, ClassDeclaration.storeName,
    ClassDeclaration.description, hd, hc, hsame, h.name, h.tag, h.documentation, h.moduleName]

end OfClass

end ClassDeclaration

open ClassDeclaration in
/-- A class declares one field for each attribute whose newest annotation has a key attached, in the
order in which the attributes first occur from the last class of its resolution order on, or it fails
as the first of these attributes does that makes no field. Of its ancestors only the annotations count
that are not superseded. -/
theorem Schema.ofClass_newest {c : ClassDeclaration} {order : List ClassDeclaration}
    (horder : c.resolutionOrder? = some order) (package : Option Text) :
    c.ResolvesIn order ∧
    (∀ s, ofClass c package = .ok s →
      s.name = c.name ∧ s.package = package.getD c.moduleName ∧
      c.tag = some (.string s.storeName) ∧ c.description = .ok s.description ∧
      s.fields.map Field.name = keyedNames order ∧ (s.fields.map Field.name).Nodup ∧
      ∀ f ∈ s.fields, ∃ a, annotation? order f.name = some a ∧ f.IsTakenFrom a) ∧
    (∀ e, ofClass c package = .error e ↔ c.Fails order e) ∧
    ∀ (d : ClassDeclaration) (order' : List ClassDeclaration), d.resolutionOrder? = some order' →
      d.LooksLike order' c order → ofClass d package = ofClass c package := by
  refine ⟨resolvesIn_of_resolutionOrder? horder, ?_, ?_, fun d order' horder' hd =>
    hd.ofClass_eq horder horder'⟩
  · intro s h
    simp only [ofClass, Attempt.bind_eq_ok, Attempt.ofFaults_eq_ok] at h
    obtain ⟨fields, hfields, store, hstore, description, hdescription, h⟩ := h
    have hdeclares := declares_of_fields horder hfields
    split at h
    · cases h
    · cases h
      refine ⟨rfl, rfl, (storeName_eq_ok.mp hstore).1, hdescription, hdeclares.names, ?_,
        hdeclares.taken⟩
      rw [hdeclares.names]
      exact (nodup_distinct _).filter _
  · intro e
    constructor
    · intro h
      rcases ok_or_fails horder package with ⟨s, hs⟩ | ⟨e', he'⟩
      · rw [hs] at h
        cases h
      · rw [he'.ofClass_eq horder] at h
        cases h
        exact he'
    · exact Fails.ofClass_eq horder

namespace ClassDeclaration

def themeAnnotation : Annotation :=
  .annotated (.basic .str) [.key (.string "theme") (.bool false)]

def sizeAnnotation : Annotation :=
  .annotated (.forward "Size") [.key (.string "size") (.bool true), .key (.string "n") (.bool false),
    .default (.int 4), .default (.int 5)]

/-- A module in which `Size` is another name of a class and nothing else has one. -/
def sizeMeaning : Annotation.Meaning := fun text =>
  if text = "Size" then .ok (.basic .int) else .error ("name " ++ Text.quoted text ++ " is not defined")

def baseSettings : ClassDeclaration :=
  ⟨0, "Base", some (.string "base"), some "Not inherited.", "app", [],
    [("size", .annotated (.basic .str) [.key (.string "width") (.bool false)]),
      ("theme", .annotated (.basic .str) [.key (.string "skin") (.bool false)]),
      ("legacy", themeAnnotation)], sizeMeaning⟩

def leftSettings : ClassDeclaration :=
  ⟨1, "Left", none, none, "app", [baseSettings], [("legacy", .forward "Size")], sizeMeaning⟩

def rightSettings : ClassDeclaration :=
  ⟨2, "Right", none, none, "app", [baseSettings], [("theme", themeAnnotation)], sizeMeaning⟩

/-- Both bases have one base. What it says of the theme is superseded by the second of them. -/
def settings : ClassDeclaration :=
  ⟨3, "Settings", some (.string "settings"), none, "app", [leftSettings, rightSettings],
    [("size", sizeAnnotation)], sizeMeaning⟩

def flatSettings : ClassDeclaration :=
  ⟨4, "Settings", some (.string "settings"), none, "app", [],
    [("size", sizeAnnotation), ("theme", themeAnnotation), ("legacy", .forward "Size")], sizeMeaning⟩

theorem settings_newest :
    ∃ s, Schema.ofClass settings none = .ok s ∧ s.storeName = "settings" ∧
      s.fields = [⟨"size", "size", .int, some "4", true⟩, ⟨"theme", "theme", .string, none, false⟩] ∧
      keyedNames [settings, leftSettings, rightSettings, baseSettings] =
        (["size", "theme"] : List Text) ∧
      Schema.ofClass flatSettings none = .ok s := by
  have horder : settings.resolutionOrder? =
      some [settings, leftSettings, rightSettings, baseSettings] := by
    rfl
  obtain ⟨-, hok, -, hlike⟩ := Schema.ofClass_newest horder none
  have hs : Schema.ofClass settings none = .ok ⟨"Settings", "app", "settings",
      [⟨"size", "size", .int, some "4", true⟩, ⟨"theme", "theme", .string, none, false⟩], none⟩ := by
    rfl
  have hnames := (hok _ hs).2.2.2.2.1
  refine ⟨_, hs, rfl, rfl, hnames.symm, ?_⟩
  rw [← hs]
  apply hlike flatSettings [flatSettings] rfl
  refine ⟨rfl, rfl, rfl, rfl, rfl, ?_, ?_, ?_⟩
  · intro name hname
    have hcases : name = "size" ∨ name = "theme" ∨ name = "legacy" := by
      have hall : attributeNames [settings, leftSettings, rightSettings, baseSettings] =
          (["size", "theme", "legacy"] : List Text) := by
        rfl
      simpa [hall] using hname
    rcases hcases with rfl | rfl | rfl <;> rfl
  · unfold IsReadable
    decide +kernel
  · unfold IsReadable
    decide +kernel

end ClassDeclaration

end PrefAccessor
