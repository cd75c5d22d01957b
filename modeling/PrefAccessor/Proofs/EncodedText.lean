import PrefAccessor.Proofs.PythonString

/-!
# Texts with an encoded form

Half of a surrogate pair comes into a generated Python text by its literals alone: names are made of
letters and digits, a doc string holds the code of each such half, and all else is fixed. So the text
has an encoded form where the store, the keys and the defaults of its schema have one.
-/

namespace PrefAccessor

set_option autoImplicit false

open Text

theorem exists_char_of_lt {c : CodePoint} (h : c.toNat < 0xd800) : ∃ d : Char, c = d := by
  cases c with
  | char d => exact ⟨d, rfl⟩
  | surrogate half =>
    rw [CodePoint.toNat] at h
    omega

/-- A table of characters has no half of a pair in it. -/
theorem exists_char_of_inRanges {ranges : List (Nat × Nat)} {c : CodePoint}
    (hranges : ∀ r ∈ ranges, r.2 < 0xd800 ∨ 0xe000 ≤ r.1) (h : inRanges ranges c = true) :
    ∃ d : Char, c = d := by
  cases c with
  | char d => exact ⟨d, rfl⟩
  | surrogate half =>
    obtain ⟨r, hr, hlow, hhigh⟩ := (inRanges_iff _ _).mp h
    rw [CodePoint.toNat] at hlow hhigh
    have := hranges r hr
    omega

theorem exists_char_of_isPrintable {c : CodePoint} (h : isPrintable c = true) :
    ∃ d : Char, c = d := by
  unfold isPrintable at h
  split at h
  · exact exists_char_of_lt (by omega)
  · exact exists_char_of_inRanges (by decide +kernel) h

theorem exists_char_of_isIdentifierChar {c : CodePoint} (h : isIdentifierChar c = true) :
    ∃ d : Char, c = d := by
  by_cases hlt : c.toNat < 0x80
  · exact exists_char_of_lt (by omega)
  · simp only [isIdentifierChar, isIdentifierStart, if_neg hlt, Bool.or_eq_true] at h
    rcases h with h | h
    · exact exists_char_of_inRanges (by decide +kernel) h
    · exact exists_char_of_inRanges (by decide +kernel) h

namespace Text

theorem isEncodable_of_isIdentifier {s : Text} (h : isIdentifier s.toList = true) :
    s.isEncodable = true :=
  isEncodable_iff_forall.mpr fun _ hc =>
    exists_char_of_isIdentifierChar (isIdentifierChar_of_mem h hc)

theorem isEncodable_of_isWord {s : Text} (h : Naming.IsWord s.toList) : s.isEncodable = true := by
  refine isEncodable_iff_forall.mpr fun c hc => exists_char_of_lt ?_
  have hlt := Naming.toNat_lt_of_isWordChar (h c hc)
  omega

theorem isEncodable_of_isNumeral {s : Text} (h : Number.IsNumeral s.toList) :
    s.isEncodable = true := by
  refine isEncodable_iff_forall.mpr fun c hc => ?_
  have hchar := h c hc
  simp only [Number.isNumeralChar, Bool.or_eq_true, beq_iff_eq] at hchar
  rcases hchar with ((hword | rfl) | rfl) | rfl
  · have hlt := Naming.toNat_lt_of_isWordChar hword
    exact exists_char_of_lt (by omega)
  · exact ⟨_, rfl⟩
  · exact ⟨_, rfl⟩
  · exact ⟨_, rfl⟩

end Text

namespace Python

theorem exists_char_of_mem_controlEscape {c d : CodePoint} (h : d ∈ controlEscape c) :
    ∃ e : Char, d = e := by
  have hcode {letter : Char} {width n : Nat} (h : d ∈ char '\\' :: char letter :: hexDigits width n) :
      ∃ e : Char, d = e := by
    simp only [List.mem_cons] at h
    rcases h with rfl | rfl | h
    · exact ⟨_, rfl⟩
    · exact ⟨_, rfl⟩
    · obtain ⟨k, rfl⟩ := mem_hexDigits h
      exact ⟨_, rfl⟩
  have hletter {letter : Char} (h : d ∈ [char '\\', char letter]) : ∃ e : Char, d = e := by
    rcases List.mem_pair.mp h with rfl | rfl <;> exact ⟨_, rfl⟩
  unfold controlEscape codeEscape at h
  split at h
  · exact hletter h
  · split at h
    · exact hletter h
    · split at h
      · exact hletter h
      · split at h
        · exact hcode h
        · split at h
          · exact hcode h
          · exact hcode h

theorem exists_char_of_mem_docChar {c d : CodePoint} (h : d ∈ docChar c) : ∃ e : Char, d = e := by
  unfold docChar at h
  split at h
  · rename_i hspecial
    rcases List.mem_pair.mp h with rfl | rfl
    · exact ⟨_, rfl⟩
    · rcases hspecial with rfl | rfl <;> exact ⟨_, rfl⟩
  · split at h
    · rename_i hprinted
      rw [List.mem_singleton.mp h]
      rcases hprinted with rfl | rfl | hprintable
      · exact ⟨_, rfl⟩
      · exact ⟨_, rfl⟩
      · exact exists_char_of_isPrintable hprintable
    · exact exists_char_of_mem_controlEscape h

theorem isEncodable_docText (s : Text) : (docText s).isEncodable = true := by
  refine Text.isEncodable_ofList.mpr fun d hd => ?_
  obtain ⟨c, -, hd⟩ := List.mem_flatMap.mp hd
  exact exists_char_of_mem_docChar hd

theorem isEncodable_stringLiteral {s : Text} (h : s.isEncodable = true) :
    (stringLiteral s).isEncodable = true := by
  have hwritten := Text.isSome_chars?_iff.mp ((isSome_chars?_written s).trans h)
  rw [Text.isEncodable_iff_forall, toList_stringLiteral]
  simp only [List.forall_mem_cons, List.forall_mem_append]
  exact ⟨⟨_, rfl⟩, hwritten, ⟨_, rfl⟩, List.forall_mem_nil _⟩

theorem isEncodable_literal {v : PrefValue} (h : ∀ t, v = .string t → t.isEncodable = true) :
    (literal v).isEncodable = true := by
  by_cases hs : ∃ t, v = .string t
  · obtain ⟨t, rfl⟩ := hs
    exact isEncodable_stringLiteral (h t rfl)
  · exact Text.isEncodable_of_isNumeral (isNumeral_literal fun t ht => hs ⟨t, ht⟩)

/-- A method whose key and default have an encoded form. -/
structure IsEncodable (m : Method) : Prop where
  key : m.field.key.isEncodable = true
  default : ∀ t, m.default = .string t → t.isEncodable = true

theorem isEncodable_body {m : Method} (hwords : m.HasWordNames) (h : IsEncodable m) :
    ∀ l ∈ body m, l.isEncodable = true := by
  have hkey := isEncodable_stringLiteral h.key
  have hdefault := isEncodable_literal h.default
  have hoperation : m.field.type.operation.isEncodable = true := by cases m.field.type <;> rfl
  have htwin {twin : Text} (htwin : m.twin = some twin) : twin.isEncodable = true :=
    Text.isEncodable_of_isWord (hwords.2 twin htwin)
  intro l hl
  obtain ⟨st, hst, rfl⟩ := List.mem_map.mp hl
  cases haccess : m.access <;> cases hm : m.twin <;>
    simp only [statements, haccess, hm, List.mem_cons, List.not_mem_nil, or_false] at hst
  · simp [hst, Statement.text, Text.isEncodable_append, hkey, hdefault, hoperation]
  · rcases hst with rfl | rfl <;> simp [Statement.text, Text.isEncodable_append, htwin hm]
  · simp [hst, Statement.text, Text.isEncodable_append, hkey, hoperation]
  · rcases hst with rfl | rfl <;> simp [Statement.text, Text.isEncodable_append, htwin hm]

theorem isEncodable_opening (typeHints : Bool) {m : Method} (h : m.HasWordNames) :
    ((Profile.python typeHints).opening m).isEncodable = true := by
  have hname := Text.isEncodable_of_isWord h.1
  have htype : (typeName m.field.type).isEncodable = true := by cases m.field.type <;> rfl
  cases hasync : m.isAsync <;> cases haccess : m.access <;> cases typeHints <;>
    simp [Profile.opening, hasync, haccess, Text.isEncodable_append, hname, htype]

theorem isEncodable_methodLines {o : Options} (hindent : o.indent.isEncodable = true) {m : Method}
    (hwords : m.HasWordNames) (h : IsEncodable m) : ∀ l ∈ methodLines o m, l.isEncodable = true := by
  have hopening := isEncodable_opening o.typeHints hwords
  have hbody := isEncodable_body hwords h
  rw [methodLines_eq, Profile.methodText, Profile.block, Profile.closing, List.map_nil,
    List.append_nil]
  simp only [List.forall_mem_cons, List.forall_mem_map, Text.isEncodable_append, hindent, hopening,
    true_and]
  exact ⟨rfl, hbody⟩

/-- All lines of a class whose name, store and methods have an encoded form. -/
theorem isEncodable_sourceLines {o : Options} (hindent : o.indent.isEncodable = true)
    {c : AccessorClass} (hparameters : c.parameters = parameters)
    (hname : c.name.isEncodable = true) (hstore : c.schema.storeName.isEncodable = true)
    (hmethods : ∀ m ∈ c.methods, m.HasWordNames ∧ IsEncodable m) :
    ∀ l ∈ sourceLines o c, l.isEncodable = true := by
  have hsignature : (signature o.typeHints parameters).isEncodable = true := by
    cases o.typeHints <;> rfl
  have hall : ∀ l ∈ c.methods.flatMap (methodLines o), l.isEncodable = true := by
    refine List.forall_mem_flatMap.mpr fun m hm => ?_
    exact isEncodable_methodLines hindent (hmethods m hm).1 (hmethods m hm).2
  have hhead : ∀ l ∈ headDoc c, l.isEncodable = true := by
    simp [headDoc, Text.isEncodable_append, isEncodable_docText]
  have hcode : ∀ l ∈ codeLines o c, l.isEncodable = true := by
    simp only [codeLines, List.forall_mem_append, List.forall_mem_cons, Text.isEncodable_append,
      hname]
    refine ⟨⟨⟨rfl, ?_⟩, ?_⟩, by simp⟩ <;> split <;> simp
  have hdoc : ∀ l ∈ docLines o c, l.isEncodable = true := by
    simp only [docLines, memberDoc, List.forall_mem_append, List.forall_mem_cons,
      Text.isEncodable_append, hindent, isEncodable_docText]
    refine ⟨⟨by simp, ⟨by simp, ?_⟩, by simp⟩, by simp⟩
    split <;> simp [Text.isEncodable_append, hindent, isEncodable_docText]
  have hmembers : ∀ l ∈ classMembers o c, l.isEncodable = true := by
    rw [classMembers, hparameters, List.forall_mem_append]
    refine ⟨?_, hall⟩
    simp [storeLine, openLine, Text.isEncodable_append, hindent, hsignature,
      isEncodable_stringLiteral hstore]
  rw [sourceLines_eq_members]
  simp only [List.forall_mem_append, List.forall_mem_cons]
  refine ⟨⟨⟨⟨⟨rfl, hhead⟩, rfl, hcode⟩, ?_⟩, hmembers⟩, rfl, List.forall_mem_nil _⟩
  split
  · exact hdoc
  · exact List.forall_mem_nil _

end Python

namespace Generator

theorem isEncodable_sourceOf {lines : List Text} (h : ∀ l ∈ lines, l.isEncodable = true) :
    (sourceOf lines).isEncodable = true := by
  rw [Text.isEncodable_iff_forall, toList_sourceOf]
  intro c hc
  rcases mem_layoutChars hc with rfl | hc
  · exact ⟨_, rfl⟩
  · rcases mem_intercalate hc with hc | ⟨l, hl, hc⟩
    · exact ⟨_, List.mem_singleton.mp hc⟩
    · obtain ⟨line, hline, rfl⟩ := List.mem_map.mp hl
      exact Text.isEncodable_iff_forall.mp (h line hline) c hc

/-- The text of a class in Python has an encoded form if its name and the texts of its schema have. -/
theorem isEncodable_source {g : Generator} {s : Schema} {a : Artifact} (hpython : g.target = .python)
    (hs : s.HasEncodableTexts) (h : g.generate s = .ok a)
    (hname : a.accessorClass.name.isEncodable = true) : a.source.isEncodable = true := by
  obtain ⟨hc, -⟩ := generate_eq_ok h
  obtain ⟨hps, hms, hschema, -⟩ := accessorClass_eq_ok.mp hc
  obtain ⟨indent, package, lines, hindent, -, hlines, hsource, -⟩ := generate_text h
  obtain ⟨typeHints, rfl⟩ := Python.sourceLines_of_python hpython hlines
  have hblank : indent.isEncodable = true :=
    Text.isEncodable_iff_forall.mpr fun c hc => ⟨_, Settings.eq_of_mem_indent hindent c hc⟩
  rw [hsource]
  refine isEncodable_sourceOf (Python.isEncodable_sourceLines hblank
    (Python.parameters_of_python hpython hps) hname (hschema ▸ hs.store) fun m hm => ?_)
  obtain ⟨hfield, hdefault, -⟩ := mem_methods hms hm
  exact ⟨hasWordNames hms hm, hs.keys m.field hfield,
    fun t ht => hs.defaults m.field hfield t (ht ▸ hdefault)⟩

end Generator

end PrefAccessor
