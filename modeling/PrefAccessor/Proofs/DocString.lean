import PrefAccessor.Proofs.DocText
import PrefAccessor.Proofs.Generation
import PrefAccessor.Proofs.PythonOutline

/-!
# Doc strings

The two doc strings of a generated class end at the quotes that close them and nowhere before, whatever
texts of the schema they hold, what the settings are and what the layout does to their lines.
-/

namespace PrefAccessor.Python

set_option autoImplicit false

open Reading Text

/-- What stands behind a doc string: its end are the first three quotes together that no backslash
escapes, of which `quotes` have been passed. -/
def behindDoc? (quotes : Nat) : List CodePoint → Option (List CodePoint)
  | [] => none
  | c :: cs =>
    if c = '"' then if quotes = 2 then some cs else behindDoc? (quotes + 1) cs
    else if c = '\\' then
      match cs with
      | [] => none
      | _ :: ds => behindDoc? 0 ds
    else behindDoc? 0 cs

theorem behindDoc?_quote (n : Nat) (cs : List CodePoint) :
    behindDoc? n (char '"' :: cs) = if n = 2 then some cs else behindDoc? (n + 1) cs := by
  rw [behindDoc?.eq_def]
  rfl

theorem behindDoc?_escape (n : Nat) (d : CodePoint) (ds : List CodePoint) :
    behindDoc? n (char '\\' :: d :: ds) = behindDoc? 0 ds := by
  rw [behindDoc?.eq_def]
  rfl

theorem behindDoc?_plain {c : CodePoint} (hquote : c ≠ '"') (hbackslash : c ≠ '\\') (n : Nat)
    (cs : List CodePoint) : behindDoc? n (c :: cs) = behindDoc? 0 cs := by
  rw [behindDoc?.eq_def]
  simp [hquote, hbackslash]

def docQuotes : List CodePoint := [char '"', char '"', char '"']

/-- A doc string of this text, whatever follows, ends at the quotes behind it. -/
def EndsAtQuotes (doc : List CodePoint) : Prop :=
  ∀ rest, behindDoc? 0 (doc ++ docQuotes ++ rest) = some rest

theorem behindDoc?_append {n m : Nat} {cs : List CodePoint} (ds : List CodePoint)
    (h : quotesAfter? n cs = some m) : behindDoc? n (cs ++ ds) = behindDoc? m ds := by
  fun_induction quotesAfter? n cs with
  | case1 n =>
    cases h
    rfl
  | case2 n cs hn ih =>
    have hne : n ≠ 2 := by omega
    rw [List.cons_append, behindDoc?_quote, if_neg hne, ih h]
  | case3 n cs hn => cases h
  | case4 n => cases h
  | case5 n d es hblank => cases h
  | case6 n d es hblank _ ih =>
    rw [List.cons_append, List.cons_append, behindDoc?_escape, ih h]
  | case7 n c cs hquote hbackslash ih =>
    rw [List.cons_append, behindDoc?_plain hquote hbackslash, ih h]

theorem endsAtQuotes_of_settled {doc : List CodePoint} (h : quotesAfter? 0 doc = some 0) :
    EndsAtQuotes doc := by
  intro rest
  rw [List.append_assoc, behindDoc?_append _ h, docQuotes]
  simp [behindDoc?_quote]

/-- Lines of a doc string, each with its end. -/
theorem quotesAfter?_ofLines {ls : List (List CodePoint)} (h : ∀ l ∈ ls, IsDoc l) :
    quotesAfter? 0 (ofLines ls) = some 0 := by
  induction ls with
  | nil => rfl
  | cons l ls ih =>
    obtain ⟨n, hn⟩ := h l List.mem_cons_self
    rw [ofLines_cons, quotesAfter?_append _ hn, quotesAfter?_plain (by decide) (by decide)]
    exact ih fun k hk => h k (List.mem_cons_of_mem l hk)

/-- The doc string of a class, below the line with its opening quotes. -/
def memberDoc (indent : Text) (s : Schema) : List Text :=
  [indent ++ "Reads and writes the preferences declared by " ++ docText s.name ++ "."] ++
  (if docText (s.description.getD "") = "" then ([] : List Text)
    else ["", indent ++ docText (s.description.getD "")]) ++
  (["",
    indent ++ "Synchronous methods block on the store. Async methods run the same",
    indent ++ "operation on ``executor`` (the event loop's default executor when None)",
    indent ++ "and must be awaited."] : List Text)

/-- The code between the two doc strings of a text. -/
def codeLines (o : Options) (c : AccessorClass) : List Text :=
  .plain "" :: (if c.schema.asyncFields = [] then [] else (["import asyncio"] : List Text)) ++
    (if o.typeHints then (["from concurrent.futures import Executor"] : List Text) else []) ++
    (["", "", "class " ++ c.name ++ ":"] : List Text)

/-- A doc string of these lines, as the layout leaves them, behind its opening quotes. -/
def laidDoc (lines : List Text) : List CodePoint :=
  char '\n' :: ofLines (settleLines 0 (linesOf lines))

theorem sourceLines_head (o : Options) (c : AccessorClass) :
    ∃ below, sourceLines o c = .plain "\"\"\"" :: headDoc c ++ .plain "\"\"\"" :: below :=
  ⟨_, rfl⟩

theorem sourceLines_comments {o : Options} (h : o.comments = true) (c : AccessorClass) :
    ∃ below, sourceLines o c =
      .plain "\"\"\"" :: (headDoc c ++ .plain "\"\"\"" :: codeLines o c ++
        (o.indent ++ "\"\"\"") :: memberDoc o.indent c.schema) ++
          (o.indent ++ "\"\"\"") :: below := by
  unfold sourceLines commentLines headDoc codeLines memberDoc
  simp only [h, if_true, List.append_assoc, List.cons_append, List.nil_append]
  exact ⟨_, rfl⟩

theorem quotesAfter?_indent {indent : Text} (h : ∀ c ∈ indent.toList, c = ' ') (t : Text) :
    quotesAfter? 0 (indent ++ t).toList = quotesAfter? 0 t.toList := by
  have hblank : quotesAfter? 0 indent.toList = some 0 := by
    refine quotesAfter?_of_plain fun c hc => ?_
    rw [h c hc]
    decide
  rw [Text.toList_append, quotesAfter?_append _ hblank]

theorem isDoc_memberDoc {indent : Text} (hindent : ∀ c ∈ indent.toList, c = ' ') (s : Schema) :
    ∀ l ∈ (memberDoc indent s).map Text.toList, IsDoc l := by
  have hline {line : Text} (h : quotesAfter? 0 line.toList = some 0) :
      IsDoc (indent ++ line).toList :=
    ⟨0, (quotesAfter?_indent hindent line).trans h⟩
  have htext {before : Text} (h : quotesAfter? 0 before.toList = some 0) (t : Text) :
      IsDoc (indent ++ before ++ docText t ++ ".").toList := by
    refine isDoc_docText ((quotesAfter?_indent hindent before).trans h) t fun m hm => ⟨0, ?_⟩
    rw [Nat.le_zero.mp hm]
    decide +kernel
  have hdescription (t : Text) : IsDoc (indent ++ docText t).toList := by
    obtain ⟨m, -, hm⟩ := quotesAfter?_docText 0 t
    refine ⟨m, ?_⟩
    rw [← hm, quotesAfter?_indent hindent]
  have hempty : IsDoc ("" : Text).toList := ⟨0, rfl⟩
  simp only [memberDoc, List.forall_mem_map, List.forall_mem_append, List.forall_mem_cons]
  refine ⟨⟨⟨htext (by decide +kernel) s.name, List.forall_mem_nil _⟩, ?_⟩, hempty,
    hline (by decide +kernel), hline (by decide +kernel), hline (by decide +kernel),
    List.forall_mem_nil _⟩
  split
  · exact List.forall_mem_nil _
  · exact List.forall_mem_cons.mpr ⟨hempty,
      List.forall_mem_cons.mpr ⟨hdescription _, List.forall_mem_nil _⟩⟩

theorem quotesAfter?_laidDoc {lines : List Text} (h : ∀ l ∈ lines.map Text.toList, IsDoc l) :
    quotesAfter? 0 (laidDoc lines) = some 0 := by
  rw [laidDoc, quotesAfter?_plain (by decide) (by decide)]
  exact quotesAfter?_ofLines (isDoc_settleLines h 0)

/-- Blanks may stand in front of the quotes behind a doc string. -/
theorem endsAtQuotes_indented {doc : List CodePoint} (h : quotesAfter? 0 doc = some 0) {indent : Text}
    (hindent : ∀ c ∈ indent.toList, c = ' ') : EndsAtQuotes (doc ++ indent.toList) := by
  have hblank := quotesAfter?_indent hindent ""
  rw [Text.append_empty] at hblank
  exact endsAtQuotes_of_settled ((quotesAfter?_append _ h).trans hblank)

theorem full_docQuotes (indent : Text) : IsFull (indent ++ "\"\"\"").toList :=
  full_append (by decide) indent

/-- Whatever the settings, the text begins with a doc string. -/
theorem sourceOf_head (o : Options) (c : AccessorClass) :
    ∃ below, (Generator.sourceOf (sourceLines o c)).toList =
      docQuotes ++ laidDoc (headDoc c) ++ docQuotes ++ below := by
  have hquotes : IsFull ("\"\"\"" : Text).toList := by decide
  have hfeed : Feedless "\"\"\"" := by decide
  obtain ⟨below, hbelow⟩ := sourceLines_head o c
  obtain ⟨kept, hkept⟩ := layoutLines_between hquotes hquotes (linesOf (headDoc c)) (linesOf below)
  have hlines : linesOf (sourceLines o c) =
      ("\"\"\"" : Text).toList :: linesOf (headDoc c) ++ ("\"\"\"" : Text).toList :: linesOf below := by
    rw [hbelow, linesOf_append, linesOf_cons hfeed, linesOf_cons hfeed]
  rw [← hlines] at hkept
  refine ⟨char '\n' :: ofLines kept, ?_⟩
  rw [Generator.sourceOf_eq_ofLines hkept (by simp)]
  simp [laidDoc, docQuotes]

/-- With comments there is a second one, whose quotes are indented. -/
theorem sourceOf_comments {o : Options} (h : o.comments = true) (hindent : Feedless o.indent)
    (c : AccessorClass) :
    ∃ below, (Generator.sourceOf (sourceLines o c)).toList =
      docQuotes ++ laidDoc (headDoc c) ++ docQuotes ++ (laidDoc (codeLines o c) ++ o.indent.toList) ++
        docQuotes ++ (laidDoc (memberDoc o.indent c.schema) ++ o.indent.toList) ++ docQuotes ++
          below := by
  have hquotes : IsFull ("\"\"\"" : Text).toList := by decide
  have hfeed : Feedless "\"\"\"" := by decide
  have hinner : Feedless (o.indent ++ "\"\"\"") := feedless_append.mpr ⟨hindent, hfeed⟩
  obtain ⟨below, hbelow⟩ := sourceLines_comments h c
  obtain ⟨kept, hkept⟩ := layoutLines_between hquotes (full_docQuotes o.indent)
    (linesOf (headDoc c) ++ ("\"\"\"" : Text).toList :: linesOf (codeLines o c) ++
      (o.indent ++ "\"\"\"").toList :: linesOf (memberDoc o.indent c.schema)) (linesOf below)
  have hlines : linesOf (sourceLines o c) =
      ("\"\"\"" : Text).toList ::
        (linesOf (headDoc c) ++ ("\"\"\"" : Text).toList :: linesOf (codeLines o c) ++
        (o.indent ++ "\"\"\"").toList :: linesOf (memberDoc o.indent c.schema)) ++
          (o.indent ++ "\"\"\"").toList :: linesOf below := by
    rw [hbelow]
    simp only [linesOf_append, linesOf_cons hfeed, linesOf_cons hinner]
  rw [← hlines, settleLines_full (full_docQuotes o.indent), settleLines_full hquotes] at hkept
  refine ⟨char '\n' :: ofLines kept, ?_⟩
  rw [Generator.sourceOf_eq_ofLines hkept (by simp)]
  simp [laidDoc, docQuotes]

theorem mem_laidDoc {lines : List Text} {ch : CodePoint} (h : ch ∈ laidDoc lines) :
    ch = '\n' ∨ ∃ l ∈ lines, ch ∈ l.toList := by
  rcases List.mem_cons.mp h with rfl | h
  · exact Or.inl rfl
  · obtain ⟨l, hl, hch⟩ := List.mem_flatMap.mp h
    rcases List.mem_append.mp hch with hch | hch
    · rcases mem_settleLines hl with rfl | ⟨k, hk, rfl⟩
      · cases hch
      · obtain ⟨piece, hpiece, hk⟩ := List.mem_flatMap.mp hk
        obtain ⟨line, hline, rfl⟩ := List.mem_map.mp hpiece
        exact Or.inr ⟨line, hline,
          subset_of_mem_splitOn hk ((trimEnd_isPrefix k).subset hch)⟩
    · exact Or.inl (List.mem_singleton.mp hch)

/-- The code between the two holds no quote and begins no comment, unless the class name does. -/
theorem mem_laidDoc_codeLines {o : Options} {c : AccessorClass} {ch : CodePoint}
    (h : ch ∈ laidDoc (codeLines o c)) : isCodeChar ch = true ∨ ch ∈ c.name.toList := by
  have hplain {l : Text} (hl : l.toList.all isCodeChar = true) :
      ∀ d ∈ l.toList, isCodeChar d = true ∨ d ∈ c.name.toList :=
    fun d hd => Or.inl (List.all_eq_true.mp hl d hd)
  have hclass : ∀ d ∈ ("class " ++ c.name ++ ":").toList,
      isCodeChar d = true ∨ d ∈ c.name.toList := by
    intro d hd
    rw [Text.toList_append, Text.toList_append, List.mem_append, List.mem_append] at hd
    rcases hd with (hd | hd) | hd
    · exact hplain (by decide +kernel) d hd
    · exact Or.inr hd
    · exact hplain (by decide +kernel) d hd
  have hline : ∀ l ∈ codeLines o c, ∀ d ∈ l.toList, isCodeChar d = true ∨ d ∈ c.name.toList := by
    have hempty : ∀ d ∈ ("" : Text).toList, isCodeChar d = true ∨ d ∈ c.name.toList :=
      List.forall_mem_nil _
    simp only [codeLines, List.forall_mem_append, List.forall_mem_cons]
    refine ⟨⟨⟨hempty, ?_⟩, ?_⟩, hempty, hempty, hclass, List.forall_mem_nil _⟩
    · split
      · exact List.forall_mem_nil _
      · exact List.forall_mem_singleton.mpr (hplain (by decide +kernel))
    · split
      · exact List.forall_mem_singleton.mpr (hplain (by decide +kernel))
      · exact List.forall_mem_nil _
  rcases mem_laidDoc h with rfl | ⟨l, hl, hch⟩
  · exact Or.inl (by decide)
  · exact hline l hl ch hch

/-- The characters of a class name that are no code come from the suffix. -/
theorem mem_className {g : Generator} {s : Schema} {ch : CodePoint} (h : ch ∈ (g.className s).toList) :
    isCodeChar ch = true ∨ ch ∈ g.settings.suffix.toList := by
  rw [Generator.className, Naming.className, Text.toList_append] at h
  rcases List.mem_append.mp h with h | h
  · have hword := isPlain_of_isWord isCodeChar_of_isNumeralChar (Naming.isWord_pascalCase_clean s.name)
    exact Or.inl (hword.mem h)
  · exact Or.inr h

theorem sourceLines_of_python {g : Generator} (h : g.target = .python) {indent package : Text}
    {c : AccessorClass} {lines : List Text} (hlines : g.sourceLines indent package c = .ok lines) :
    ∃ typeHints, lines = sourceLines ⟨typeHints, g.settings.addComments.isSet, indent⟩ c := by
  cases hprofile : g.profile with
  | python typeHints =>
    rw [Generator.sourceLines, hprofile] at hlines
    exact ⟨typeHints, (Except.ok.inj hlines).symm⟩
  | kotlin context dispatcher =>
    rw [Generator.target, hprofile] at h
    cases h

/-- What stands between the doc string on top and that of the class. -/
def betweenDocs (o : Options) (c : AccessorClass) : List CodePoint :=
  laidDoc (codeLines o c) ++ o.indent.toList

theorem mem_betweenDocs {g : Generator} {s : Schema} {o : Options} {c : AccessorClass}
    (hname : c.name = g.className s) (hblank : ∀ ch ∈ o.indent.toList, ch = ' ') {ch : CodePoint}
    (h : ch ∈ betweenDocs o c) : isCodeChar ch = true ∨ ch ∈ g.settings.suffix.toList := by
  rcases List.mem_append.mp h with h | h
  · rcases mem_laidDoc_codeLines h with hcode | h
    · exact Or.inl hcode
    · rw [hname] at h
      exact mem_className h
  · rw [hblank ch h]
    exact Or.inl (by decide)

/-- A text of the schema in a doc string is escaped in turn and reads back as it is, with each quote
behind an odd number of backslashes and an even number at its end. Under any settings the doc string on
top of a generated text and that of its class end at their closing quotes, and no quote stands between
the two. -/
theorem docStrings_end_at_quotes :
    (∀ s : Text, (docText s).toList = escapedInTurn s.toList ∧
      unescape? (docText s).toList = some s.toList ∧
      QuotesEscaped (docText s).toList ∧ Even (backslashesAtEnd (docText s).toList)) ∧
    ∀ (g : Generator) (s : Schema) (a : Artifact), g.target = .python → g.generate s = .ok a →
      ∃ indent below, g.indent = .ok indent ∧ a.accessorClass.schema = s ∧
        a.source.toList = docQuotes ++ laidDoc (headDoc a.accessorClass) ++ docQuotes ++ below ∧
        EndsAtQuotes (laidDoc (headDoc a.accessorClass)) ∧
        (g.settings.addComments.isSet = true → ∃ code rest,
          below = code ++ docQuotes ++ (laidDoc (memberDoc indent s) ++ indent.toList) ++ docQuotes ++
            rest ∧
          EndsAtQuotes (laidDoc (memberDoc indent s) ++ indent.toList) ∧
          ∀ ch ∈ code, isCodeChar ch = true ∨ ch ∈ g.settings.suffix.toList) := by
  refine ⟨?_, ?_⟩
  · intro s
    obtain ⟨hquotes, heven⟩ := quotesEscaped_docText s
    exact ⟨toList_docText s, unescape?_docText s, hquotes, heven⟩
  · intro g s a htarget ha
    obtain ⟨hc, -⟩ := Generator.generate_eq_ok ha
    obtain ⟨-, -, hschema, hname⟩ := Generator.accessorClass_eq_ok.mp hc
    obtain ⟨indent, package, lines, hindent, -, hlines, hsource, -⟩ := Generator.generate_text ha
    have hblank := Settings.eq_of_mem_indent hindent
    have hhead : EndsAtQuotes (laidDoc (headDoc a.accessorClass)) :=
      endsAtQuotes_of_settled (quotesAfter?_laidDoc (isDoc_headDoc a.accessorClass))
    obtain ⟨typeHints, rfl⟩ := sourceLines_of_python htarget hlines
    rw [hsource]
    cases hcomments : g.settings.addComments.isSet with
    | false =>
      obtain ⟨below, hbelow⟩ := sourceOf_head ⟨typeHints, false, indent⟩ a.accessorClass
      exact ⟨indent, below, hindent, hschema, hbelow, hhead, nofun⟩
    | true =>
      obtain ⟨rest, hrest⟩ := sourceOf_comments (o := ⟨typeHints, true, indent⟩) rfl
        (Settings.feedless_indent hindent) a.accessorClass
      simp only [hschema] at hrest
      have hmember : EndsAtQuotes (laidDoc (memberDoc indent s) ++ indent.toList) :=
        endsAtQuotes_indented (quotesAfter?_laidDoc (isDoc_memberDoc hblank s)) hblank
      have hcode : ∀ ch ∈ betweenDocs ⟨typeHints, true, indent⟩ a.accessorClass,
          isCodeChar ch = true ∨ ch ∈ g.settings.suffix.toList :=
        fun ch hch => mem_betweenDocs hname hblank hch
      refine ⟨indent, betweenDocs ⟨typeHints, true, indent⟩ a.accessorClass ++ docQuotes ++
        (laidDoc (memberDoc indent s) ++ indent.toList) ++ docQuotes ++ rest, hindent, hschema, ?_,
        hhead, ?_⟩
      · rw [hrest, betweenDocs]
        simp only [List.append_assoc]
      · intro _
        exact ⟨_, rest, rfl, hmember, hcode⟩

/-- A schema whose texts would end a doc string or a line of it. -/
def quotedSchema : Schema where
  name := "Log \"\"\" in"
  package := "app"
  storeName := "a\"\n$b\\"
  fields := [⟨"user", "user", .string, none, false⟩]
  description := some "\"\"\"\nimport os \\\r\x07"

theorem quotedSchema_docStrings :
    unescape? (docText "\"\"\"\nimport os \\\r\x07").toList =
        some ("\"\"\"\nimport os \\\r\x07" : Text).toList ∧
      Generator.standard.target = .python ∧
        ∃ a indent below, Generator.standard.generate quotedSchema = .ok a ∧
          a.source.toList = docQuotes ++ laidDoc (headDoc a.accessorClass) ++ docQuotes ++ below ∧
          EndsAtQuotes (laidDoc (headDoc a.accessorClass)) ∧
          EndsAtQuotes (laidDoc (memberDoc indent quotedSchema) ++ indent.toList) := by
  have hindent : Generator.standard.indent = .ok "    " := by decide
  obtain ⟨ms, hms⟩ : ∃ ms, Generator.standard.methods quotedSchema.fields = .ok ms := by
    refine Generator.methods_ok_iff.mpr fun f hf => ?_
    rw [List.mem_singleton.mp hf]
    exact ⟨_, rfl⟩
  obtain ⟨a, ha⟩ := Generator.standard_wellTyped.exists_artifact rfl hindent hms
  obtain ⟨hescape, hends⟩ := docStrings_end_at_quotes
  obtain ⟨indent, below, -, -, hsource, hhead, hmember⟩ :=
    hends Generator.standard quotedSchema a rfl ha
  have hcomments : Generator.standard.settings.addComments.isSet = true := rfl
  obtain ⟨code, rest, -, hclass, -⟩ := hmember hcomments
  exact ⟨(hescape _).2.1, rfl, a, indent, below, ha, hsource, hhead, hclass⟩

end PrefAccessor.Python
