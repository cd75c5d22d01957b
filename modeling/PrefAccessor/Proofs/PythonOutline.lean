import PrefAccessor.Proofs.Erasure
import PrefAccessor.Proofs.PythonReading

/-!
# The code of a Python class

The lines of code that the text of a class under the default settings is read as, with a piece for
each literal and doc string.
-/

namespace PrefAccessor.Python

set_option autoImplicit false

open Reading Text

def literalOutline : PrefValue → List Piece
  | .string _ => [.literal]
  | v => code (literal v)

def Statement.outline : Statement → List Piece
  | .returnRead type _ default =>
    code ("return self._store.get_" ++ type.operation ++ "(") ++ [.literal] ++ code ", " ++
      literalOutline default ++ code ")"
  | .write type _ =>
    code ("self._store.edit().put_" ++ type.operation ++ "(") ++ [.literal] ++
      code ", value).apply()"
  | st => code st.text

def methodOutline (m : Method) : List (List Piece) :=
  [] :: code ("    " ++ (Profile.python true).opening m) ::
    (statements m).map fun st => code "        " ++ st.outline

/-- The constructor of the class, which is the same for all. -/
def constructorLines : List Text := [
  "    def __init__(self, store_provider, executor: Executor | None = None):",
  "        self._store = store_provider.open_store(self.STORE_NAME)",
  "        self._executor = executor"]

/-- The code of a class, line by line. -/
def outline (c : AccessorClass) : List (List Piece) :=
  [[.literal], []] ++
  (if c.schema.asyncFields = [] then [] else [code "import asyncio"]) ++
  [code "from concurrent.futures import Executor", [], [],
    code ("class " ++ c.name ++ ":"),
    code "    " ++ [.literal],
    [],
    code "    STORE_NAME = " ++ [.literal],
    []] ++
  constructorLines.map code ++
  c.methods.flatMap methodOutline

theorem literalOutline_erased (v : PrefValue) : literalOutline v.erased = literalOutline v := by
  cases v <;> rfl

theorem methodOutline_erased (m : Method) : methodOutline m.erased = methodOutline m := by
  obtain ⟨name, access, field, default, twin⟩ := m
  cases access <;> cases twin <;>
    simp [methodOutline, statements, Method.erased, Method.isAsync, Statement.outline,
      Profile.opening, literalOutline_erased, Field.erased]

theorem outline_erased (c : AccessorClass) : outline c.erased = outline c := by
  have hmethods : c.erased.methods.flatMap methodOutline = c.methods.flatMap methodOutline := by
    simp only [AccessorClass.erased, List.flatMap_map, methodOutline_erased]
  have hasync : (c.erased.schema.asyncFields = []) = (c.schema.asyncFields = []) :=
    propext c.schema.asyncFields_erased
  simp only [outline, hmethods, hasync]
  rfl

/-- A literal together with the code behind it. -/
theorem reads_literal_append (s : Text) {t : Text} (ht : IsPlain isCodeChar t) (hne : t ≠ "") :
    Reads step (.code false) (stringLiteral s ++ t).toList (.code (endsWord false t.toList))
      (.literal :: code t) := by
  rw [Text.toList_append, code]
  cases htail : t.toList with
  | nil => exact absurd (Text.toList_eq_nil_iff.mp htail) hne
  | cons c cs =>
    have hchar {d : CodePoint} (hd : d ∈ c :: cs) : isCodeChar d = true := ht.mem (htail ▸ hd)
    have hliteral := reads_stringLiteral s (hchar List.mem_cons_self)
    have hrest := reads_plain (fun d hd => hchar (List.mem_cons_of_mem c hd)) (isWordLike c)
    simpa [endsWord] using hliteral.append hrest

theorem reads_default (v : PrefValue) :
    Reads step (.code false) (literal v ++ ")").toList (.code false)
      (literalOutline v ++ code ")") := by
  have hplain {s : Text} (hs : IsPlain isCodeChar s) :
      Reads step (.code false) (s ++ ")").toList (.code false) (code s ++ code ")") := by
    rw [Text.toList_append]
    exact (reads_code hs false).append (reads_code (by decide) _)
  cases v with
  | string s => exact reads_literal_append s (isPlain_ofList (by decide)) (by decide)
  | _ =>
    exact hplain (isPlain_of_isNumeral isCodeChar_of_isNumeralChar (isNumeral_literal (by simp)))

theorem isPlain_operation (type : PrefType) : IsPlain isCodeChar type.operation := by
  cases type <;> decide

theorem isPlain_typeName (type : PrefType) : IsPlain isCodeChar (typeName type) := by
  cases type <;> decide

/-- Code up to a parenthesis, behind which a literal may stand. -/
theorem reads_parenthesis {s : Text} (h : IsPlain isCodeChar s) (afterWord : Bool) :
    Reads step (.code afterWord) (s ++ "(").toList (.code false) (code (s ++ "(")) := by
  rw [Text.toList_append, code_append]
  exact (reads_code h afterWord).append (reads_code (by decide) _)

theorem twin_of_mem_statements {m : Method} {st : Statement} (hst : st ∈ statements m)
    {name : Text} (h : st = .returnAwaited name ∨ st = .await name) : m.twin = some name := by
  obtain ⟨_, access, field, default, twin⟩ := m
  cases access <;> cases twin <;> rcases h with rfl | rfl <;> simp_all [statements]

/-- A statement on a line of its own. -/
theorem reads_statement {m : Method} (h : m.HasWordNames) {st : Statement}
    (hst : st ∈ statements m) :
    Reads step (.code false) (("        " ++ st.text).toList ++ [char '\n']) (.code false)
      (code "        " ++ st.outline ++ [.code '\n']) := by
  have hend : Reads step (.code false) [char '\n'] (.code false) [.code '\n'] := rfl
  have hindent {s : Text} (hs : IsPlain isCodeChar s) : IsPlain isCodeChar ("        " ++ s) :=
    isPlain_append.mpr ⟨isPlain_ofList (by decide), hs⟩
  have hplain {s : Text} (hs : IsPlain isCodeChar s) :
      Reads step (.code false) (("        " ++ s).toList ++ [char '\n']) (.code false)
        (code "        " ++ code s ++ [.code '\n']) := by
    rw [← code_append]
    exact reads_codeLine (hindent hs) false
  have hname {name : Text} (hst' : st = .returnAwaited name ∨ st = .await name) :
      IsPlain isCodeChar name :=
    isPlain_of_isWord isCodeChar_of_isNumeralChar (h.2 name (twin_of_mem_statements hst hst'))
  cases st with
  | returnRead type key default =>
    have hopen : Reads step (.code false)
        ("        " ++ ("return self._store.get_" ++ type.operation) ++ "(").toList (.code false) _ :=
      reads_parenthesis
        (hindent (isPlain_append.mpr ⟨isPlain_ofList (by decide), isPlain_operation type⟩)) false
    have hkey := reads_literal_append key (t := ", ") (isPlain_ofList (by decide)) (by decide)
    have hdefault := (reads_default default).append hend
    have hall := hopen.append (hkey.append hdefault)
    unfold Statement.text Statement.outline
    simpa only [Text.toList_append, code_append, List.append_assoc, List.cons_append,
      List.nil_append] using hall
  | write type key =>
    have hopen : Reads step (.code false)
        ("        " ++ ("self._store.edit().put_" ++ type.operation) ++ "(").toList (.code false) _ :=
      reads_parenthesis
        (hindent (isPlain_append.mpr ⟨isPlain_ofList (by decide), isPlain_operation type⟩)) false
    have hkey := reads_literal_append key (t := ", value).apply()") (isPlain_ofList (by decide))
      (by decide)
    have hall := hopen.append (hkey.append hend)
    unfold Statement.text Statement.outline
    simpa only [Text.toList_append, code_append, List.append_assoc, List.cons_append,
      List.nil_append] using hall
  | takeLoop =>
    have hloop : IsPlain isCodeChar "loop = asyncio.get_running_loop()" :=
      isPlain_ofList (by decide)
    exact hplain hloop
  | returnAwaited getter =>
    refine hplain ?_
    unfold Statement.text
    exact isPlain_append.mpr ⟨isPlain_append.mpr ⟨isPlain_ofList (by decide), hname (Or.inl rfl)⟩,
      isPlain_ofList (by decide)⟩
  | await setter =>
    refine hplain ?_
    unfold Statement.text
    exact isPlain_append.mpr ⟨isPlain_append.mpr ⟨isPlain_ofList (by decide), hname (Or.inr rfl)⟩,
      isPlain_ofList (by decide)⟩

theorem isPlain_opening {m : Method} (h : m.HasWordNames) :
    IsPlain isCodeChar ((Profile.python true).opening m) := by
  have hname := isPlain_of_isWord isCodeChar_of_isNumeralChar h.1
  have htype := isPlain_typeName m.field.type
  have hmark : IsPlain isCodeChar (if m.isAsync then "async " else "") := by split <;> decide
  cases haccess : m.access <;>
    simp only [Profile.opening, haccess, isPlain_append, hname, htype, hmark, and_true] <;>
    decide

theorem readsLines_method {m : Method} (h : m.HasWordNames) :
    ReadsLines step (.code false) (((Profile.python true).methodText "    " m).map Text.toList)
      (.code false) (methodOutline m) := by
  have hopening : IsPlain isCodeChar ("    " ++ (Profile.python true).opening m) :=
    isPlain_append.mpr ⟨isPlain_ofList (by decide), isPlain_opening h⟩
  have hindent : ("    " : Text) ++ ("    " : Text) = "        " := rfl
  have hbody : ReadsLines step (.code false)
      ((statements m).map fun st => (.plain "        " ++ st.text).toList) (.code false)
      ((statements m).map fun st => code "        " ++ st.outline) :=
    ReadsLines.map fun st hst => reads_statement h hst
  have hlines : ((Profile.python true).methodText "    " m).map Text.toList =
      [] :: ("    " ++ (Profile.python true).opening m).toList ::
        (statements m).map fun st => (.plain "        " ++ st.text).toList := by
    simp only [Profile.methodText, Profile.block, Profile.target, Target.body, body,
      Profile.closing, List.map_cons, List.map_map, List.map_nil, List.append_nil, hindent]
    rfl
  rw [hlines, methodOutline, code_append]
  refine ReadsLines.cons rfl (ReadsLines.cons ?_ hbody)
  rw [← code_append]
  exact reads_codeLine hopening false

/-- What stands on top of the text, between quotes. -/
def headDoc (c : AccessorClass) : List Text := [
  "Typed accessor for the \"" ++ docText c.schema.storeName ++ "\" preference store.",
  "",
  "Generated by sharedpreform from " ++ docText c.schema.name ++ ". Do not edit."]

/-- The code between the two doc strings. -/
def importLines (c : AccessorClass) : List Text :=
  .plain "" :: (if c.schema.asyncFields = [] then [] else (["import asyncio"] : List Text)) ++
    (["from concurrent.futures import Executor", "", "", "class " ++ c.name ++ ":"] : List Text)

def classDoc (c : AccessorClass) : List Text :=
  ["    Reads and writes the preferences declared by " ++ docText c.schema.name ++ "."] ++
  (if docText (c.schema.description.getD "") = "" then ([] : List Text)
    else ["", "    " ++ docText (c.schema.description.getD "")]) ++
  (["",
    "    Synchronous methods block on the store. Async methods run the same",
    "    operation on ``executor`` (the event loop's default executor when None)",
    "    and must be awaited."] : List Text)

/-- The code behind the doc string of the class, up to its methods. -/
def memberLines (c : AccessorClass) : List Text :=
  (["", "    STORE_NAME = " ++ stringLiteral c.schema.storeName, ""] : List Text) ++
    constructorLines

/-- The methods of a class below its other members. -/
def methodTexts (c : AccessorClass) : List Text :=
  c.methods.flatMap ((Profile.python true).methodText "    ")

theorem sourceLines_eq {c : AccessorClass} (h : c.parameters = parameters) :
    sourceLines ⟨true, true, "    "⟩ c =
      (.plain "\"\"\"" :: headDoc c) ++ (.plain "\"\"\"" :: importLines c) ++
        (.plain "    \"\"\"" :: classDoc c) ++ (.plain "    \"\"\"" :: memberLines c) ++
        methodTexts c ++ ([""] : List Text) := by
  have hinit : ("    def __init__" : Text) ++ signature true parameters ++ ":" =
      "    def __init__(self, store_provider, executor: Executor | None = None):" := by
    decide +kernel
  unfold sourceLines commentLines headDoc importLines classDoc memberLines constructorLines
    methodTexts
  simp only [h, hinit, Text.plain_append, String.reduceAppend, if_true, funext (methodLines_eq _),
    List.append_assoc, List.cons_append, List.nil_append]

theorem isDoc_docText {before after : Text} {n : Nat}
    (hbefore : quotesAfter? 0 before.toList = some n) (s : Text)
    (hafter : ∀ m ≤ n, ∃ k, quotesAfter? m after.toList = some k) :
    IsDoc (before ++ docText s ++ after).toList := by
  obtain ⟨m, hm, htext⟩ := quotesAfter?_docText n s
  obtain ⟨k, hk⟩ := hafter m hm
  refine ⟨k, ?_⟩
  rw [Text.toList_append, Text.toList_append, List.append_assoc, quotesAfter?_append _ hbefore,
    quotesAfter?_append _ htext, hk]

theorem isDoc_ofList {cs : List Char} (h : quotesAfter? 0 (cs.map char) = some 0) :
    IsDoc (String.ofList cs : Text).toList := by
  rw [Text.toList_plain, String.toList_ofList]
  exact ⟨0, h⟩

theorem isDoc_headDoc (c : AccessorClass) : ∀ l ∈ (headDoc c).map Text.toList, IsDoc l := by
  have hstore : IsDoc ("Typed accessor for the \"" ++ docText c.schema.storeName ++
      "\" preference store.").toList := by
    refine isDoc_docText (n := 1) (by decide +kernel) c.schema.storeName fun m hm => ⟨0, ?_⟩
    -- with the quote behind the name at most two stand together
    obtain rfl | rfl : m = 0 ∨ m = 1 := by omega
    · decide +kernel
    · decide +kernel
  have hname : IsDoc ("Generated by sharedpreform from " ++ docText c.schema.name ++
      ". Do not edit.").toList := by
    refine isDoc_docText (n := 0) (by decide +kernel) c.schema.name fun m hm => ⟨0, ?_⟩
    obtain rfl : m = 0 := by omega
    decide +kernel
  have hempty : IsDoc ("" : Text).toList := ⟨0, rfl⟩
  simp only [headDoc, List.forall_mem_map, List.forall_mem_cons]
  exact ⟨hstore, hempty, hname, List.forall_mem_nil _⟩

theorem isDoc_classDoc (c : AccessorClass) : ∀ l ∈ (classDoc c).map Text.toList, IsDoc l := by
  have hname : IsDoc ("    Reads and writes the preferences declared by " ++
      docText c.schema.name ++ ".").toList := by
    refine isDoc_docText (n := 0) (by decide +kernel) c.schema.name fun m hm => ⟨0, ?_⟩
    obtain rfl : m = 0 := by omega
    decide +kernel
  have hdescription (s : Text) : IsDoc ("    " ++ docText s).toList := by
    rw [← Text.append_empty ("    " ++ docText s)]
    exact isDoc_docText (n := 0) (by decide +kernel) s fun m _ => ⟨m, rfl⟩
  have hempty : IsDoc ("" : Text).toList := ⟨0, rfl⟩
  simp only [classDoc, List.forall_mem_map, List.forall_mem_append, List.forall_mem_cons]
  refine ⟨⟨⟨hname, List.forall_mem_nil _⟩, ?_⟩, hempty, isDoc_ofList (by decide),
    isDoc_ofList (by decide), isDoc_ofList (by decide), List.forall_mem_nil _⟩
  split
  · exact List.forall_mem_nil _
  · simp only [List.forall_mem_cons]
    exact ⟨hempty, hdescription _, List.forall_mem_nil _⟩

theorem isSettled_importLines {inner : List CodePoint} (hinner : IsFull inner) (c : AccessorClass) :
    IsSettled 0 ((importLines c).map Text.toList ++ [inner]) := by
  have hlast : IsSettled 0 [[], [], ("class " ++ c.name ++ ":").toList, inner] :=
    Or.inl ⟨rfl, by decide, Or.inl ⟨rfl, by decide, Or.inr ⟨full_append (by decide) _,
      Or.inr ⟨hinner, trivial⟩⟩⟩⟩
  have hasync : IsFull ("import asyncio" : Text).toList := full_ofList (by decide)
  have hexecutor : IsFull ("from concurrent.futures import Executor" : Text).toList :=
    full_ofList (by decide)
  unfold importLines
  split
  · exact Or.inl ⟨rfl, by decide, Or.inr ⟨hexecutor, hlast⟩⟩
  · exact Or.inl ⟨rfl, by decide, Or.inr ⟨hasync, Or.inr ⟨hexecutor, hlast⟩⟩⟩

theorem isPlain_importLines {c : AccessorClass} (h : Naming.IsWord c.name.toList) :
    ∀ l ∈ importLines c, IsPlain isCodeChar l := by
  have hname := isPlain_of_isWord isCodeChar_of_isNumeralChar h
  have hclass : IsPlain isCodeChar ("class " ++ c.name ++ ":") :=
    isPlain_append.mpr
      ⟨isPlain_append.mpr ⟨isPlain_ofList (by decide), hname⟩, by decide⟩
  have hasync : ∀ l ∈ if c.schema.asyncFields = [] then [] else (["import asyncio"] : List Text),
      IsPlain isCodeChar l := by
    split
    · exact List.forall_mem_nil _
    · exact List.forall_mem_singleton.mpr (isPlain_ofList (by decide))
  have hexecutor : IsPlain isCodeChar "from concurrent.futures import Executor" :=
    isPlain_ofList (by decide)
  have hempty : IsPlain isCodeChar "" := by decide
  simp only [importLines, List.forall_mem_append, List.forall_mem_cons]
  exact ⟨⟨hempty, hasync⟩, hexecutor, hempty, hempty, hclass, List.forall_mem_nil _⟩

theorem isPlain_constructorLines : ∀ l ∈ constructorLines, IsPlain isCodeChar l := by
  simp only [constructorLines, List.forall_mem_cons]
  exact ⟨isPlain_ofList (by decide), isPlain_ofList (by decide), isPlain_ofList (by decide),
    List.forall_mem_nil _⟩

theorem full_stringLiteral (s : Text) : IsFull (stringLiteral s).toList := by
  rw [toList_stringLiteral, ← List.cons_append]
  exact ⟨_, char '"', rfl, by decide⟩

theorem isSettled_memberLines (c : AccessorClass) :
    IsSettled 0 ((memberLines c).map Text.toList) ∧
      emptyAfter 0 ((memberLines c).map Text.toList) = 0 := by
  have hstore : IsFull ("    STORE_NAME = " ++ stringLiteral c.schema.storeName).toList :=
    full_append (full_stringLiteral c.schema.storeName) _
  have hconstructor : ∀ l ∈ constructorLines.map Text.toList, IsFull l := by
    simp only [constructorLines, List.forall_mem_map, List.forall_mem_cons]
    exact ⟨full_ofList (by decide), full_ofList (by decide), full_ofList (by decide),
      List.forall_mem_nil _⟩
  have hbefore : IsSettled 0
      [[], ("    STORE_NAME = " ++ stringLiteral c.schema.storeName).toList, []] :=
    Or.inl ⟨rfl, by decide, Or.inr ⟨hstore, Or.inl ⟨rfl, by decide, trivial⟩⟩⟩
  rw [memberLines, List.map_append]
  refine ⟨hbefore.append (isSettled_of_full hconstructor _), ?_⟩
  rw [emptyAfter_append]
  unfold constructorLines at hconstructor ⊢
  exact emptyAfter_cons_of_full hconstructor _

theorem feedless_memberLines (c : AccessorClass) : ∀ l ∈ memberLines c, Feedless l := by
  have hstore : Feedless ("    STORE_NAME = " ++ stringLiteral c.schema.storeName) :=
    feedless_append.mpr ⟨feedless_ofList (by decide), feedless_stringLiteral _⟩
  have hempty : Feedless "" := by decide
  simp only [memberLines, List.forall_mem_append, List.forall_mem_cons]
  exact ⟨⟨hempty, hstore, hempty, List.forall_mem_nil _⟩,
    fun l hl => (isPlain_constructorLines l hl).feedless⟩

theorem isSettled_methodTexts {c : AccessorClass} (h : ∀ m ∈ c.methods, m.HasWordNames) :
    IsSettled 0 ((methodTexts c).map Text.toList) ∧
      emptyAfter 0 ((methodTexts c).map Text.toList) = 0 := by
  have hblock : ∀ m ∈ c.methods, ∀ l ∈ (Profile.python true).block "    " m, IsFullLine l :=
    fun m hm => (Profile.python true).isFullLine_block (by decide) (h m hm)
  have hsettled := Generator.isSettled_methods hblock
  rwa [Profile.closing, List.append_nil] at hsettled

theorem feedless_methodTexts {c : AccessorClass} (h : ∀ m ∈ c.methods, m.HasWordNames) :
    ∀ l ∈ methodTexts c, Feedless l := by
  have hblock : ∀ m ∈ c.methods, ∀ l ∈ (Profile.python true).block "    " m, IsFullLine l :=
    fun m hm => (Profile.python true).isFullLine_block (by decide) (h m hm)
  have hfeed := Generator.feedless_methods hblock
  rwa [Profile.closing, List.append_nil] at hfeed

/-- The lines of the text of a class: the layout touches only those of doc strings. -/
def laidOut (quotes inner : List CodePoint) (c : AccessorClass) : List (List CodePoint) :=
  quotes :: (settleLines 0 (linesOf (headDoc c)) ++
    quotes :: ((importLines c).map Text.toList ++ [inner]) ++
      settleLines 0 (linesOf (classDoc c))) ++
    inner :: ((memberLines c).map Text.toList ++ (methodTexts c).map Text.toList)

theorem layoutLines_class {quotes inner : List CodePoint} (hquotes : IsFull quotes)
    (hinner : IsFull inner) {c : AccessorClass} (hmethods : ∀ m ∈ c.methods, m.HasWordNames) :
    layoutLines (quotes :: (linesOf (headDoc c) ++
      quotes :: ((importLines c).map Text.toList ++ [inner]) ++ linesOf (classDoc c)) ++
      inner :: ((memberLines c).map Text.toList ++ (methodTexts c).map Text.toList) ++ [[]]) =
      laidOut quotes inner c := by
  obtain ⟨hmembers, hmembersEmpty⟩ := isSettled_memberLines c
  obtain ⟨htexts, htextsEmpty⟩ := isSettled_methodTexts hmethods
  have hrest : IsSettled 0
      ((memberLines c).map Text.toList ++ (methodTexts c).map Text.toList) := by
    refine hmembers.append ?_
    rw [hmembersEmpty]
    exact htexts
  have hrestEmpty : emptyAfter 0
      ((memberLines c).map Text.toList ++ (methodTexts c).map Text.toList) = 0 := by
    rw [emptyAfter_append, hmembersEmpty, htextsEmpty]
  rw [layoutLines_eq hquotes hinner hrest hrestEmpty,
    settleLines_block hquotes (isSettled_importLines hinner c) (emptyAfter_concat hinner 0 _),
    laidOut]

theorem sourceOf_sourceLines {c : AccessorClass} (hparameters : c.parameters = parameters)
    (hname : Naming.IsWord c.name.toList) (hmethods : ∀ m ∈ c.methods, m.HasWordNames) :
    (Generator.sourceOf (sourceLines ⟨true, true, "    "⟩ c)).toList =
      ofLines (laidOut ("\"\"\"" : Text).toList ("    \"\"\"" : Text).toList c) := by
  have hlines : linesOf (sourceLines ⟨true, true, "    "⟩ c) =
      ("\"\"\"" : Text).toList :: (linesOf (headDoc c) ++
        ("\"\"\"" : Text).toList ::
          ((importLines c).map Text.toList ++ [("    \"\"\"" : Text).toList]) ++
          linesOf (classDoc c)) ++
        ("    \"\"\"" : Text).toList ::
          ((memberLines c).map Text.toList ++ (methodTexts c).map Text.toList) ++ [[]] := by
    have hquotes : Feedless "\"\"\"" := by decide
    have hinner : Feedless "    \"\"\"" := by decide
    have hnone : linesOf [""] = [[]] := by decide +kernel
    rw [sourceLines_eq hparameters]
    simp only [linesOf_append, linesOf_cons hquotes, linesOf_cons hinner, hnone,
      linesOf_of_feedless fun l hl => (isPlain_importLines hname l hl).feedless,
      linesOf_of_feedless (feedless_memberLines c),
      linesOf_of_feedless (feedless_methodTexts hmethods), List.append_assoc, List.cons_append,
      List.nil_append]
  refine Generator.sourceOf_eq_ofLines ?_ (List.cons_ne_nil _ _)
  rw [← layoutLines_class (by decide) (by decide) hmethods, ← hlines]

theorem readsLines_plain {ls : List Text} (h : ∀ l ∈ ls, IsPlain isCodeChar l) :
    ReadsLines step (.code false) (ls.map Text.toList) (.code false) (ls.map code) :=
  ReadsLines.map fun l hl => reads_codeLine (h l hl) false

/-- A doc string on lines of its own, behind the code in front of it. -/
theorem readsLines_docString {opening closing : List CodePoint} {p : List Piece} {pieces : List Text}
    (hopen : Reads step (.code false) (opening ++ [char '\n']) (.long 0) p)
    (hclose : Reads step (.long 0) (closing ++ [char '\n']) (.code false) [.literal, .code '\n'])
    (hdoc : ∀ l ∈ pieces.map Text.toList, IsDoc l) :
    ReadsLines step (.code false) (opening :: settleLines 0 (linesOf pieces) ++ [closing])
      (.code false) [p ++ [.literal]] := by
  have hall := (hopen.append (readsLines_doc hdoc 0)).append hclose
  simpa [ReadsLines, linePieces, linesOf] using hall

theorem readsLines_memberLines (c : AccessorClass) :
    ReadsLines step (.code false) ((memberLines c).map Text.toList) (.code false)
      ([[], code "    STORE_NAME = " ++ [.literal], []] ++ constructorLines.map code) := by
  have hempty : Reads step (.code false) ([] ++ [char '\n']) (.code false) ([] ++ [.code '\n']) := rfl
  have hstore : Reads step (.code false)
      (("    STORE_NAME = " ++ stringLiteral c.schema.storeName).toList ++ [char '\n']) (.code false)
      (code "    STORE_NAME = " ++ [.literal] ++ [.code '\n']) := by
    have hcode := reads_code (s := "    STORE_NAME = ") (isPlain_ofList (by decide)) false
    have hliteral := reads_stringLiteral c.schema.storeName (c := '\n') (by decide)
    rw [Text.toList_append, List.append_assoc, List.append_assoc]
    exact hcode.append hliteral
  unfold memberLines
  refine ReadsLines.cons hempty (ReadsLines.cons hstore (ReadsLines.cons hempty ?_))
  exact readsLines_plain isPlain_constructorLines

theorem readsLines_laidOut {c : AccessorClass} (hname : Naming.IsWord c.name.toList)
    (hmethods : ∀ m ∈ c.methods, m.HasWordNames) :
    ReadsLines step (.code false)
      (laidOut ("\"\"\"" : Text).toList ("    \"\"\"" : Text).toList c) (.code false)
      (outline c) := by
  have hhead : ReadsLines step (.code false)
      (("\"\"\"" : Text).toList :: settleLines 0 (linesOf (headDoc c)) ++
        [("\"\"\"" : Text).toList]) (.code false)
      [[.literal]] :=
    readsLines_docString (p := []) rfl rfl (isDoc_headDoc c)
  have hdoc : ReadsLines step (.code false)
      (("    \"\"\"" : Text).toList :: settleLines 0 (linesOf (classDoc c)) ++
        [("    \"\"\"" : Text).toList])
      (.code false) [code "    " ++ [.literal]] :=
    readsLines_docString (p := code "    ") rfl rfl (isDoc_classDoc c)
  have htexts : ReadsLines step (.code false) ((methodTexts c).map Text.toList) (.code false)
      (c.methods.flatMap methodOutline) := by
    rw [methodTexts, List.map_flatMap]
    exact ReadsLines.flatMap fun m hm => readsLines_method (hmethods m hm)
  have hall := ((hhead.append (readsLines_plain (isPlain_importLines hname))).append hdoc).append
    ((readsLines_memberLines c).append htexts)
  have himports : (importLines c).map code =
      [] :: (if c.schema.asyncFields = [] then [] else [code "import asyncio"]) ++
        [code "from concurrent.futures import Executor", [], [],
          code ("class " ++ c.name ++ ":")] := by
    unfold importLines
    split <;> rfl
  rw [himports] at hall
  simpa only [laidOut, outline, List.append_assoc, List.cons_append, List.nil_append] using hall

/-- The text of a class under the default settings is read as its outline. -/
theorem readCode?_sourceOf {c : AccessorClass} (hparameters : c.parameters = parameters)
    (hname : Naming.IsWord c.name.toList) (hmethods : ∀ m ∈ c.methods, m.HasWordNames) :
    readCode? (Generator.sourceOf (sourceLines ⟨true, true, "    "⟩ c)) =
      some (linePieces (outline c)) := by
  have hall : run step (.code false)
      (Generator.sourceOf (sourceLines ⟨true, true, "    "⟩ c)).toList =
        (.code false, linePieces (outline c)) := by
    rw [sourceOf_sourceLines hparameters hname hmethods]
    exact readsLines_laidOut hname hmethods
  rw [readCode?, hall]

end PrefAccessor.Python
