import PrefAccessor.Proofs.Erasure
import PrefAccessor.Proofs.KotlinReading

/-!
# The code of a Kotlin class

The lines of code that the text of a class under the default settings is read as, with a piece for
each literal and comment. The package stands in it as it is written.
-/

namespace PrefAccessor.Kotlin

set_option autoImplicit false

open Reading Text

def literalOutline (type : PrefType) : PrefValue → List Piece
  | .string _ => [.literal]
  | v => code (literal type v)

def readOutline (m : Method) : List Piece :=
  code ("sharedPreferences." ++ call "get" m.field.type ++ "(") ++ [.literal] ++ code ", " ++
    literalOutline m.field.type m.default ++ code ")"

def writeOutline (m : Method) : List Piece :=
  code ("sharedPreferences.edit()." ++ call "put" m.field.type ++ "(") ++ [.literal] ++
    code ", value).apply()"

def dispatchedOutline (p : List Piece) : List Piece :=
  code "withContext(dispatcher) \x7b " ++ p ++ code " \x7d"

def bodyOutline (m : Method) : List Piece :=
  match m.access, m.isAsync with
  | .get, false => code "return " ++ readOutline m
  | .set, false => writeOutline m
  | .get, true => code "return " ++ dispatchedOutline (readOutline m)
  | .set, true => dispatchedOutline (writeOutline m)

/-- The default profile, whose class of the context and dispatcher stand in all texts. -/
def plainProfile : Profile :=
  .kotlin (.string "android.content.Context") (.string "Dispatchers.IO")

def methodOutline (m : Method) : List (List Piece) :=
  [[], code ("    " ++ plainProfile.opening m), code "        " ++ bodyOutline m, code "    \x7d"]

/-- What every class imports. -/
def importLines : List Text := [
  "import android.content.Context",
  "import android.content.SharedPreferences",
  "import kotlinx.coroutines.CoroutineDispatcher",
  "import kotlinx.coroutines.Dispatchers",
  "import kotlinx.coroutines.withContext"]

/-- The package line, if there is a package. -/
def packageOutline (package : Text) : List (List Piece) :=
  if package = "" then [] else [code ("package " ++ package)]

/-- The opening of a class, up to the store that it reads and writes. -/
def headerLines (c : AccessorClass) : List Text := [
  "public class " ++ c.name ++ "(",
  "    context: Context,",
  "    private val dispatcher: CoroutineDispatcher = Dispatchers.IO,",
  ") \x7b",
  "    private val sharedPreferences: SharedPreferences ="]

/-- The code of a class behind its package. -/
def classOutline (c : AccessorClass) : List (List Piece) :=
  [[]] ++
  importLines.map code ++
  [[], [.comment]] ++
  (headerLines c).map code ++
  [code "        context.getSharedPreferences(" ++ [.literal] ++ code ", Context.MODE_PRIVATE)"] ++
  c.methods.flatMap methodOutline ++
  [code "\x7d"]

/-- The code of a class, line by line, in the package of the given name. -/
def outline (package : Text) (c : AccessorClass) : List (List Piece) :=
  [[.comment]] ++ packageOutline package ++ classOutline c

/-- The outline of a class tells its package line. -/
theorem packageOutline_eq_of_outline_eq {package other : Text} {c : AccessorClass}
    (h : linePieces (outline package c) = linePieces (outline other c)) :
    linePieces (packageOutline package) = linePieces (packageOutline other) := by
  simp only [outline, linePieces_append] at h
  exact List.append_cancel_left (List.append_cancel_right h)

theorem literalOutline_erased (type : PrefType) (v : PrefValue) :
    literalOutline type v.erased = literalOutline type v := by
  cases v <;> rfl

theorem methodOutline_erased (m : Method) : methodOutline m.erased = methodOutline m := by
  obtain ⟨name, access, field, default, twin⟩ := m
  cases access <;> cases twin <;>
    simp [methodOutline, bodyOutline, readOutline, writeOutline, Method.erased, Method.isAsync,
      plainProfile, Profile.opening, literalOutline_erased, Field.erased]

theorem outline_erased (package : Text) (c : AccessorClass) :
    outline package c.erased = outline package c := by
  have hmethods : c.erased.methods.flatMap methodOutline = c.methods.flatMap methodOutline := by
    simp only [AccessorClass.erased, List.flatMap_map, methodOutline_erased]
  simp only [outline, classOutline, hmethods]
  rfl

/-- A literal together with the code behind it. -/
theorem reads_literal_append (s : Text) {t : Text} (ht : IsPlain isCodeChar t) (hne : t ≠ "") :
    Reads step .code (stringLiteral s ++ t).toList .code (.literal :: code t) := by
  rw [Text.toList_append, code]
  cases htail : t.toList with
  | nil => exact absurd (Text.toList_eq_nil_iff.mp htail) hne
  | cons c cs =>
    have hchar {d : CodePoint} (hd : d ∈ c :: cs) : isCodeChar d = true := ht.mem (htail ▸ hd)
    have hliteral := reads_stringLiteral s (hchar List.mem_cons_self)
    have hrest := reads_plain fun d hd => hchar (List.mem_cons_of_mem c hd)
    simpa using hliteral.append hrest

theorem reads_default (type : PrefType) (v : PrefValue) :
    Reads step .code (literal type v ++ ")").toList .code
      (literalOutline type v ++ code ")") := by
  have hplain {s : Text} (hs : IsPlain isCodeChar s) :
      Reads step .code (s ++ ")").toList .code (code s ++ code ")") := by
    rw [Text.toList_append]
    exact (reads_code hs).append rfl
  cases v with
  | string s => exact reads_literal_append s (isPlain_ofList (by decide)) (by decide)
  | _ =>
    exact hplain
      (isPlain_of_isNumeral isCodeChar_of_isNumeralChar (isNumeral_literal type (by simp)))

theorem isPlain_call {verb : String} (h : verb ∈ ["get", "put"]) (type : PrefType) :
    IsPlain isCodeChar (call verb type) := by
  revert verb
  cases type <;> decide +kernel

theorem isPlain_typeName (type : PrefType) : IsPlain isCodeChar (typeName type) := by
  cases type <;> decide

theorem reads_readText (m : Method) :
    Reads step .code (readText m).toList .code (readOutline m) := by
  have hopen : IsPlain isCodeChar ("sharedPreferences." ++ call "get" m.field.type ++ "(") :=
    isPlain_append.mpr
      ⟨isPlain_append.mpr ⟨isPlain_ofList (by decide), isPlain_call (by decide) _⟩, by decide⟩
  have hkey := reads_literal_append m.field.key (t := ", ") (isPlain_ofList (by decide)) (by decide)
  have hall := ((reads_code hopen).append hkey).append (reads_default m.field.type m.default)
  unfold readText readOutline
  simpa only [Text.toList_append, code_append, List.append_assoc, List.cons_append,
    List.nil_append] using hall

theorem reads_writeText (m : Method) :
    Reads step .code (writeText m).toList .code (writeOutline m) := by
  have hopen : IsPlain isCodeChar ("sharedPreferences.edit()." ++ call "put" m.field.type ++ "(") :=
    isPlain_append.mpr
      ⟨isPlain_append.mpr ⟨isPlain_ofList (by decide), isPlain_call (by decide) _⟩, by decide⟩
  have hkey := reads_literal_append m.field.key (t := ", value).apply()")
    (isPlain_ofList (by decide)) (by decide)
  have hall := (reads_code hopen).append hkey
  unfold writeText writeOutline
  simpa only [Text.toList_append, code_append, List.append_assoc, List.cons_append,
    List.nil_append] using hall

theorem reads_dispatched {s : Text} {p : List Piece} (h : Reads step .code s.toList .code p) :
    Reads step .code (dispatched s).toList .code (dispatchedOutline p) := by
  have hopen := reads_code (s := "withContext(dispatcher) \x7b ") (isPlain_ofList (by decide))
  have hclose := reads_code (s := " \x7d") (by decide)
  have hall := (hopen.append h).append hclose
  unfold dispatched dispatchedOutline
  simpa only [Text.toList_append] using hall

theorem reads_body (m : Method) :
    ∃ s, body m = [s] ∧ Reads step .code s.toList .code (bodyOutline m) := by
  have hreturn {s : Text} {p : List Piece} (h : Reads step .code s.toList .code p) :
      Reads step .code ("return " ++ s).toList .code (code "return " ++ p) := by
    rw [Text.toList_append]
    exact (reads_code (isPlain_ofList (by decide))).append h
  cases haccess : m.access <;> cases hasync : m.isAsync <;>
    simp only [body, bodyOutline, haccess, hasync]
  · exact ⟨_, rfl, hreturn (reads_readText m)⟩
  · exact ⟨_, rfl, hreturn (reads_dispatched (reads_readText m))⟩
  · exact ⟨_, rfl, reads_writeText m⟩
  · exact ⟨_, rfl, reads_dispatched (reads_writeText m)⟩

theorem isPlain_opening {m : Method} (h : m.HasWordNames) :
    IsPlain isCodeChar (plainProfile.opening m) := by
  have hname := isPlain_of_isWord isCodeChar_of_isNumeralChar h.1
  have htype := isPlain_typeName m.field.type
  have hmark : IsPlain isCodeChar (if m.isAsync then "suspend " else "") := by split <;> decide
  cases haccess : m.access <;>
    simp only [plainProfile, Profile.opening, haccess, isPlain_append, hname, htype, hmark,
      and_true] <;>
    decide

theorem readsLines_method {m : Method} (h : m.HasWordNames) :
    ReadsLines step .code ((plainProfile.methodText "    " m).map Text.toList) .code
      (methodOutline m) := by
  have hopening : IsPlain isCodeChar ("    " ++ plainProfile.opening m) :=
    isPlain_append.mpr ⟨isPlain_ofList (by decide), isPlain_opening h⟩
  have hindent : ("    " : Text) ++ ("    " : Text) = "        " := rfl
  have hclosing : ("    " : Text) ++ ("\x7d" : Text) = "    \x7d" := rfl
  obtain ⟨s, hbody, hs⟩ := reads_body m
  have hline : Reads step .code (("        " ++ s).toList ++ [char '\n']) .code
      (code "        " ++ bodyOutline m ++ [.code '\n']) := by
    rw [Text.toList_append]
    exact ((reads_code (isPlain_ofList (by decide))).append hs).append rfl
  have hlines : (plainProfile.methodText "    " m).map Text.toList =
      [[], ("    " ++ plainProfile.opening m).toList, ("        " ++ s).toList,
        ("    \x7d" : Text).toList] := by
    simp only [Profile.methodText, Profile.block, plainProfile, Profile.target, Target.body, hbody,
      Profile.closing, List.map_cons, List.map_nil, hindent, hclosing]
    rfl
  rw [hlines, methodOutline]
  exact ReadsLines.cons rfl (ReadsLines.cons (reads_codeLine hopening) (ReadsLines.cons hline
    (ReadsLines.single (reads_codeLine (by decide)))))

/-- The first line of a class, which is a comment. -/
def firstLine (c : AccessorClass) : Text :=
  "// Generated by sharedpreform from " ++ commentText c.schema.name ++ ". Do not edit."

/-- The package line, if there is a package. -/
def packagePieces (package : Text) : List Text :=
  if package = "" then [] else ["package " ++ package]

/-- The code in front of the comment of the class, and the mark that opens the comment. -/
def headLines : List Text :=
  .plain "" :: importLines ++ (["", "/**"] : List Text)

/-- The lines of the comment of the class. -/
def commentBody (c : AccessorClass) : List Text :=
  (" * Reads and writes the \"" ++ commentText c.schema.storeName ++
    "\" preferences declared by " ++ commentText c.schema.name ++ ".") ::
  if commentText (c.schema.description.getD "") = "" then ([] : List Text)
    else [" *", " * " ++ commentText (c.schema.description.getD "")]

/-- The line of a class that names its store. -/
def storeLine (c : AccessorClass) : Text :=
  "        context.getSharedPreferences(" ++ stringLiteral c.schema.storeName ++
    ", Context.MODE_PRIVATE)"

/-- The code of the class in front of its methods. -/
def classLines (c : AccessorClass) : List Text :=
  headerLines c ++ [storeLine c]

/-- The methods of a class, and what ends it. -/
def methodTexts (c : AccessorClass) : List Text :=
  c.methods.flatMap (plainProfile.methodText "    ") ++ (["\x7d"] : List Text)

def plainOptions : Options where
  contextClass := "android.content.Context"
  comments := true
  indent := "    "

def plainParameters : List Parameter :=
  parameters "android.content.Context" (.string "Dispatchers.IO")

theorem imports_context : imports "android.content.Context" =
    .plain "android.content.Context" :: baseImports := by
  have hdistinct : distinct (.plain "android.content.Context" :: baseImports) =
      .plain "android.content.Context" :: baseImports := by decide +kernel
  have hsorted : (.plain "android.content.Context" :: baseImports).Pairwise
      fun a b => textLe a b = true := by decide +kernel
  rw [imports, hdistinct, List.mergeSort_of_pairwise hsorted]

theorem sourceLines_eq (segments : List Text) {c : AccessorClass}
    (h : c.parameters = plainParameters) :
    sourceLines plainOptions segments c =
      firstLine c :: (packagePieces (packageName segments) ++ headLines ++ commentBody c) ++
        .plain " */" :: (classLines c ++ methodTexts c) ++ ([""] : List Text) := by
  have hparameters : parameterLines plainOptions plainParameters =
      (["    context: Context,",
        "    private val dispatcher: CoroutineDispatcher = Dispatchers.IO,"] : List Text) := by
    decide +kernel
  have hname : simpleName "android.content.Context" = "Context" := by decide +kernel
  have hmode (s : Text) : s ++ ", " ++ "Context" ++ ".MODE_PRIVATE)" =
      s ++ ", Context.MODE_PRIVATE)" := by
    rw [Text.append_assoc, Text.append_assoc]
    rfl
  have himports :
      (.plain "android.content.Context" :: baseImports).map (.plain "import " ++ ·) = importLines := by
    simp only [baseImports, importLines, List.map_cons, List.map_nil, Text.plain_append,
      String.reduceAppend]
  have hmethods : methodLines plainOptions = plainProfile.methodText "    " :=
    funext (methodLines_eq plainOptions _ _)
  unfold sourceLines commentLines firstLine commentBody packagePieces headLines classLines
    headerLines storeLine methodTexts
  rw [h, hparameters, hmethods]
  simp only [plainOptions, imports_context, himports, hname, hmode, Text.plain_append,
    String.reduceAppend, if_true, List.append_assoc, List.cons_append, List.nil_append]

/-- A package whose line is code, on one line or several that stay under the layout. -/
structure IsPackage (package : Text) : Prop where
  reads : Reads step .code package.toList .code (code package)
  full : ∀ l ∈ linesOf (packagePieces package), IsFull l

/-- Names make a package on one line. -/
theorem isPackage_of_names {segments : List Text} (h : ∀ s ∈ segments, IsName s) :
    IsPackage (packageName segments) := by
  refine ⟨reads_packageName h, fun l hl => ?_⟩
  have hblank := isBlank_packageName h
  unfold packagePieces at hl
  split at hl
  · cases hl
  · rename_i hne
    obtain ⟨init, c, hlast⟩ := List.eq_nil_or_concat (packageName segments).toList |>.resolve_left
      fun hnil => hne (Text.toList_eq_nil_iff.mp hnil)
    rw [List.concat_eq_append] at hlast
    have hfull : IsFull ("package " ++ packageName segments).toList :=
      full_append ⟨init, c, hlast, hblank c (by simp [hlast])⟩ _
    have hfeed : Feedless ("package " ++ packageName segments) :=
      feedless_append.mpr
        ⟨feedless_ofList (by decide), fun hmem => absurd (hblank _ hmem) (by decide)⟩
    rw [linesOf_cons hfeed] at hl
    rw [List.mem_singleton.mp hl]
    exact hfull

theorem isSettled_headLines {package : List (List CodePoint)} (h : ∀ l ∈ package, IsFull l) :
    IsSettled 0 (package ++ headLines.map Text.toList) ∧
      emptyAfter 0 (package ++ headLines.map Text.toList) = 0 := by
  have himports : ∀ l ∈ importLines.map Text.toList, IsFull l := by
    simp only [importLines, List.forall_mem_map, List.forall_mem_cons]
    exact ⟨full_ofList (by decide), full_ofList (by decide), full_ofList (by decide),
      full_ofList (by decide), full_ofList (by decide), List.forall_mem_nil _⟩
  have hopen : IsFull ("/**" : Text).toList := by decide
  have hlines : headLines.map Text.toList =
      [] :: (importLines.map Text.toList ++ [[], ("/**" : Text).toList]) := by
    simp only [headLines, List.map_append, List.map_cons, List.map_nil, Text.toList_empty,
      List.cons_append]
  have hhead : IsSettled 0 (headLines.map Text.toList) := by
    rw [hlines]
    refine Or.inl ⟨rfl, by decide, (isSettled_of_full himports 1).append ?_⟩
    unfold importLines at himports ⊢
    rw [List.map_cons] at himports ⊢
    rw [emptyAfter_cons_of_full himports]
    exact Or.inl ⟨rfl, by decide, Or.inr ⟨hopen, trivial⟩⟩
  have hpackage : IsSettled (emptyAfter 0 package) (headLines.map Text.toList) := by
    rwa [emptyAfter_of_full h]
  refine ⟨(isSettled_of_full h 0).append hpackage, ?_⟩
  have hends : package ++ headLines.map Text.toList =
      package ++ [] :: (importLines.map Text.toList ++ [[]]) ++ [("/**" : Text).toList] := by
    simp only [hlines, List.append_assoc, List.cons_append, List.nil_append]
  rw [hends]
  exact emptyAfter_concat hopen 0 _

theorem full_classLines (c : AccessorClass) : ∀ l ∈ (classLines c).map Text.toList, IsFull l := by
  have hclass : IsFull ("public class " ++ c.name ++ "(").toList := full_append (by decide) _
  have hstore : IsFull (storeLine c).toList := full_append (full_ofList (by decide)) _
  simp only [classLines, headerLines, List.forall_mem_map, List.forall_mem_append,
    List.forall_mem_cons]
  exact ⟨⟨hclass, full_ofList (by decide), full_ofList (by decide), by decide,
    full_ofList (by decide), List.forall_mem_nil _⟩, hstore, List.forall_mem_nil _⟩

theorem isSettled_methodTexts {c : AccessorClass} (h : ∀ m ∈ c.methods, m.HasWordNames) :
    IsSettled 0 ((methodTexts c).map Text.toList) ∧
      emptyAfter 0 ((methodTexts c).map Text.toList) = 0 :=
  Generator.isSettled_methods fun m hm => plainProfile.isFullLine_block (by decide) (h m hm)

theorem feedless_methodTexts {c : AccessorClass} (h : ∀ m ∈ c.methods, m.HasWordNames) :
    ∀ l ∈ methodTexts c, Feedless l :=
  Generator.feedless_methods fun m hm => plainProfile.isFullLine_block (by decide) (h m hm)

/-- The lines of the text of a class: the layout touches only those of its comment. -/
def laidOut (first closing : List CodePoint) (package : Text) (c : AccessorClass) :
    List (List CodePoint) :=
  first :: (linesOf (packagePieces package) ++ headLines.map Text.toList ++
    settleLines 0 ((commentBody c).map Text.toList)) ++
    closing :: ((classLines c).map Text.toList ++ (methodTexts c).map Text.toList)

theorem layoutLines_class {first closing : List CodePoint} (hfirst : IsFull first)
    (hclosing : IsFull closing) {package : Text} (hpackage : IsPackage package)
    {c : AccessorClass} (hmethods : ∀ m ∈ c.methods, m.HasWordNames) :
    layoutLines (first :: (linesOf (packagePieces package) ++ headLines.map Text.toList ++
      (commentBody c).map Text.toList) ++
      closing :: ((classLines c).map Text.toList ++ (methodTexts c).map Text.toList) ++ [[]]) =
      laidOut first closing package c := by
  obtain ⟨htexts, htextsEmpty⟩ := isSettled_methodTexts hmethods
  obtain ⟨hhead, hheadEmpty⟩ := isSettled_headLines hpackage.full
  have hclass := emptyAfter_of_full (full_classLines c)
  have hrest : IsSettled 0
      ((classLines c).map Text.toList ++ (methodTexts c).map Text.toList) := by
    refine (isSettled_of_full (full_classLines c) 0).append ?_
    rw [hclass]
    exact htexts
  have hrestEmpty : emptyAfter 0
      ((classLines c).map Text.toList ++ (methodTexts c).map Text.toList) = 0 := by
    rw [emptyAfter_append, hclass, htextsEmpty]
  rw [layoutLines_eq hfirst hclosing hrest hrestEmpty, settleLines_append, hhead.settleLines_eq,
    hheadEmpty, laidOut]

theorem feedless_commentText (s : Text) : Feedless (commentText s) :=
  fun hmem => (isLine_commentText s _ hmem).1 rfl

theorem feedless_firstLine (c : AccessorClass) : Feedless (firstLine c) :=
  feedless_append.mpr ⟨feedless_append.mpr ⟨feedless_ofList (by decide), feedless_commentText _⟩,
    feedless_ofList (by decide)⟩

theorem feedless_commentBody (c : AccessorClass) : ∀ l ∈ commentBody c, Feedless l := by
  have hfirst : Feedless (" * Reads and writes the \"" ++ commentText c.schema.storeName ++
      "\" preferences declared by " ++ commentText c.schema.name ++ ".") := by
    simp only [feedless_append, feedless_commentText, and_true]
    exact ⟨⟨feedless_ofList (by decide), feedless_ofList (by decide)⟩, by decide⟩
  have hdescription (s : Text) : Feedless (" * " ++ commentText s) :=
    feedless_append.mpr ⟨by decide, feedless_commentText s⟩
  rw [commentBody, List.forall_mem_cons]
  refine ⟨hfirst, ?_⟩
  split
  · exact List.forall_mem_nil _
  · simp only [List.forall_mem_cons]
    exact ⟨by decide, hdescription _, List.forall_mem_nil _⟩

theorem isPlain_headerLines {c : AccessorClass} (h : Naming.IsWord c.name.toList) :
    ∀ l ∈ headerLines c, IsPlain isCodeChar l := by
  have hname := isPlain_of_isWord isCodeChar_of_isNumeralChar h
  have hclass : IsPlain isCodeChar ("public class " ++ c.name ++ "(") :=
    isPlain_append.mpr
      ⟨isPlain_append.mpr ⟨isPlain_ofList (by decide), hname⟩, by decide⟩
  simp only [headerLines, List.forall_mem_cons]
  exact ⟨hclass, isPlain_ofList (by decide), isPlain_ofList (by decide), by decide,
    isPlain_ofList (by decide), List.forall_mem_nil _⟩

theorem feedless_classLines {c : AccessorClass} (h : Naming.IsWord c.name.toList) :
    ∀ l ∈ classLines c, Feedless l := by
  have hstore : Feedless (storeLine c) :=
    feedless_append.mpr ⟨feedless_append.mpr ⟨feedless_ofList (by decide),
      feedless_stringLiteral _⟩, feedless_ofList (by decide)⟩
  rw [classLines, List.forall_mem_append]
  exact ⟨fun l hl => (isPlain_headerLines h l hl).feedless, List.forall_mem_singleton.mpr hstore⟩

theorem isPlain_importLines : ∀ l ∈ importLines, IsPlain isCodeChar l := by
  simp only [importLines, List.forall_mem_cons]
  exact ⟨isPlain_ofList (by decide), isPlain_ofList (by decide), isPlain_ofList (by decide),
    isPlain_ofList (by decide), isPlain_ofList (by decide), List.forall_mem_nil _⟩

theorem sourceOf_sourceLines {segments : List Text} (hpackage : IsPackage (packageName segments))
    {c : AccessorClass} (hparameters : c.parameters = plainParameters)
    (hname : Naming.IsWord c.name.toList) (hmethods : ∀ m ∈ c.methods, m.HasWordNames) :
    (Generator.sourceOf (sourceLines plainOptions segments c)).toList =
      ofLines (laidOut (firstLine c).toList (" */" : Text).toList (packageName segments) c) := by
  have hlines : linesOf (sourceLines plainOptions segments c) =
      (firstLine c).toList :: (linesOf (packagePieces (packageName segments)) ++
        headLines.map Text.toList ++ (commentBody c).map Text.toList) ++
        (" */" : Text).toList :: ((classLines c).map Text.toList ++
          (methodTexts c).map Text.toList) ++ [[]] := by
    have hclosing : Feedless " */" := by decide
    have hhead : ∀ l ∈ headLines, Feedless l := by
      simp only [headLines, List.forall_mem_append, List.forall_mem_cons]
      exact ⟨⟨by decide, fun l hl => (isPlain_importLines l hl).feedless⟩, by decide, by decide,
        List.forall_mem_nil _⟩
    have hnone : linesOf [""] = [[]] := by decide +kernel
    rw [sourceLines_eq segments hparameters]
    simp only [linesOf_append, linesOf_cons (feedless_firstLine c), linesOf_cons hclosing, hnone,
      linesOf_of_feedless hhead, linesOf_of_feedless (feedless_commentBody c),
      linesOf_of_feedless (feedless_classLines hname),
      linesOf_of_feedless (feedless_methodTexts hmethods), List.append_assoc, List.cons_append]
  have hfirst : IsFull (firstLine c).toList := full_append (by decide) _
  refine Generator.sourceOf_eq_ofLines ?_ (List.cons_ne_nil _ _)
  rw [← layoutLines_class hfirst (by decide) hpackage hmethods, ← hlines]

theorem isComment_commentBody (c : AccessorClass) :
    ∀ l ∈ (commentBody c).map Text.toList, IsComment l := by
  have hopen : IsComment (" * Reads and writes the \"" : Text).toList := isComment_ofList (by decide)
  have hmiddle : IsComment ("\" preferences declared by " : Text).toList := isComment_ofList (by decide)
  have hend : IsComment ("." : Text).toList := .singleton _
  have hstar : IsComment (" * " : Text).toList := isComment_ofList (by decide)
  have hname := (isComment_commentText c.schema.name).append hend (Or.inr ⟨'.', rfl, by decide⟩)
  have hrest := hmiddle.append hname (Or.inl ⟨' ', rfl, by decide⟩)
  have hstore := (isComment_commentText c.schema.storeName).append hrest
    (Or.inr ⟨'"', rfl, by decide⟩)
  have hfirst := hopen.append hstore (Or.inl ⟨'"', rfl, by decide⟩)
  have hdescription (s : Text) : IsComment (" * " ++ commentText s).toList := by
    rw [Text.toList_append]
    exact hstar.append (isComment_commentText s) (Or.inl ⟨' ', rfl, by decide⟩)
  have hempty : IsComment (" *" : Text).toList := isComment_ofList (by decide)
  rw [commentBody, List.map_cons, List.forall_mem_cons]
  refine ⟨?_, ?_⟩
  · simpa only [Text.toList_append, List.append_assoc] using hfirst
  · split
    · exact List.forall_mem_nil _
    · simp only [List.forall_mem_map, List.forall_mem_cons]
      exact ⟨hempty, hdescription _, List.forall_mem_nil _⟩

theorem readsLines_packagePieces {package : Text} (h : IsPackage package) :
    ReadsLines step .code (linesOf (packagePieces package)) .code (packageOutline package) := by
  unfold packagePieces packageOutline
  split
  · rfl
  · have hpackage : Reads step .code ("package " ++ package).toList .code
        (code ("package " ++ package)) := by
      rw [Text.toList_append, code_append]
      exact (reads_code (isPlain_ofList (by decide))).append h.reads
    have hlines : ofLines (linesOf ["package " ++ package]) =
        ("package " ++ package).toList ++ [char '\n'] := by
      rw [linesOf, List.map_singleton, List.flatMap_singleton,
        ofLines_eq_intercalate (List.splitOn_ne_nil _ _), List.intercalate_splitOn]
    have hend : Reads step .code [char '\n'] .code [.code '\n'] := rfl
    rw [ReadsLines, hlines, linePieces_single]
    exact hpackage.append hend

theorem readsLines_plain {ls : List Text} (h : ∀ l ∈ ls, IsPlain isCodeChar l) :
    ReadsLines step .code (ls.map Text.toList) .code (ls.map code) :=
  ReadsLines.map fun l hl => reads_codeLine (h l hl)

theorem reads_storeLine (c : AccessorClass) :
    Reads step .code ((storeLine c).toList ++ [char '\n']) .code
      (code "        context.getSharedPreferences(" ++ [.literal] ++
        code ", Context.MODE_PRIVATE)" ++ [.code '\n']) := by
  have hopen := reads_code (s := "        context.getSharedPreferences(")
    (isPlain_ofList (by decide))
  have hliteral := reads_literal_append c.schema.storeName (t := ", Context.MODE_PRIVATE)")
    (isPlain_ofList (by decide)) (by decide)
  have hend : Reads step .code [char '\n'] .code [.code '\n'] := rfl
  have hall := (hopen.append hliteral).append hend
  unfold storeLine
  simpa only [Text.toList_append, List.append_assoc, List.cons_append, List.nil_append] using hall

theorem readsLines_classLines {c : AccessorClass} (h : Naming.IsWord c.name.toList) :
    ReadsLines step .code ((classLines c).map Text.toList) .code ((headerLines c).map code ++
      [code "        context.getSharedPreferences(" ++ [.literal] ++
        code ", Context.MODE_PRIVATE)"]) := by
  rw [classLines, List.map_append]
  exact (readsLines_plain (isPlain_headerLines h)).append (ReadsLines.single (reads_storeLine c))

theorem readsLines_methodTexts {c : AccessorClass} (h : ∀ m ∈ c.methods, m.HasWordNames) :
    ReadsLines step .code ((methodTexts c).map Text.toList) .code
      (c.methods.flatMap methodOutline ++ [code "\x7d"]) := by
  rw [methodTexts, List.map_append, List.map_flatMap]
  exact (ReadsLines.flatMap fun m hm => readsLines_method (h m hm)).append
    (ReadsLines.single (reads_codeLine (by decide)))

theorem reads_firstLine (c : AccessorClass) :
    Reads step .code ((firstLine c).toList ++ [char '\n']) .code [.comment, .code '\n'] :=
  reads_commentText (by decide) c.schema.name (by decide)

theorem readsLines_comment_class (c : AccessorClass) :
    ReadsLines step .code
      (("/**" : Text).toList :: settleLines 0 ((commentBody c).map Text.toList) ++
        [(" */" : Text).toList]) .code
      [[.comment]] := by
  have hopen : Reads step .code (("/**" : Text).toList ++ [char '\n']) (.block 0) [] := rfl
  have hclose : Reads step (.block 0) ((" */" : Text).toList ++ [char '\n']) .code
      [.comment, .code '\n'] := rfl
  have hall := (hopen.append (readsLines_comment (isComment_commentBody c) 0)).append hclose
  simpa [ReadsLines, linePieces] using hall

theorem readsLines_laidOut {package : Text} (hpackage : IsPackage package) {c : AccessorClass}
    (hname : Naming.IsWord c.name.toList) (hmethods : ∀ m ∈ c.methods, m.HasWordNames) :
    ReadsLines step .code (laidOut (firstLine c).toList (" */" : Text).toList package c) .code
      (outline package c) := by
  have hfirst : ReadsLines step .code [(firstLine c).toList] .code [[.comment]] :=
    ReadsLines.single (reads_firstLine c)
  have hplain : ∀ l ∈ .plain "" :: importLines ++ ([""] : List Text), IsPlain isCodeChar l := by
    simp only [List.cons_append, List.forall_mem_cons, List.forall_mem_append]
    exact ⟨by decide, isPlain_importLines, by decide, List.forall_mem_nil _⟩
  have himports := readsLines_plain hplain
  have hall := (hfirst.append ((readsLines_packagePieces hpackage).append
    (himports.append (readsLines_comment_class c)))).append
      ((readsLines_classLines hname).append (readsLines_methodTexts hmethods))
  have hempty : code "" = [] := rfl
  simpa only [laidOut, outline, classOutline, headLines, List.map_append, List.map_cons,
    List.map_nil, hempty, List.append_assoc, List.cons_append, List.nil_append] using hall

/-- The text of a class under the default settings is read as its outline. -/
theorem readCode?_sourceOf {segments : List Text} (hpackage : IsPackage (packageName segments))
    {c : AccessorClass} (hparameters : c.parameters = plainParameters)
    (hname : Naming.IsWord c.name.toList) (hmethods : ∀ m ∈ c.methods, m.HasWordNames) :
    readCode? (Generator.sourceOf (sourceLines plainOptions segments c)) =
      some (linePieces (outline (packageName segments) c)) := by
  have hall : run step .code (Generator.sourceOf (sourceLines plainOptions segments c)).toList =
      (.code, linePieces (outline (packageName segments) c)) := by
    rw [sourceOf_sourceLines hpackage hparameters hname hmethods]
    exact readsLines_laidOut hpackage hname hmethods
  rw [readCode?, hall]

end PrefAccessor.Kotlin
