import PrefAccessor.Proofs.AccessorMap
import PrefAccessor.Proofs.KotlinOutline
import PrefAccessor.Proofs.PythonOutline

/-!
# Texts of a document stay in literals and comments

The text that is generated from a document under the default settings, read by the lexical rules of
its language, is the code of a class whose schema has been erased: no name, key, default,
description or store of the document adds to it. In Kotlin the package is the exception. It stands
in the text as it is written, so segments of it that are no identifiers can add code.
-/

namespace PrefAccessor

set_option autoImplicit false

open Reading

namespace Target

/-- What the text of a class is read as, by the rules of its language. -/
def readCode? : Target → Text → Option (List Piece)
  | .python => Python.readCode?
  | .kotlin => Kotlin.readCode?

/-- The code of a class, line by line, in the given package. -/
def outline (target : Target) (package : Text) (c : AccessorClass) : List (List Piece) :=
  match target with
  | .python => Python.outline c
  | .kotlin => Kotlin.outline (Kotlin.packageName (packageSegments package)) c

theorem outline_erased (target : Target) (package : Text) (c : AccessorClass) :
    target.outline package c.erased = target.outline package c := by
  cases target with
  | python => exact Python.outline_erased c
  | kotlin => exact Kotlin.outline_erased _ c

end Target

/-- The names in the text of a class consist of letters, digits and underscores. -/
structure AccessorClass.HasWordNames (c : AccessorClass) : Prop where
  name : Naming.IsWord c.name.toList
  methods : ∀ m ∈ c.methods, m.HasWordNames

namespace Generator

/-- The generator of a language under the default settings. -/
def plain (target : Target) (room : Nat) : Generator :=
  ⟨{}, profileOf target [], true, room⟩

theorem create_default (target : Target) (room : Nat) :
    create target {} true room = .ok (plain target room) := rfl

variable {target : Target} {room : Nat}

/-- The default indentation takes four blanks. -/
theorem plain_indent (hroom : 4 ≤ room) : (plain target room).indent = .ok "    " := by
  have hfits : ¬ (room : Int) < 4 := by omega
  have hblanks : ({} : Settings).indent room = Settings.blanks room 4 := rfl
  rw [indent, plain, hblanks, Settings.blanks, if_neg (by decide), if_neg hfits]
  rfl

theorem plain_wellTyped (target : Target) (room : Nat) : (plain target room).WellTyped := by
  refine ⟨standard_wellTyped.settings, ?_⟩
  cases target with
  | python => trivial
  | kotlin => exact ⟨⟨_, rfl⟩, ⟨_, rfl⟩⟩

theorem isWord_className (target : Target) (s : Schema) :
    Naming.IsWord ((plain target room).className s).toList := by
  have hsuffix : ({} : Settings).suffix = "SharedPref" := by decide +kernel
  have hword : Naming.IsWord ("SharedPref" : Text).toList := Naming.isWord_iff.mpr (by decide)
  rw [className, plain, hsuffix, Naming.className, Text.toList_append]
  exact (Naming.isWord_pascalCase_clean s.name).append hword

/-- What a document declares is generated under the default settings. -/
theorem exists_plain_artifact (target : Target) (hroom : 4 ≤ room) {data package : Json}
    {s : Schema} (hs : Schema.ofDocument data package = .ok s) :
    ∃ a, (plain target room).generate s = .ok a := by
  have hdeclared : s.IsDeclared := Or.inl ⟨data, package, hs⟩
  obtain ⟨ms, hms⟩ : ∃ ms, (plain target room).methods s.fields = .ok ms :=
    methods_ok_iff.mpr hdeclared.hasDefaults
  exact (plain_wellTyped target room).exists_artifact rfl (plain_indent hroom) hms

/-- The text of an artifact under the default settings, from its class. -/
theorem plain_text (hroom : 4 ≤ room) {s : Schema} {a : Artifact}
    (ha : (plain target room).generate s = .ok a) :
    ∃ lines, (plain target room).sourceLines "    " s.package a.accessorClass = .ok lines ∧
      a.source = sourceOf lines ∧ (plain target room).parameters = .ok a.accessorClass.parameters ∧
        a.accessorClass.HasWordNames := by
  obtain ⟨hc, -⟩ := generate_eq_ok ha
  obtain ⟨hparameters, hms, -, hname⟩ := accessorClass_eq_ok.mp hc
  obtain ⟨indent, package, lines, hindent, hpackage, hlines, hsource, -⟩ := generate_text ha
  obtain rfl : indent = "    " := Except.ok.inj (hindent.symm.trans (plain_indent hroom))
  obtain rfl : package = s.package := (Except.ok.inj hpackage).symm
  refine ⟨lines, hlines, hsource, hparameters, ?_, fun m hm => hasWordNames hms hm⟩
  rw [hname]
  exact isWord_className target s

theorem python_reading (hroom : 4 ≤ room) {s : Schema} {a : Artifact}
    (ha : (plain .python room).generate s = .ok a) :
    Python.readCode? a.source = some (linePieces (Python.outline a.accessorClass)) := by
  obtain ⟨lines, hlines, hsource, hparameters, hwords⟩ := plain_text hroom ha
  have hclass : a.accessorClass.parameters = Python.parameters := (Except.ok.inj hparameters).symm
  obtain rfl : Python.sourceLines ⟨true, true, "    "⟩ a.accessorClass = lines :=
    Except.ok.inj hlines
  rw [hsource]
  exact Python.readCode?_sourceOf hclass hwords.name hwords.methods

theorem kotlin_reading (hroom : 4 ≤ room) {s : Schema} {a : Artifact}
    (ha : (plain .kotlin room).generate s = .ok a)
    (hpackage : Kotlin.IsPackage (Kotlin.packageName (packageSegments s.package))) :
    Kotlin.readCode? a.source = some (linePieces
      (Kotlin.outline (Kotlin.packageName (packageSegments s.package)) a.accessorClass)) := by
  obtain ⟨lines, hlines, hsource, hparameters, hwords⟩ := plain_text hroom ha
  have hclass : a.accessorClass.parameters = Kotlin.plainParameters :=
    (Except.ok.inj hparameters).symm
  obtain rfl : Kotlin.sourceLines Kotlin.plainOptions (packageSegments s.package)
      a.accessorClass = lines := Except.ok.inj hlines
  rw [hsource]
  exact Kotlin.readCode?_sourceOf hpackage hclass hwords.name hwords.methods

/-- The text that a document gives under the default settings is read as the code of an erased
class, in which only names and literals that are no text come from the document, and in Kotlin the
package, if its segments are identifiers. -/
theorem generate_confined (target : Target) (hroom : 4 ≤ room) {data package : Json} {s : Schema}
    (hs : Schema.ofDocument data package = .ok s)
    (hpackage : target = .kotlin → ∀ segment ∈ packageSegments s.package, Kotlin.IsName segment) :
    ∃ g a, create target {} true room = .ok g ∧ g.generate s = .ok a ∧ a.accessorClass.HasWordNames ∧
      target.readCode? a.source =
        some (linePieces (target.outline s.package a.accessorClass.erased)) := by
  obtain ⟨a, ha⟩ := exists_plain_artifact target hroom hs
  obtain ⟨-, -, -, -, hwords⟩ := plain_text hroom ha
  refine ⟨plain target room, a, create_default target room, ha, hwords, ?_⟩
  rw [Target.outline_erased]
  cases target with
  | python => exact python_reading hroom ha
  | kotlin => exact kotlin_reading hroom ha (Kotlin.isPackage_of_names (hpackage rfl))

/-- A document whose texts would end literals and comments, in a package with a keyword. -/
def hostileDocument : Json :=
  .object [("name", .string "Log \"\"\" */ in"), ("store", .string "a\"\n$b\\"),
    ("package", .string "app.when"), ("description", .string "\"\"\"\nimport os */ fun"),
    ("fields", .array [
      .object [("key", .string "k\", 0) # //"), ("name", .string "user"),
        ("default", .string "\") /* $\x7bx\x7d\r\n")],
      .object [("key", .string "count"), ("type", .string "int"), ("default", .string "7")]])]

def hostileSchema : Schema where
  name := "Log \"\"\" */ in"
  package := "app.when"
  storeName := "a\"\n$b\\"
  fields := [⟨"user", "k\", 0) # //", .string, some "\") /* $\x7bx\x7d\r\n", false⟩,
    ⟨"count", "count", .int, some "7", false⟩]
  description := some "\"\"\"\nimport os */ fun"

theorem hostile_document_confined :
    Schema.ofDocument hostileDocument .null = .ok hostileSchema ∧
      (∀ segment ∈ packageSegments hostileSchema.package, Kotlin.IsName segment) ∧
        ∀ target : Target, ∃ g a, create target {} true 4 = .ok g ∧
          g.generate hostileSchema = .ok a ∧ a.accessorClass.HasWordNames ∧
            target.readCode? a.source =
              some (linePieces (target.outline "app.when" a.accessorClass.erased)) := by
  have hdocument : Schema.ofDocument hostileDocument .null = .ok hostileSchema := by decide +kernel
  have hpackage : ∀ segment ∈ packageSegments hostileSchema.package, Kotlin.IsName segment := by
    decide +kernel
  exact ⟨hdocument, hpackage, fun target =>
    generate_confined target (le_refl 4) hdocument fun _ => hpackage⟩

/-- A document whose package holds a line of its own. -/
def importDocument : Json :=
  .object [("name", .string "Theme"), ("package", .string "app\nimport evil"),
    ("fields", .array [.object [("key", .string "theme")]])]

def importSchema : Schema where
  name := "Theme"
  package := "app\nimport evil"
  storeName := "Theme"
  fields := [⟨"theme", "theme", .string, none, false⟩]
  description := none

theorem import_reading (hroom : 4 ≤ room) {a : Artifact}
    (ha : (plain .kotlin room).generate importSchema = .ok a) :
    Kotlin.readCode? a.source = some (linePieces
      (Kotlin.outline "app\nimport evil" a.accessorClass.erased)) := by
  have hname : Kotlin.packageName (packageSegments importSchema.package) =
      "app\nimport evil" := by decide +kernel
  have hcode : ∀ c ∈ ("app\nimport evil" : Text).toList, Kotlin.isCodeChar c = true :=
    List.all_eq_true.mp (by decide)
  have hpackage : Kotlin.IsPackage "app\nimport evil" :=
    ⟨Kotlin.reads_plain hcode, by decide +kernel⟩
  have hread := kotlin_reading hroom ha
  rw [hname] at hread
  rw [Kotlin.outline_erased]
  exact hread hpackage

/-- The package of a document can add a line of code, which no package of names does. -/
theorem package_adds_import :
    Schema.ofDocument importDocument .null = .ok importSchema ∧
      ∃ g a, create .kotlin {} true 4 = .ok g ∧ g.generate importSchema = .ok a ∧
        (∃ before after, Kotlin.readCode? a.source =
          some (before ++ .code (char '\n') :: code "import evil" ++ .code (char '\n') :: after)) ∧
        ∀ segments : List Text, (∀ segment ∈ segments, Kotlin.IsName segment) →
          Kotlin.readCode? a.source ≠ some (linePieces
            (Kotlin.outline (Kotlin.packageName segments) a.accessorClass.erased)) := by
  have hdocument : Schema.ofDocument importDocument .null = .ok importSchema := by decide +kernel
  obtain ⟨a, ha⟩ := exists_plain_artifact .kotlin (le_refl 4) hdocument
  have hread := import_reading (le_refl 4) ha
  have hcode : linePieces (Kotlin.packageOutline "app\nimport evil") =
      code "package app" ++ .code (char '\n') :: code "import evil" ++ [.code '\n'] := by decide +kernel
  refine ⟨hdocument, plain .kotlin 4, a, create_default .kotlin 4, ha, ?_,
    fun segments hnames heq => ?_⟩
  · refine ⟨.comment :: .code (char '\n') :: code "package app",
      linePieces (Kotlin.classOutline a.accessorClass.erased), ?_⟩
    rw [hread, Kotlin.outline, linePieces_append, linePieces_append, hcode, linePieces_single]
    simp
  · have hsame := Kotlin.packageOutline_eq_of_outline_eq (Option.some.inj (hread.symm.trans heq))
    rw [hcode] at hsame
    unfold Kotlin.packageOutline at hsame
    split at hsame
    · simp [linePieces] at hsame
    · -- the line feed stands in the package, where no name holds one
      rw [linePieces_single] at hsame
      have hfeed : .code (char '\n') ∈ code ("package " ++ Kotlin.packageName segments) := by
        rw [← List.append_cancel_right hsame]
        simp
      rw [code_append, List.mem_append, mem_code, mem_code] at hfeed
      rcases hfeed with hfeed | hfeed
      · exact absurd hfeed (by decide)
      · exact absurd (Kotlin.isBlank_packageName hnames _ hfeed) (by decide)

end Generator

end PrefAccessor
