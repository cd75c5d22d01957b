import PrefAccessor.Settings.Basic
import PrefAccessor.Target
import PrefAccessor.Text.Layout

/-!
# Generators

A generator turns a schema into the accessor class of one target language under its settings, and
the class into a text with a path. Supplies the warnings about a schema that do not stop it.
-/

namespace PrefAccessor

set_option autoImplicit false

/-- The settings of a generator that only its language has. -/
inductive Profile where
  | python (typeHints : Bool)
  /-- Both values are looked at when they are used. -/
  | kotlin (contextClass dispatcher : Json)
  deriving DecidableEq

def Profile.target : Profile → Target
  | .python _ => .python
  | .kotlin .. => .kotlin

structure Generator where
  settings : Settings
  profile : Profile
  /-- Whether the template of the class text is at hand. -/
  hasTemplate : Bool
  /-- How many blanks fit into memory. -/
  room : Nat
  deriving DecidableEq

structure Artifact where
  target : Target
  accessorClass : AccessorClass
  package : Text
  source : Text
  /-- Relative to where the files of a pass go, unless the package leads elsewhere. -/
  path : Path
  deriving DecidableEq

/-- Why a schema that has passed its checks is not generated. -/
inductive GenerationProblem where
  | refused (refusal : Refusal)
  | templateMissing (template : Text)
  deriving DecidableEq

def templateMissingMessage (template : Text) : Text :=
  "Failed to render template " ++ template ++ ": " ++ template

/-- What is reported about a schema without stopping it. -/
inductive SchemaWarning where
  | sharedAccessor (name : Text) (fields : List Text)
  | sharedKey (key : Text) (fields : List Text)
  | ignoredDefault (field : Text)
  deriving DecidableEq, Repr

def SchemaWarning.message : SchemaWarning → Text
  | .sharedAccessor name fields =>
    "Fields " ++ Text.intercalate ", " fields ++ " all generate accessor " ++ name
  | .sharedKey key fields =>
    "Storage key '" ++ key ++ "' shared by " ++ Text.intercalate ", " fields
  | .ignoredDefault field => "Default value of string set field '" ++ field ++ "' is ignored"

/-- The default of a string set declared all the same. -/
def Field.ignoresDefault (f : Field) : Bool :=
  f.type == .stringSet && f.default.isSome

namespace Generator

def target (g : Generator) : Target :=
  g.profile.target

/-- The profile that the settings give for a target. -/
def profileOf (target : Target) (members : Entries Text Json) : Profile :=
  match target with
  | .python => .python (((Entries.find? members "type_hints").getD (.bool true)).isSet)
  | .kotlin => .kotlin
      ((Entries.find? members "context_class").getD (.string "android.content.Context"))
      ((Entries.find? members "dispatcher").getD (.string "Dispatchers.IO"))

/-- A name that no setting of a language may have. -/
def forbiddenName : Text := "self"

/-- A generator for a target. What is particular to the language has to be an object all of whose
keys are texts. -/
def create (target : Target) (settings : Settings) (hasTemplate : Bool) (room : Nat) :
    Except Fault Generator :=
  match settings.languageConfig with
  | .object members =>
    if settings.otherKeys ≠ [] ∨ (Entries.find? members forbiddenName).isSome then
      .error .wrongKind
    else .ok ⟨settings, profileOf target members, hasTemplate, room⟩
  | _ => .error .wrongKind

/-- One step of indentation. -/
def indent (g : Generator) : Except Fault Text :=
  g.settings.indent g.room

/-- The style of accessor names; a class in Kotlin has only one. -/
def style (g : Generator) : NameStyle :=
  match g.target with
  | .python => g.settings.style
  | .kotlin => .camel

def warnings (g : Generator) (s : Schema) : List SchemaWarning :=
  ((sortedGroups (Naming.collisions g.style (s.fields.map Field.name))).map fun e =>
    SchemaWarning.sharedAccessor e.1 e.2) ++
  (if g.settings.allowDuplicateKeys.isSet then
    (sortedGroups s.sharedKeys).map fun e => SchemaWarning.sharedKey e.1 e.2
  else []) ++
  ((s.fields.filter Field.ignoresDefault).map fun f => SchemaWarning.ignoredDefault f.name)

/-- The class of the context, which has to be named by a text. -/
def contextClass (value : Json) : Except Fault Text :=
  match value with
  | .string name => .ok name
  | _ => .error .missingOperation

def parameters (g : Generator) : Except Fault (List Parameter) :=
  match g.profile with
  | .python _ => .ok Python.parameters
  | .kotlin context dispatcher => (contextClass context).map (Kotlin.parameters · dispatcher)

def methodName (g : Generator) (f : Field) (access : Access) (isAsync : Bool) : Text :=
  Naming.accessorName access.verb f.name g.style isAsync

/-- The methods of a field whose default can be read. -/
def fieldMethods (g : Generator) (f : Field) : Attempt Refusal (List Method) :=
  match Attempt.mapRefusal (fun p => Refusal.mk (.invalidDefault p) none) f.defaultValue with
  | .ok default => .ok (f.methods (g.methodName f) default)
  | .error e => .error e

def methods (g : Generator) (fields : List Field) : Attempt Refusal (List Method) :=
  Attempt.collect g.fieldMethods fields

def className (g : Generator) (s : Schema) : Text :=
  Naming.className s.name g.settings.suffix

def accessorClass (g : Generator) (s : Schema) : Attempt Refusal AccessorClass := do
  let parameters ← Attempt.ofFaults g.parameters
  let methods ← g.methods s.fields
  .ok ⟨g.className s, s, parameters, methods⟩

def sourceLines (g : Generator) (indent package : Text) (c : AccessorClass) :
    Except Fault (List Text) :=
  let comments := g.settings.addComments.isSet
  match g.profile with
  | .python typeHints => .ok (Python.sourceLines ⟨typeHints, comments, indent⟩ c)
  | .kotlin context _ => (contextClass context).map fun name =>
      Kotlin.sourceLines ⟨name, comments, indent⟩ (packageSegments package) c

def sourceOf (lines : List Text) : Text :=
  Text.layout (Text.intercalate "\n" lines)

def pathOf (target : Target) (package className : Text) : Path :=
  Path.ofPieces (packageSegments package ++ [target.fileName className])

def templateName : Target → Text
  | .python => "accessor.py.j2"
  | .kotlin => "accessor.kt.j2"

/-- Refuses where the template is missing, once everything it shows is known. In Kotlin the text
shows the package, in Python it does not. -/
def requireTemplate (g : Generator) (package : Except Fault Text) :
    Attempt GenerationProblem Unit := do
  if g.target = .kotlin then
    let _ ← Attempt.ofFaults package
  if g.hasTemplate then .ok () else Attempt.refuse (.templateMissing (templateName g.target))

def generate (g : Generator) (s : Schema) : Attempt GenerationProblem Artifact := do
  let c ← Attempt.mapRefusal GenerationProblem.refused (g.accessorClass s)
  let indent ← Attempt.ofFaults g.indent
  let package := g.settings.packageOr s.package
  g.requireTemplate package
  let package ← Attempt.ofFaults package
  let lines ← Attempt.ofFaults (g.sourceLines indent package c)
  .ok ⟨g.target, c, package, sourceOf lines, pathOf g.target package c.name⟩

end Generator

end PrefAccessor
