import PrefAccessor.Generator
import PrefAccessor.Settings.Layer

/-!
# The registry of languages

Which generator makes code for which language. A language is registered under one name and any
number of aliases, none of which counts case. An alias never hides a registered language, and it
changes hands only on demand. A registration that is refused changes nothing.
-/

namespace PrefAccessor

set_option autoImplicit false

inductive GeneratorKind where
  | python
  | kotlin
  /-- A generator for Python whose template is missing. -/
  | untemplated
  deriving DecidableEq, Repr

namespace GeneratorKind

def target : GeneratorKind → Target
  | .python => .python
  | .kotlin => .kotlin
  | .untemplated => .python

def className : GeneratorKind → Text
  | .python => "PythonGenerator"
  | .kotlin => "KotlinGenerator"
  | .untemplated => "UntemplatedGenerator"

def create (kind : GeneratorKind) (settings : Settings) (room : Nat) : Except Fault Generator :=
  Generator.create kind.target settings (kind != .untemplated) room

end GeneratorKind

inductive RegistryProblem where
  | notAGenerator
  | aliasIsLanguage (name : Text)
  | aliasTaken (name target : Text)
  | unknownLanguage (language : Text) (available : List Text)
  | settingsOfKind (kind : Text)
  | fileRefused (language : Text) (problem : Settings.FileProblem)
  | creationStopped (language : Text) (fault : Fault)
  deriving DecidableEq

def RegistryProblem.message : RegistryProblem → Text
  | .notAGenerator => "Generator class must inherit from CodeGenerator"
  | .aliasIsLanguage name => "Alias '" ++ name ++ "' conflicts with existing primary language"
  | .aliasTaken name target => "Alias '" ++ name ++ "' already points to '" ++ target ++ "'"
  | .unknownLanguage language available =>
    "No generator registered for language: " ++ language ++ ". Available: " ++
      Text.intercalate ", " available
  | .settingsOfKind kind => "Invalid config type: <class '" ++ kind ++ "'>"
  | .fileRefused language problem =>
    "Failed to create " ++ language ++ " generator: " ++ problem.message
  | .creationStopped language fault =>
    "Failed to create " ++ language ++ " generator: <" ++ fault.kindName ++ ">"

/-- Where the settings of a generator come from. -/
inductive SettingsSource where
  | defaults
  | given (settings : Settings)
  | overrides (members : Entries Text Json)
  | file (path : Text)
  /-- A value of a kind that settings do not come in. -/
  | other (kind : Text)
  deriving DecidableEq

def SettingsSource.ofJson : Json → SettingsSource
  | .null => .defaults
  | .object members => .overrides members
  | .string path => .file path
  | v => .other v.kindName

structure Registry where
  generators : Entries Text GeneratorKind
  aliases : Entries Text Text
  deriving DecidableEq, Repr

structure LanguageInfo where
  name : Text
  className : Text
  extension : Text
  aliases : List Text
  moduleName : Text
  deriving DecidableEq, Repr

namespace Registry

def empty : Registry := ⟨[], []⟩

/-- The form of a name in which it is registered. -/
def keyOf (name : Text) : Text :=
  Text.lowercase name

def languages (r : Registry) : List Text :=
  r.generators.keys.mergeSort textLe

/-- The registered language that a name or alias stands for. -/
def resolve (r : Registry) (name : Text) : Option Text :=
  if r.generators.contains (keyOf name) then some (keyOf name)
  else Entries.find? r.aliases (keyOf name)

def isSupported (r : Registry) (name : Text) : Bool :=
  (r.resolve name).isSome

def aliasesFor (r : Registry) (language : Text) : List Text :=
  (((r.aliases.filter fun e => e.2 == keyOf language)).map Prod.fst).mergeSort textLe

/-- What stands against one more alias of a language. -/
def aliasProblem? (r : Registry) (language : Text) (replace : Bool) (name : Text) :
    Option RegistryProblem :=
  if keyOf name = language then none
  else if r.generators.contains (keyOf name) then some (.aliasIsLanguage name)
  else
    match Entries.find? r.aliases (keyOf name) with
    | none => none
    | some target =>
      if target = language ∨ replace then none else some (.aliasTaken name target)

def enter (r : Registry) (language : Text) (kind : GeneratorKind) (names : List Text) :
    Registry where
  generators := r.generators.put language kind
  aliases := names.foldl
    (fun m name => if keyOf name = language then m else m.put (keyOf name) language) r.aliases

/-- Registers a generator for a language, and says what stands against it. One that is registered
already stays, unless it is to be replaced. `none` stands for what is no generator at all. -/
def register (r : Registry) (language : Text) (kind : Option GeneratorKind)
    (names : List Text) (replace : Bool) : Registry × Option RegistryProblem :=
  match kind with
  | none => (r, some .notAGenerator)
  | some kind =>
    if r.generators.contains (keyOf language) ∧ !replace then (r, none)
    else
      match names.findSome? (r.aliasProblem? (keyOf language) replace) with
      | some p => (r, some p)
      | none => (r.enter (keyOf language) kind names, none)

/-- The language that goes when a name is unregistered. A name that stands for nothing, or for the
language with the empty name, is taken as it is. -/
def removalKey (r : Registry) (name : Text) : Text :=
  match r.resolve name with
  | some language => if language = "" then keyOf name else language
  | none => keyOf name

/-- Removes the language that a name stands for, with its aliases. -/
def unregister (r : Registry) (name : Text) : Registry :=
  let language := r.removalKey name
  ⟨r.generators.erase language, r.aliases.filter fun e => e.2 != language⟩

/-- The generator that a name or alias stands for. An alias of a language that is not there is no
refusal but a fault. -/
def kind (r : Registry) (name : Text) : Attempt RegistryProblem GeneratorKind :=
  match r.resolve name with
  | none => Attempt.refuse (.unknownLanguage name r.languages)
  | some language =>
    match Entries.find? r.generators language with
    | some kind => .ok kind
    | none => Attempt.stop .missingKey

def settingsFrom (tree : FileTree) (language : Text) :
    SettingsSource → Attempt Settings.FileProblem Settings
  | .given settings => .ok settings
  | .defaults => Settings.load tree (.string language) .null .null
  | .overrides members => Settings.load tree (.string language) (.object members) .null
  | .file path => Settings.load tree (.string language) .null (.string path)
  | .other _ => Attempt.stop .wrongKind

/-- A generator for the language that a name stands for. What stops its making is a refusal too. -/
def create (r : Registry) (tree : FileTree) (room : Nat) (name : Text) (source : SettingsSource) :
    Attempt RegistryProblem Generator :=
  match r.kind name, source with
  | .error e, _ => .error e
  | .ok _, .other kind => Attempt.refuse (.settingsOfKind kind)
  | .ok kind, source =>
    match settingsFrom tree ((r.resolve name).getD "") source with
    | .error (.refused p) => Attempt.refuse (.fileRefused name p)
    | .error (.fault k) => Attempt.refuse (.creationStopped name k)
    | .ok settings =>
      match kind.create settings room with
      | .ok g => .ok g
      | .error k => Attempt.refuse (.creationStopped name k)

def moduleName (target : Target) : Text :=
  "sharedpreform.languages." ++ target.name ++ ".generator"

def info (r : Registry) (name : Text) : Attempt RegistryProblem LanguageInfo :=
  (r.kind name).map fun kind =>
    { name := kind.target.name
      className := kind.className
      extension := kind.target.extension
      aliases := r.aliasesFor ((r.resolve name).getD "")
      moduleName := moduleName kind.target }

/-- All registered languages, in order, with what can be said about them. -/
def infos (r : Registry) : List (Text × LanguageInfo) :=
  r.languages.filterMap fun language =>
    match r.info language with
    | .ok info => some (language, info)
    | .error _ => none

/-- The registry that every run starts from. -/
def builtin : Registry :=
  (empty.enter "python" .python ["py"]).enter "kotlin" .kotlin ["kt"]

end Registry

end PrefAccessor
