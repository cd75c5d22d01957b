import PrefAccessor.Fault
import PrefAccessor.Json.Display
import PrefAccessor.Naming

/-!
# Settings

The settings of a generator are values of any kind, taken as they come and looked at only where
they are used. A reading of a setting says what the value means there, or which fault it causes.
-/

namespace PrefAccessor

set_option autoImplicit false

structure Settings where
  outputDir : Json := .null
  packageName : Json := .null
  indentSize : Json := .int 4
  classSuffix : Json := .string "SharedPref"
  methodCase : Json := .string "camel"
  allowDuplicateKeys : Json := .bool false
  stopOnEmptySchema : Json := .bool false
  addComments : Json := .bool true
  languageConfig : Json := .object []
  /-- The keys of `languageConfig` that are no texts, which only a list of pairs can give. -/
  otherKeys : List Json := []
  deriving DecidableEq, Inhabited

namespace Settings

/-- Each setting with its name, in the order of the structure. -/
def entries (s : Settings) : Entries Text Json := [
  ("output_dir", s.outputDir),
  ("package_name", s.packageName),
  ("indent_size", s.indentSize),
  ("class_suffix", s.classSuffix),
  ("method_case", s.methodCase),
  ("allow_duplicate_keys", s.allowDuplicateKeys),
  ("stop_on_empty_schema", s.stopOnEmptySchema),
  ("add_comments", s.addComments),
  ("language_config", s.languageConfig)]

/-- The name of the setting that holds what is particular to one language. -/
def languageConfigName : Text := "language_config"

def names : List Text :=
  (entries {}).keys

/-- The settings that values under known names give; what is not given has its default. -/
def ofEntries (m : Entries Text Json) : Settings :=
  let given (name : Text) (default : Json) : Json := (Entries.find? m name).getD default
  let base : Settings := {}
  { outputDir := given "output_dir" base.outputDir
    packageName := given "package_name" base.packageName
    indentSize := given "indent_size" base.indentSize
    classSuffix := given "class_suffix" base.classSuffix
    methodCase := given "method_case" base.methodCase
    allowDuplicateKeys := given "allow_duplicate_keys" base.allowDuplicateKeys
    stopOnEmptySchema := given "stop_on_empty_schema" base.stopOnEmptySchema
    addComments := given "add_comments" base.addComments
    languageConfig := given languageConfigName base.languageConfig }

/-- The settings that an object gives, all of whose names have to be known. -/
def ofArguments (arguments : Json) : Except Fault Settings :=
  match arguments with
  | .object members =>
    if members.all fun m => names.contains m.1 then .ok (ofEntries members) else .error .wrongKind
  | _ => .error .wrongKind

def suffix (s : Settings) : Text :=
  s.classSuffix.display

def style (s : Settings) : NameStyle :=
  if s.methodCase = .string "snake" then .snake else .camel

/-- Counts are numbers of 64 bits with a sign: the least one and the first one too large. -/
def leastCount : Int := -9223372036854775808

def countLimit : Int := 9223372036854775808

/-- As many blanks as a number says, none for a negative one; more than `room` do not fit into
memory. -/
def blanks (room : Nat) (n : Int) : Except Fault Text :=
  if n < leastCount ∨ countLimit ≤ n then .error .tooLarge
  else if (room : Int) < n then .error .outOfMemory
  else .ok (Text.ofList (List.replicate n.toNat (char ' ')))

/-- One step of indentation; truth values count as one and zero. -/
def indent (s : Settings) (room : Nat) : Except Fault Text :=
  match s.indentSize with
  | .int n => blanks room n
  | .bool b => blanks room (if b then 1 else 0)
  | _ => .error .wrongKind

/-- The package that replaces that of a schema, or the schema's own. -/
def packageOr (s : Settings) (package : Text) : Except Fault Text :=
  if s.packageName.isSet then
    match s.packageName with
    | .string name => .ok name
    | _ => .error .missingOperation
  else .ok package

end Settings

end PrefAccessor
