import PrefAccessor.FileTree
import PrefAccessor.Json.Reader
import PrefAccessor.Settings.Basic
import PrefAccessor.Text.Case

/-!
# Layers of settings

Settings come in three layers: the defaults of a language, a file, and overrides. A later layer
replaces what it names, except that the objects with the settings particular to a language are
merged member by member. A name that is no setting's is taken as particular to the language.
-/

namespace PrefAccessor.Settings

set_option autoImplicit false

def pythonDefaults : Entries Text Json := [
  ("indent_size", .int 4),
  ("method_case", .string "camel"),
  (languageConfigName, .object [("type_hints", .bool true)])]

def kotlinDefaults : Entries Text Json := [
  ("indent_size", .int 4),
  ("method_case", .string "camel"),
  (languageConfigName, .object [
    ("context_class", .string "android.content.Context"),
    ("dispatcher", .string "Dispatchers.IO")])]

/-- The languages that have defaults of their own. -/
def languageDefaults : Entries Text (Entries Text Json) := [
  ("python", pythonDefaults), ("kotlin", kotlinDefaults)]

/-- The lowest layer for a language, whose case does not count. -/
def defaultsOf (language : Text) : Entries Text Json :=
  (Entries.find? languageDefaults (Text.lowercase language)).getD [(languageConfigName, .object [])]

/-- The language that a value names; one that is not set names none. -/
def languageNamed (language : Json) : Except Fault Text :=
  match language with
  | .string name => .ok name
  | v => if v.isSet then .error .missingOperation else .ok ""

/-- One setting of a higher layer put over a lower layer. -/
def override (base : Entries Text Json) (name : Text) (value : Json) :
    Except Fault (Entries Text Json) :=
  match value with
  | .object members =>
    if name = languageConfigName then
      match (Entries.find? base name).getD (.object []) with
      | .object old => .ok (base.put name (.object (Entries.merge old members)))
      | _ => .error .missingOperation
    else .ok (base.put name value)
  | _ => .ok (base.put name value)

def mergeLayer (base : Entries Text Json) :
    Entries Text Json → Except Fault (Entries Text Json)
  | [] => .ok base
  | (name, value) :: rest =>
    match override base name value with
    | .ok base => mergeLayer base rest
    | .error k => .error k

/-- The two items of a pair given as a list, an object or a text. -/
def pairOf : Json → Except Fault (Json × Json)
  | .array [a, b] => .ok (a, b)
  | .object [(a, _), (b, _)] => .ok (.string a, .string b)
  | .string s =>
    match s.toList with
    | [a, b] => .ok (.string (Text.ofList [a]), .string (Text.ofList [b]))
    | _ => .error .badValue
  | .array _ => .error .badValue
  | .object _ => .error .badValue
  | _ => .error .wrongKind

/-- The members that pairs give, and the first items that are no texts. A list or an object cannot be
a first item. -/
def membersOfPairs : List Json → Except Fault (Entries Text Json × List Json)
  | [] => .ok ([], [])
  | item :: rest =>
    match pairOf item with
    | .ok (.string key, value) => (membersOfPairs rest).map fun m => ((key, value) :: m.1, m.2)
    | .ok (.array _, _) => .error .wrongKind
    | .ok (.object _, _) => .error .wrongKind
    | .ok (key, _) => (membersOfPairs rest).map fun m => (m.1, key :: m.2)
    | .error k => .error k

/-- A value as an object, which a list of pairs can stand for, and its keys that are no texts. -/
def membersOf : Json → Except Fault (Entries Text Json × List Json)
  | .object members => .ok (members, [])
  | .array items => (membersOfPairs items).map fun m => (Entries.ofList m.1, m.2)
  | .string s => if s = "" then .ok ([], []) else .error .badValue
  | _ => .error .wrongKind

/-- The settings of a merged layer. -/
def ofLayer (layer : Entries Text Json) : Except Fault Settings :=
  let others := layer.filter fun m => !names.contains m.1
  if others = [] then .ok (ofEntries layer)
  else
    match membersOf ((Entries.find? layer languageConfigName).getD (.object [])) with
    | .ok (members, otherKeys) =>
      .ok { ofEntries (layer.put languageConfigName (.object (Entries.merge members others))) with
        otherKeys }
    | .error k => .error k

/-- The members of a layer that is set; one that is not set has none. -/
def overridesOf (overrides : Json) : Except Fault (Entries Text Json) :=
  match overrides with
  | .object members => .ok members
  | v => if v.isSet then .error .missingOperation else .ok []

/-- The settings for a language, given the members of a file and the overrides. -/
def resolve (language : Json) (file : Entries Text Json) (overrides : Json) :
    Except Fault Settings := do
  let language ← languageNamed language
  let layer ← mergeLayer (defaultsOf language) file
  let members ← overridesOf overrides
  let layer ← mergeLayer layer members
  ofLayer layer

inductive FileProblem where
  | notFound (path : Text)
  | notJson (path : Text)
  | malformed (path : Text)
  | unreadable (path : Text) (reason : OsError)
  | notAnObject (path : Text)
  deriving DecidableEq

def FileProblem.message : FileProblem → Text
  | .notFound path => "Configuration file not found: " ++ path
  | .notJson path => "Configuration file must be JSON: " ++ path
  | .malformed path => "Invalid JSON in configuration file " ++ path ++ ": <json>"
  | .unreadable path reason =>
    "Failed to load configuration file " ++ path ++ ": " ++ reason.message
  | .notAnObject path => "Configuration file must contain a JSON object: " ++ path

/-- The members of the object in a file. -/
def readFile (tree : FileTree) (path : Path) : Attempt FileProblem (Entries Text Json) := do
  let shown := path.toString
  let found ← Attempt.ofFaults (tree.exists? path)
  if !found then Attempt.refuse (.notFound shown)
  if Text.lowercase path.extension != ".json" then Attempt.refuse (.notJson shown)
  let text ← Attempt.mapRefusal (FileProblem.unreadable shown) (tree.readText path)
  match Json.read text with
  | .ok (.object members) => .ok members
  | .ok _ => Attempt.refuse (.notAnObject shown)
  | .error .malformed => Attempt.refuse (.malformed shown)
  | .error .numeralTooLong => Attempt.stop .badValue

/-- The path of the file that a value names, if it is set. -/
def filePath (file : Json) : Except Fault (Option Path) :=
  match file with
  | .string "" => .ok none
  | .string path => .ok (some (Path.ofString path))
  | v => if v.isSet then .error .wrongKind else .ok none

theorem filePath_string {path : Text} (h : path ≠ "") :
    filePath (.string path) = .ok (some (Path.ofString path)) := by
  unfold filePath
  split
  · rename_i heq
    exact absurd (Json.string.inj heq) h
  · rename_i heq
    rw [Json.string.inj heq]
  · rename_i hother
    exact absurd rfl (hother path)

/-- The settings for a language with a file, if one is named, and overrides. -/
def load (tree : FileTree) (language overrides file : Json) : Attempt FileProblem Settings := do
  let _ ← Attempt.ofFaults (languageNamed language)
  let path ← Attempt.ofFaults (filePath file)
  let members ← match path with
    | some path => readFile tree path
    | none => .ok []
  Attempt.ofFaults (resolve language members overrides)

end PrefAccessor.Settings
