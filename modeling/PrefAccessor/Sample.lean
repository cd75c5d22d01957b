import PrefAccessor.Accessor
import PrefAccessor.Build

/-!
# A sample application

Declares a class of preferences, generates its accessor below a directory and drives it over stores
in memory: first the blocking methods, then those that do not block.
-/

namespace PrefAccessor.Sample

set_option autoImplicit false

def declared (name key : Text) (type : Annotation) (default : Option Text) :
    Text × Annotation :=
  (name, .annotated type
    (Marker.key (.string key) (.bool true) ::
      (default.map fun d => Marker.default (.string d)).toList))

def preferences : ClassDeclaration where
  identity := 0
  name := "SamplePreferences"
  tag := some (.string "SamplePreferences")
  documentation := some "User profile settings."
  moduleName := "sample_preferences"
  bases := []
  attributes := [
    declared "username" "username" (.basic .str) (some "Guest"),
    declared "is_logged_in" "isLoggedIn" (.basic .bool) (some "false"),
    declared "age" "age" (.basic .int) (some "0"),
    declared "height" "height" (.basic .float) (some "0.0f"),
    declared "user_set" "userSet" (.generic .set .builtin [.basic .str]) none]
  -- none of its annotations is a text
  meaning := fun text => .error text

/-- The text of a value as the sample prints it. -/
def valueText : PrefValue → Text
  | .absent => "None"
  | .bool b => displayBool b
  | .int n => displayInt n
  | .float x => displayFloat x
  | .string s => s
  | .set [] => "set()"
  | .set members => "\x7b" ++ Text.intercalate ", " (members.map Text.quoted) ++ "\x7d"

def sortedText : PrefValue → Text
  | .set members => "[" ++ Text.intercalate ", " (members.map Text.quoted) ++ "]"
  | v => valueText v

/-- One step of the sample: a value to set, or a value to print under a label. -/
inductive Step where
  | set (method : Text) (value : PrefValue)
  | print (label method : Text)
  | printSorted (label method : Text)

def steps : List Step := [
  .print "Username before" "getUsername",
  .set "setUsername" (.string "Grace Hopper"),
  .set "setAge" (.int 85),
  .set "setHeight" (.float (Number.Binary64.ofDecimal false 16 (-1))),
  .set "setIsLoggedIn" (.bool true),
  .set "setUserSet" (PrefValue.setOf ["Developer", "Admiral"]),
  .print "Username" "getUsername",
  .print "Age" "getAge",
  .print "Height" "getHeight",
  .print "Is Logged In" "getIsLoggedIn",
  .printSorted "User Set" "getUserSet",
  .set "setUsernameAsync" (.string "Ada Lovelace"),
  .set "setAgeAsync" (.int 36),
  .set "setHeightAsync" (.float (Number.Binary64.ofDecimal false 165 (-2))),
  .set "setIsLoggedInAsync" (.bool false),
  .set "setUserSetAsync" (PrefValue.setOf ["Mathematician"]),
  .print "Async Username" "getUsernameAsync",
  .print "Async Age" "getAgeAsync",
  .print "Async Height" "getHeightAsync",
  .print "Async Is Logged In" "getIsLoggedInAsync",
  .print "Async User Set" "getUserSetAsync"]

/-- Runs steps on an accessor; the lines printed. -/
def drive (a : Accessor) : List Step → Except Fault (List Text)
  | [] => .ok []
  | .set method value :: rest =>
    match a.call method [value] with
    | (a, .ok _) => drive a rest
    | (_, .error k) => .error k
  | .print label method :: rest =>
    match a.call method [] with
    | (a, .ok v) => (drive a rest).map ((label ++ ": " ++ valueText v) :: ·)
    | (_, .error k) => .error k
  | .printSorted label method :: rest =>
    match a.call method [] with
    | (a, .ok v) => (drive a rest).map ((label ++ ": " ++ sortedText v) :: ·)
    | (_, .error k) => .error k

structure Run where
  printed : List Text
  tree : FileTree

def settings : SettingsSource :=
  .overrides [("package_name", .string "generated")]

/-- Drives the generated accessor, which has to be in a file to be imported. -/
def runGenerated (tree : FileTree) (g : Generator) (d : Delivered) : Except Fault Run :=
  match d.location with
  | none => .error .unknownModule
  | some location =>
    match Accessor.ofArtifact g d.artifact with
    | .error k => .error k
    | .ok a => (drive a steps).map fun lines =>
        ⟨("Generated " ++ d.artifact.accessorClass.name ++ " at " ++ location) :: lines, tree⟩

def run (tree : FileTree) (room : Nat) (output : Json) : Except Fault Run :=
  match Registry.builtin.build tree room "python" settings output [.declaration preferences] with
  | .error (.refused _) => .error .exit
  | .error (.fault k) => .error k
  | .ok result =>
    match result.fault, result.state.delivered with
    | some k, _ => .error k
    | none, d :: _ => runGenerated (result.state.sink.treeOr tree) result.generator d
    | none, [] => .error .exit

end PrefAccessor.Sample
