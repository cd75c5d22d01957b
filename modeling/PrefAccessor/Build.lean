import PrefAccessor.Pass
import PrefAccessor.Registry

/-!
# Building accessors

One call from the name of a language and the source of its settings to the result of a pass. Files
are written below the output directory, which is given or else taken from the settings; without one
the texts are only handed back.
-/

namespace PrefAccessor

set_option autoImplicit false

structure BuildResult where
  generator : Generator
  state : PassState
  fault : Option Fault

namespace GeneratorKind

/-- The settings for a language that overrides alone give. -/
def settingsFrom (language : Text) (overrides : Json) : Except Fault Settings :=
  Settings.resolve (.string language) [] overrides

/-- A generator whose settings are given one by one. Whole settings can be given in their place as
`config`, of which only a value that is not set is understood. -/
def createWith (kind : GeneratorKind) (options : Entries Text Json) (room : Nat) :
    Except Fault Generator :=
  match (Entries.find? options "config").getD .null with
  | .null => do
    let settings ← settingsFrom kind.target.name (.object (Entries.erase options "config"))
    kind.create settings room
  | config => if config.isSet then .error .missingOperation else kind.create {} room

end GeneratorKind

namespace Registry

/-- The first of two values that is set, else the second. -/
def firstSet (a b : Json) : Json :=
  if a.isSet then a else b

def build (r : Registry) (tree : FileTree) (room : Nat) (language : Text)
    (settings : SettingsSource) (output : Json) (sources : List Source) :
    Attempt RegistryProblem BuildResult :=
  match r.create tree room language settings with
  | .error e => .error e
  | .ok g =>
    match Sink.forOutput tree (firstSet output g.settings.outputDir) with
    | .error k => Attempt.stop k
    | .ok sink =>
      let (state, fault) := Pass.run g sink sources
      .ok ⟨g, state, fault⟩

end Registry

end PrefAccessor
