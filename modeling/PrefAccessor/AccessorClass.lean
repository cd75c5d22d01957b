import PrefAccessor.Schema.Basic

/-!
# Accessor classes

The class that is generated for one aggregate, apart from its text: its parameters, and for every
field the methods that read and write the store. A method that does not block has a twin, the
blocking method of the same field, and does what the twin does.
-/

namespace PrefAccessor

set_option autoImplicit false

/-- A parameter of the class or of a method. A default may be any value that the settings give. -/
structure Parameter where
  name : Text
  /-- Empty where the parameter has no type. -/
  type : Text
  default : Option Json
  deriving DecidableEq

inductive Access where
  | get
  | set
  deriving DecidableEq, Repr

def Access.verb : Access → Text
  | .get => "get"
  | .set => "set"

structure Method where
  name : Text
  access : Access
  field : Field
  /-- What a getter answers while nothing is stored. -/
  default : PrefValue
  /-- The name of the blocking method, if this one does not block. -/
  twin : Option Text
  deriving DecidableEq, Repr

def Method.isAsync (m : Method) : Bool :=
  m.twin.isSome

structure AccessorClass where
  name : Text
  schema : Schema
  parameters : List Parameter
  methods : List Method
  deriving DecidableEq

/-- The methods of one field, whose accessors are named by `nameOf`. -/
def Field.methods (f : Field) (nameOf : Access → Bool → Text) (default : PrefValue) :
    List Method :=
  let getter := nameOf .get false
  let setter := nameOf .set false
  [⟨getter, .get, f, default, none⟩, ⟨setter, .set, f, default, none⟩] ++
    if f.isAsync then
      [⟨nameOf .get true, .get, f, default, some getter⟩,
        ⟨nameOf .set true, .set, f, default, some setter⟩]
    else []

end PrefAccessor
