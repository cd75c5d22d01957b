import PrefAccessor.Target.Kotlin
import PrefAccessor.Target.Python

/-!
# Target languages

The languages that accessors can be generated in, and what differs from one to the other in the
methods of a class.
-/

namespace PrefAccessor

set_option autoImplicit false

inductive Target where
  | python
  | kotlin
  deriving DecidableEq, Repr

namespace Target

def name : Target → Text
  | .python => "python"
  | .kotlin => "kotlin"

def extension : Target → Text
  | .python => ".py"
  | .kotlin => ".kt"

def reserved : Target → ReservedNames
  | .python => Python.reserved
  | .kotlin => Kotlin.reserved

/-- The lines of a method below its first one. -/
def body : Target → Method → List Text
  | .python => Python.body
  | .kotlin => Kotlin.body

def parameter? : Target → Method → Option Parameter
  | .python => Python.parameter?
  | .kotlin => Kotlin.parameter?

def returnType? : Target → Method → Option Text
  | .python => Python.returnType?
  | .kotlin => Kotlin.returnType?

def fileName : Target → Text → Text
  | .python => Python.fileName
  | .kotlin => Kotlin.fileName

end Target

/-- The segments of a package that are not empty. -/
def packageSegments (package : Text) : List Text :=
  ((package.toList.splitOn (char '.')).map Text.ofList).filter (· != "")

end PrefAccessor
