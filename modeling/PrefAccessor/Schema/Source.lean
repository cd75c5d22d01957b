import PrefAccessor.Schema.Declaration
import PrefAccessor.Schema.Document

/-!
# Sources of schemas

One entrance for the three ways to declare an aggregate.
-/

namespace PrefAccessor.Source

set_option autoImplicit false

/-- The schema of a source. Of the JSON values only an object can declare one. -/
def toSchema : Source → Attempt Refusal Schema
  | .schema s => .ok s
  | .declaration c => Schema.ofClass c none
  | .document (.object members) => Schema.ofDocument (.object members) .null
  | .document d => Attempt.refuse (Refusal.malformed none (.noDeclaration d.kindName))

end PrefAccessor.Source
