import PrefAccessor.PrefType
import PrefAccessor.Text.Case

/-!
# Type names

The names by which a schema document may call a preference type, among them the spellings of the
Java virtual machine. Blanks around a name do not count, and neither does case, except that the
long spellings are known only as written.
-/

namespace PrefAccessor

set_option autoImplicit false

def typeNames : Entries Text PrefType := [
  ("string", .string),
  ("str", .string),
  ("java.lang.String", .string),
  ("kotlin.String", .string),
  ("int", .int),
  ("integer", .int),
  ("java.lang.Integer", .int),
  ("kotlin.Int", .int),
  ("boolean", .boolean),
  ("bool", .boolean),
  ("java.lang.Boolean", .boolean),
  ("kotlin.Boolean", .boolean),
  ("float", .float),
  ("java.lang.Float", .float),
  ("kotlin.Float", .float),
  ("long", .long),
  ("java.lang.Long", .long),
  ("kotlin.Long", .long),
  ("set<string>", .stringSet),
  ("set[str]", .stringSet),
  ("string_set", .stringSet),
  ("java.util.Set<java.lang.String>", .stringSet),
  ("kotlin.collections.Set<kotlin.String>", .stringSet)]

/-- The type that a document calls by this name. -/
def typeNamed? (name : Text) : Option PrefType :=
  let key := Text.ofList (Text.trim name.toList)
  (Entries.find? typeNames key).or (Entries.find? typeNames (Text.lowercase key))

end PrefAccessor
