import PrefAccessor.AccessorClass

/-!
# Erased classes

What is left of a class when the texts of its schema are taken out of it: the name of the aggregate,
its store, package and description, the keys, the declared defaults and the values of string
defaults. The names of the class and its methods stay, and so do the types and the defaults that are
no text.
-/

namespace PrefAccessor

set_option autoImplicit false

def PrefValue.erased : PrefValue → PrefValue
  | .string _ => .string ""
  | .set _ => .set []
  | v => v

def Field.erased (f : Field) : Field where
  name := ""
  key := ""
  type := f.type
  default := none
  isAsync := f.isAsync

def Schema.erased (s : Schema) : Schema where
  name := ""
  package := ""
  storeName := ""
  fields := s.fields.map Field.erased
  description := none

def Method.erased (m : Method) : Method :=
  { m with field := m.field.erased, default := m.default.erased }

def AccessorClass.erased (c : AccessorClass) : AccessorClass :=
  { c with schema := c.schema.erased, methods := c.methods.map Method.erased }

theorem Schema.asyncFields_erased (s : Schema) :
    s.erased.asyncFields = [] ↔ s.asyncFields = [] := by
  simp [Schema.asyncFields, Schema.erased, Field.erased]

end PrefAccessor
