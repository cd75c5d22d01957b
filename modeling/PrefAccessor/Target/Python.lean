import PrefAccessor.AccessorClass
import PrefAccessor.Json.Writer
import PrefAccessor.Naming

/-!
# Accessors in Python

Literals, types and the text of an accessor class for Python. A method is first a list of
statements, which can be run without reading their text. Every string of a schema that enters the
text does so inside a literal or a doc string, in escaped form.
-/

namespace PrefAccessor.Python

set_option autoImplicit false

/-- The keywords, and the modules that generated code imports: a module of such a name would hide
them. -/
def reserved : ReservedNames where
  keywords := [
    "False", "None", "True", "and", "as", "assert", "async", "await", "break", "class", "continue",
    "def", "del", "elif", "else", "except", "finally", "for", "from", "global", "if", "import",
    "in", "is", "lambda", "nonlocal", "not", "or", "pass", "raise", "return", "try", "while",
    "with", "yield"].map Text.plain
  taken := ["asyncio", "concurrent", "typing"]

/-- The form of a string in a literal. -/
def stringLiteral (s : Text) : Text :=
  Json.stringLiteral s

def docChar (c : CodePoint) : List CodePoint :=
  if c = '\\' ∨ c = '"' then [char '\\', c]
  else if c = '\n' ∨ c = '\t' ∨ Text.isPrintable c then [c]
  else Text.controlEscape c

/-- A text that stands in a doc string and neither ends it nor alters its meaning there. -/
def docText (s : Text) : Text :=
  Text.ofList (s.toList.flatMap docChar)

/-- The literal of a default; a set has none but that of the absent value. -/
def literal : PrefValue → Text
  | .absent => "None"
  | .bool b => displayBool b
  | .int n => displayInt n
  | .float x => displayFloat x
  | .string s => stringLiteral s
  | .set _ => "None"

def typeName : PrefType → Text
  | .string => "str | None"
  | .int => "int"
  | .boolean => "bool"
  | .float => "float"
  | .long => "int"
  | .stringSet => "set[str] | None"

inductive Statement where
  /-- Returns what the store holds under a key, else the default. -/
  | returnRead (type : PrefType) (key : Text) (default : PrefValue)
  /-- Stores the argument under a key. -/
  | write (type : PrefType) (key : Text)
  | takeLoop
  /-- Runs a getter elsewhere and returns what it returns. -/
  | returnAwaited (getter : Text)
  /-- Runs a setter elsewhere on the argument. -/
  | await (setter : Text)
  deriving DecidableEq, Repr

def Statement.text : Statement → Text
  | .returnRead type key default =>
    "return self._store.get_" ++ type.operation ++ "(" ++ stringLiteral key ++ ", " ++
      literal default ++ ")"
  | .write type key =>
    "self._store.edit().put_" ++ type.operation ++ "(" ++ stringLiteral key ++ ", value).apply()"
  | .takeLoop => "loop = asyncio.get_running_loop()"
  | .returnAwaited getter =>
    "return await loop.run_in_executor(self._executor, self." ++ getter ++ ")"
  | .await setter => "await loop.run_in_executor(self._executor, self." ++ setter ++ ", value)"

def statements (m : Method) : List Statement :=
  match m.access, m.twin with
  | .get, none => [.returnRead m.field.type m.field.key m.default]
  | .set, none => [.write m.field.type m.field.key]
  | .get, some twin => [.takeLoop, .returnAwaited twin]
  | .set, some twin => [.takeLoop, .await twin]

def body (m : Method) : List Text :=
  (statements m).map Statement.text

def parameters : List Parameter := [
  ⟨"store_provider", "", none⟩, ⟨"executor", "Executor | None", some (.string "None")⟩]

def parameterText (typeHints : Bool) (p : Parameter) : Text :=
  let typed := typeHints && p.type != ""
  p.name ++ (if typed then ": " ++ p.type else "") ++
    match p.default with
    | none => ""
    | some d => (if typed then " = " else "=") ++ d.display

def signature (typeHints : Bool) (ps : List Parameter) : Text :=
  "(" ++ Text.intercalate ", " ("self" :: ps.map (parameterText typeHints)) ++ ")"

def header (typeHints : Bool) (parameter : Option Parameter) (returnType : Option Text)
    (m : Method) : Text :=
  (if m.isAsync then "async def " else "def ") ++ m.name ++ signature typeHints parameter.toList ++
    (if typeHints then " -> " ++ returnType.getD "None" else "") ++ ":"

def parameter? (m : Method) : Option Parameter :=
  match m.access with
  | .get => none
  | .set => some ⟨"value", typeName m.field.type, none⟩

def returnType? (m : Method) : Option Text :=
  match m.access with
  | .get => some (typeName m.field.type)
  | .set => none

structure Options where
  typeHints : Bool
  comments : Bool
  indent : Text
  deriving Repr

def methodLines (o : Options) (m : Method) : List Text :=
  (["", o.indent ++ header o.typeHints (parameter? m) (returnType? m) m] : List Text) ++
    (body m).map (o.indent ++ o.indent ++ ·)

def commentLines (o : Options) (c : AccessorClass) : List Text :=
  let description := docText (c.schema.description.getD "")
  [o.indent ++ "\"\"\"",
    o.indent ++ "Reads and writes the preferences declared by " ++ docText c.schema.name ++ "."] ++
  (if description = "" then ([] : List Text) else ["", o.indent ++ description]) ++
  (["",
    o.indent ++ "Synchronous methods block on the store. Async methods run the same",
    o.indent ++ "operation on ``executor`` (the event loop's default executor when None)",
    o.indent ++ "and must be awaited.",
    o.indent ++ "\"\"\"",
    ""] : List Text)

/-- The text of the class before its layout is settled. One of these may hold several lines, since
a doc string keeps its line feeds.

In the template the conditions and loops are block tags. The line feed right behind such a tag goes with
it, and so do the blanks in front of it if the line begins with them. A line with nothing but a tag
therefore leaves no line here: each condition and each loop has the lines between its tags only, empty
ones among them. -/
def sourceLines (o : Options) (c : AccessorClass) : List Text :=
  (["\"\"\"",
    "Typed accessor for the \"" ++ docText c.schema.storeName ++ "\" preference store.",
    "",
    "Generated by sharedpreform from " ++ docText c.schema.name ++ ". Do not edit.",
    "\"\"\"",
    ""] : List Text) ++
  (if c.schema.asyncFields = [] then [] else (["import asyncio"] : List Text)) ++
  (if o.typeHints then (["from concurrent.futures import Executor"] : List Text) else []) ++
  (["", "", "class " ++ c.name ++ ":"] : List Text) ++
  (if o.comments then commentLines o c else []) ++
  [o.indent ++ "STORE_NAME = " ++ stringLiteral c.schema.storeName,
    "",
    o.indent ++ "def __init__" ++ signature o.typeHints c.parameters ++ ":",
    o.indent ++ o.indent ++ "self._store = store_provider.open_store(self.STORE_NAME)",
    o.indent ++ o.indent ++ "self._executor = executor"] ++
  c.methods.flatMap (methodLines o) ++
  ([""] : List Text)

def fileName (className : Text) : Text :=
  reserved.moduleName className ++ ".py"

end PrefAccessor.Python
