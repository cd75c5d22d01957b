import PrefAccessor.AccessorClass
import PrefAccessor.Json.Display
import PrefAccessor.Naming
import PrefAccessor.Text.Lines

/-!
# Accessors in Kotlin

Literals, types and the text of an accessor class for Kotlin. Strings of a schema stand in literals
and comments, in escaped form; the package alone is written as it is, its keywords between
backticks.
-/

namespace PrefAccessor.Kotlin

set_option autoImplicit false

/-- The words that are never identifiers. -/
def reserved : ReservedNames where
  keywords := [
    "as", "break", "class", "continue", "do", "else", "false", "for", "fun", "if", "in",
    "interface", "is", "null", "object", "package", "return", "super", "this", "throw", "true",
    "try", "typealias", "typeof", "val", "var", "when", "while"]
  taken := []

def quoteIdentifier (name : Text) : Text :=
  if reserved.keywords.contains name then "`" ++ name ++ "`" else name

def stringChar (c : CodePoint) : List CodePoint :=
  if c = '\\' ∨ c = '"' ∨ c = '$' then [char '\\', c]
  else if c = '\n' then [char '\\', char 'n']
  else if c = '\r' then [char '\\', char 'r']
  else if c = '\t' then [char '\\', char 't']
  else [c]

def stringLiteralChars (cs : List CodePoint) : List CodePoint :=
  char '"' :: cs.flatMap stringChar ++ [char '"']

def stringLiteral (s : Text) : Text :=
  Text.ofList (stringLiteralChars s.toList)

/-- What stands for a slash next to a star. -/
def slashEntity : List CodePoint := [char '&', char '#', char '4', char '7', char ';']

def maskClosing : List CodePoint → List CodePoint
  | '*' :: '/' :: cs => char '*' :: slashEntity ++ maskClosing cs
  | c :: cs => c :: maskClosing cs
  | [] => []

def maskOpening : List CodePoint → List CodePoint
  | '/' :: '*' :: cs => slashEntity ++ char '*' :: maskOpening cs
  | c :: cs => c :: maskOpening cs
  | [] => []

def commentChars (cs : List CodePoint) : List CodePoint :=
  maskOpening (maskClosing ([char ' '].intercalate (Text.lines cs)))

/-- A text on one line that neither opens nor closes a comment. -/
def commentText (s : Text) : Text :=
  Text.ofList (commentChars s.toList)

/-- The literal of a default of the given type. The least long has no literal of its own, since a
minus applies to a literal that is out of bounds. -/
def literal (type : PrefType) : PrefValue → Text
  | .absent => "null"
  | .bool b => if b then "true" else "false"
  | .int n =>
    if type = .long then
      if n = leastInt64 then "Long.MIN_VALUE" else displayInt n ++ "L"
    else displayInt n
  | .float x => displayFloat x ++ "f"
  | .string s => stringLiteral s
  | .set _ => "null"

def typeName : PrefType → Text
  | .string => "String?"
  | .int => "Int"
  | .boolean => "Boolean"
  | .float => "Float"
  | .long => "Long"
  | .stringSet => "Set<String?>?"

/-- The store operation of a type with a verb in front. -/
def call (verb : Text) (type : PrefType) : Text :=
  verb ++ Naming.pascalCase type.operation

def readText (m : Method) : Text :=
  "sharedPreferences." ++ call "get" m.field.type ++ "(" ++ stringLiteral m.field.key ++ ", " ++
    literal m.field.type m.default ++ ")"

def writeText (m : Method) : Text :=
  "sharedPreferences.edit()." ++ call "put" m.field.type ++ "(" ++ stringLiteral m.field.key ++
    ", value).apply()"

/-- An expression run on the dispatcher of the class. -/
def dispatched (expression : Text) : Text :=
  "withContext(dispatcher) \x7b " ++ expression ++ " \x7d"

def body (m : Method) : List Text :=
  match m.access, m.isAsync with
  | .get, false => ["return " ++ readText m]
  | .set, false => [writeText m]
  | .get, true => ["return " ++ dispatched (readText m)]
  | .set, true => [dispatched (writeText m)]

def parameter? (m : Method) : Option Parameter :=
  match m.access with
  | .get => none
  | .set => some ⟨"value", typeName m.field.type, none⟩

def returnType? (m : Method) : Option Text :=
  match m.access with
  | .get => some (typeName m.field.type)
  | .set => none

def parameterText (p : Parameter) : Text :=
  p.name ++ ": " ++ p.type ++
    match p.default with
    | none => ""
    | some d => " = " ++ d.display

/-- The part of a dotted name behind its last dot. -/
def simpleName (dotted : Text) : Text :=
  Text.ofList ((dotted.toList.splitOn (char '.')).getLast?.getD [])

/-- What every file imports besides the class of the context. -/
def baseImports : List Text := [
  "android.content.SharedPreferences",
  "kotlinx.coroutines.CoroutineDispatcher",
  "kotlinx.coroutines.Dispatchers",
  "kotlinx.coroutines.withContext"]

def imports (contextClass : Text) : List Text :=
  (distinct (contextClass :: baseImports)).mergeSort textLe

def parameters (contextClass : Text) (dispatcher : Json) : List Parameter := [
  ⟨"context", simpleName contextClass, none⟩,
  ⟨"dispatcher", "CoroutineDispatcher", if dispatcher = .null then none else some dispatcher⟩]

/-- The package line's name: the segments that are not empty, keywords between backticks. -/
def packageName (segments : List Text) : Text :=
  Text.intercalate "." (segments.map quoteIdentifier)

structure Options where
  contextClass : Text
  comments : Bool
  indent : Text
  deriving Repr

def header (m : Method) : Text :=
  "public " ++ (if m.isAsync then "suspend " else "") ++ "fun " ++ m.name ++ "(" ++
    ((parameter? m).map parameterText).getD "" ++ ")" ++
    ((returnType? m).map ((": " : Text) ++ ·)).getD "" ++ " \x7b"

def methodLines (o : Options) (m : Method) : List Text :=
  (["", o.indent ++ header m] : List Text) ++ (body m).map (o.indent ++ o.indent ++ ·) ++
    [o.indent ++ "\x7d"]

def commentLines (c : AccessorClass) : List Text :=
  let description := commentText (c.schema.description.getD "")
  (["/**",
    " * Reads and writes the \"" ++ commentText c.schema.storeName ++
      "\" preferences declared by " ++ commentText c.schema.name ++ "."] : List Text) ++
  (if description = "" then ([] : List Text) else [" *", " * " ++ description]) ++
  ([" */"] : List Text)

/-- One line per parameter of the class; the last one is also a property. -/
def parameterLines (o : Options) : List Parameter → List Text
  | [] => []
  | [p] => [o.indent ++ "private val " ++ parameterText p ++ ","]
  | p :: ps => (o.indent ++ parameterText p ++ ",") :: parameterLines o ps

/-- The text of the class before its layout is settled.

In the template the conditions and loops are block tags. The line feed right behind such a tag goes with
it, and so do the blanks in front of it if the line begins with them. A line with nothing but a tag
therefore leaves no line here: each condition and each loop has the lines between its tags only, empty
ones among them. -/
def sourceLines (o : Options) (segments : List Text) (c : AccessorClass) : List Text :=
  ["// Generated by sharedpreform from " ++ commentText c.schema.name ++ ". Do not edit."] ++
  (if packageName segments = "" then [] else ["package " ++ packageName segments]) ++
  ([""] : List Text) ++
  (imports o.contextClass).map (("import " : Text) ++ ·) ++
  ([""] : List Text) ++
  (if o.comments then commentLines c else []) ++
  ["public class " ++ c.name ++ "("] ++
  parameterLines o c.parameters ++
  ([") \x7b",
    o.indent ++ "private val sharedPreferences: SharedPreferences =",
    o.indent ++ o.indent ++ "context.getSharedPreferences(" ++
      stringLiteral c.schema.storeName ++ ", " ++ simpleName o.contextClass ++ ".MODE_PRIVATE)"] :
    List Text) ++
  c.methods.flatMap (methodLines o) ++
  (["\x7d", ""] : List Text)

def fileName (className : Text) : Text :=
  className ++ ".kt"

end PrefAccessor.Kotlin
