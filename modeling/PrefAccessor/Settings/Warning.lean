import PrefAccessor.Settings.Basic
import PrefAccessor.Text.Identifier

/-!
# Warnings about settings

What is reported about settings before they are used: values outside their range, and a style that
the language does not have. A value of a kind that a check cannot look at is a fault, and so is one
that a warning would have to name and that has no text.
-/

namespace PrefAccessor

set_option autoImplicit false

inductive SettingsWarning where
  | methodCase (value : Json)
  | styleOfKotlin
  | classSuffix (value : Text)
  | indentSize (value : Json)
  | packageName (value : Text)
  deriving DecidableEq

def SettingsWarning.message : SettingsWarning → Text
  | .methodCase value => "Invalid method_case: " ++ value.display
  | .styleOfKotlin => "Kotlin accessors always use camel case method names"
  | .classSuffix value => "Invalid class_suffix: " ++ value
  | .indentSize value => "Invalid indent_size: " ++ value.display
  | .packageName value => "Invalid package name: " ++ value

namespace Settings

def isIdentifierText (s : Text) : Bool :=
  Text.isIdentifier s.toList

/-- Whether dots separate identifiers. -/
def isDottedName (s : Text) : Bool :=
  (s.toList.splitOn (char '.')).all Text.isIdentifier

/-- A warning that names the value it is about. An integer of too many digits has no text. -/
def warnOf (warning : Json → SettingsWarning) (value : Json) :
    Except Fault (List SettingsWarning) :=
  if value.isWritable then .ok [warning value] else .error .badValue

def methodCaseWarnings (value : Json) : Except Fault (List SettingsWarning) :=
  match value with
  | .array _ => .error .wrongKind
  | .object _ => .error .wrongKind
  | v => if v = .string "camel" ∨ v = .string "snake" then .ok [] else warnOf .methodCase v

def classSuffixWarnings (value : Json) : Except Fault (List SettingsWarning) :=
  match value with
  | .string s => .ok (if isIdentifierText s then [] else [.classSuffix s])
  | _ => .error .missingOperation

def indentSizeWarnings (value : Json) : Except Fault (List SettingsWarning) :=
  match value with
  | .int n => if n < 1 then warnOf .indentSize value else .ok []
  | .bool b => .ok (if b then [] else [.indentSize value])
  | .float x => .ok (if x.isBelowOne then [.indentSize value] else [])
  | _ => .error .wrongKind

def packageNameWarnings (value : Json) : Except Fault (List SettingsWarning) :=
  if value.isSet then
    match value with
    | .string s => .ok (if isDottedName s then [] else [.packageName s])
    | _ => .error .missingOperation
  else .ok []

def warnings (s : Settings) (language : Json) : Except Fault (List SettingsWarning) := do
  let methodCase ← methodCaseWarnings s.methodCase
  let style :=
    if language = .string "kotlin" ∧ s.methodCase = .string "snake" then
      [SettingsWarning.styleOfKotlin]
    else []
  let classSuffix ← classSuffixWarnings s.classSuffix
  let indentSize ← indentSizeWarnings s.indentSize
  let packageName ← packageNameWarnings s.packageName
  .ok (methodCase ++ style ++ classSuffix ++ indentSize ++ packageName)

end Settings

end PrefAccessor
