import PrefAccessor.Text.Basic

/-!
# Diagnostics and the log

What a run reports. A diagnostic belongs to the result of a pass; each one is also a record of the
log, between the records that only trace what is going on.
-/

namespace PrefAccessor

set_option autoImplicit false

inductive Severity where
  | error
  | warning
  | note
  deriving DecidableEq, Repr

def Severity.name : Severity → Text
  | .error => "error"
  | .warning => "warning"
  | .note => "note"

structure Diagnostic where
  severity : Severity
  message : Text
  aggregate : Option Text
  deriving DecidableEq, Repr

/-- A diagnostic in one text, which begins with its aggregate if that has a name. -/
def Diagnostic.text (d : Diagnostic) : Text :=
  d.severity.name ++ ": " ++
    (match d.aggregate with
    | some "" => ""
    | some name => name ++ ": "
    | none => "") ++ d.message

/-- Levels of the log, from the least important one up. -/
inductive Level where
  | debug
  | info
  | warning
  | error
  deriving DecidableEq, Repr

namespace Level

def rank : Level → Nat
  | .debug => 0
  | .info => 1
  | .warning => 2
  | .error => 3

def name : Level → Text
  | .debug => "DEBUG"
  | .info => "INFO"
  | .warning => "WARNING"
  | .error => "ERROR"

end Level

def Severity.level : Severity → Level
  | .error => .error
  | .warning => .warning
  | .note => .info

structure LogRecord where
  level : Level
  message : Text
  deriving DecidableEq, Repr

inductive Event where
  | diagnostic (diagnostic : Diagnostic)
  | trace (record : LogRecord)
  deriving DecidableEq, Repr

namespace Event

def diagnostic? : Event → Option Diagnostic
  | .diagnostic d => some d
  | .trace _ => none

def record : Event → LogRecord
  | .diagnostic d => ⟨d.severity.level, d.text⟩
  | .trace r => r

def debug (message : Text) : Event := .trace ⟨.debug, message⟩

def info (message : Text) : Event := .trace ⟨.info, message⟩

end Event

def diagnosticsOf (events : List Event) : List Diagnostic :=
  events.filterMap Event.diagnostic?

def ofSeverity (severity : Severity) (diagnostics : List Diagnostic) : List Diagnostic :=
  diagnostics.filter fun d => decide (d.severity = severity)

def hasErrors (diagnostics : List Diagnostic) : Bool :=
  ofSeverity .error diagnostics != []

def exitStatus (diagnostics : List Diagnostic) : Nat :=
  if hasErrors diagnostics then 1 else 0

/-- The name of the logger for a module, below that of the whole program. -/
def loggerName (programName : Text) : Option Text → Text
  | none => programName
  | some name =>
    if name = programName ∨ (programName ++ ".").toList.isPrefixOf name.toList then name
    else programName ++ "." ++ name

def programName : Text := "sharedpreform"

end PrefAccessor
