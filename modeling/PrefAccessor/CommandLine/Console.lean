import PrefAccessor.Fault

/-!
# The console

What is given to the console to show: messages with style tags in square brackets, generated code,
tables and texts in a frame. How it shows them, and which of them it cannot show, is the console's.
-/

namespace PrefAccessor

set_option autoImplicit false

/-- How a table is set off. -/
inductive TableFrame where
  /-- Ruled between the title row and the others. -/
  | simple
  /-- Framed, with round corners. -/
  | rounded
  deriving DecidableEq, Repr

inductive Print where
  | message (markup : Text)
  /-- Code of a language, in its colours. -/
  | code (source language : Text)
  | table (frame : TableFrame) (title : Text) (header : List Text) (rows : List (List Text))
  | panel (title markup : Text)
  deriving DecidableEq, Repr

/-- The lines that appear, or what stops the printing. -/
abbrev Console := Print → Except Fault (List Text)

namespace Console

/-- Prints one thing after another up to the first that cannot be printed. -/
def printAll (console : Console) : List Print → List Text × Option Fault
  | [] => ([], none)
  | p :: rest =>
    match console p with
    | .error k => ([], some k)
    | .ok lines =>
      let (more, fault) := printAll console rest
      (lines ++ more, fault)

end Console

end PrefAccessor
