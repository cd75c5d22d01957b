import PrefAccessor.Json.Display

/-!
# Writing JSON

Supplies the written form of a string, where only the quote, the backslash and the control
characters below the space are escaped, and of whole values in their compact form.
-/

namespace PrefAccessor.Json

set_option autoImplicit false

open Number

/-- A character inside a written string. -/
def writeChar (c : CodePoint) : List CodePoint :=
  if c = '"' then [char '\\', char '"']
  else if c = '\\' then [char '\\', char '\\']
  else if c = '\n' then [char '\\', char 'n']
  else if c = '\r' then [char '\\', char 'r']
  else if c = '\t' then [char '\\', char 't']
  else if c = '\x0c' then [char '\\', char 'f']
  else if c = '\x08' then [char '\\', char 'b']
  else if c.toNat < 0x20 then char '\\' :: char 'u' :: Text.hexDigits 4 c.toNat
  else [c]

def writeString (cs : List CodePoint) : List CodePoint :=
  char '"' :: cs.flatMap writeChar ++ [char '"']

def stringLiteral (s : Text) : Text :=
  Text.ofList (writeString s.toList)

/-- Numbers as in `displayStyle`, with the words of the format for what is not finite. -/
def numberStyle : FloatStyle :=
  { displayStyle with nan := ("NaN" : Text).toList, infinity := ("Infinity" : Text).toList }

mutual

def write : Json → Text
  | .null => "null"
  | .bool b => if b then "true" else "false"
  | .int n => displayInt n
  | .float x => Text.ofList (numberStyle.write x)
  | .string s => stringLiteral s
  | .array items => "[" ++ Text.intercalate "," (writeItems items) ++ "]"
  | .object members => "\x7b" ++ Text.intercalate "," (writeMembers members) ++ "\x7d"

def writeItems : List Json → List Text
  | [] => []
  | x :: xs => x.write :: writeItems xs

def writeMembers : List (Text × Json) → List Text
  | [] => []
  | (k, x) :: ms => (stringLiteral k ++ ":" ++ x.write) :: writeMembers ms

end

end PrefAccessor.Json
