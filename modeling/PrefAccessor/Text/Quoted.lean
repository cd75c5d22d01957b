import PrefAccessor.Text.Printable

/-!
# Quoted text

The form in which messages quote a text: between single quotes, or double quotes where the text
holds a single quote and no double one. The quote and the backslash are escaped by a backslash, and
a character that cannot be printed is written by its code.
-/

namespace PrefAccessor.Text

set_option autoImplicit false

/-- `n` in base sixteen, filled with zeros on the left to at least `width` digits. -/
def hexDigits (width n : Nat) : List CodePoint :=
  let ds := Nat.toDigits 16 n
  List.replicate (width - ds.length) (char '0') ++ ds.map char

/-- A character by its code, in two, four or eight digits. -/
def codeEscape (c : CodePoint) : List CodePoint :=
  if c.toNat < 0x100 then char '\\' :: char 'x' :: hexDigits 2 c.toNat
  else if c.toNat < 0x10000 then char '\\' :: char 'u' :: hexDigits 4 c.toNat
  else char '\\' :: char 'U' :: hexDigits 8 c.toNat

/-- A character that cannot be printed, by its short escape if it has one. -/
def controlEscape (c : CodePoint) : List CodePoint :=
  if c = '\n' then [char '\\', char 'n']
  else if c = '\r' then [char '\\', char 'r']
  else if c = '\t' then [char '\\', char 't']
  else codeEscape c

def quotedChar (quote c : CodePoint) : List CodePoint :=
  if c = quote ∨ c = '\\' then [char '\\', c]
  else if isPrintable c then [c]
  else controlEscape c

/-- The quote that saves escapes. -/
def quoteFor (cs : List CodePoint) : CodePoint :=
  if cs.contains '\'' && !cs.contains '"' then '"' else '\''

def quotedChars (cs : List CodePoint) : List CodePoint :=
  let quote := quoteFor cs
  quote :: cs.flatMap (quotedChar quote) ++ [quote]

def quoted (s : Text) : Text :=
  Text.ofList (quotedChars s.toList)

end PrefAccessor.Text
