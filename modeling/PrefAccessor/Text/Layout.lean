import PrefAccessor.Text.Blank

/-!
# Layout of generated text

The last step before a generated text is handed out: blanks at line ends go, at most two empty lines
stay together, and the text begins and ends with a line that is not empty. What stands on the other
lines is untouched.
-/

namespace PrefAccessor.Text

set_option autoImplicit false

def maxEmptyLines : Nat := 2

/-- Lines without blanks at their ends and without superfluous empty ones, after `empty` empty lines
have been passed. -/
def settleLines (empty : Nat) : List (List CodePoint) → List (List CodePoint)
  | [] => []
  | l :: ls =>
    if trimEnd l = [] then
      if empty < maxEmptyLines then [] :: settleLines (empty + 1) ls
      else settleLines (empty + 1) ls
    else trimEnd l :: settleLines 0 ls

/-- Lines without the empty ones at both ends. -/
def trimLines (ls : List (List CodePoint)) : List (List CodePoint) :=
  let isEmptyLine : List CodePoint → Bool := List.isEmpty
  ((ls.dropWhile isEmptyLine).reverse.dropWhile isEmptyLine).reverse

def layoutLines (ls : List (List CodePoint)) : List (List CodePoint) :=
  trimLines (settleLines 0 ls)

def layoutChars (cs : List CodePoint) : List CodePoint :=
  [char '\n'].intercalate (layoutLines (cs.splitOn (char '\n'))) ++ [char '\n']

def layout (text : Text) : Text :=
  Text.ofList (layoutChars text.toList)

end PrefAccessor.Text
