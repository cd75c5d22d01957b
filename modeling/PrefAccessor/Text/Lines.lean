import PrefAccessor.Text.Basic

/-!
# Lines

Two ways to cut a text. `lines` cuts at every line boundary of Unicode (and at the separators
U+001C to U+001E), where a carriage return and the line feed after it are one boundary and a final
boundary opens no further line. `List.splitOn` of the library cuts at one character and keeps every
part.
-/

namespace PrefAccessor.Text

set_option autoImplicit false

def isLineBreak (c : CodePoint) : Bool :=
  c == '\n' || c == '\r' || c == '\x0b' || c == '\x0c' || c == '\x1c' || c == '\x1d' ||
    c == '\x1e' || c == '\u0085' || c == '\u2028' || c == '\u2029'

/-- The lines of a text whose current line began with `started`, last character first. -/
def linesFrom (started : List CodePoint) : List CodePoint → List (List CodePoint)
  | [] => if started = [] then [] else [started.reverse]
  | '\r' :: '\n' :: cs => started.reverse :: linesFrom [] cs
  | c :: cs =>
    if isLineBreak c then started.reverse :: linesFrom [] cs else linesFrom (c :: started) cs

def lines (cs : List CodePoint) : List (List CodePoint) :=
  linesFrom [] cs

/-- No line holds a line boundary. -/
theorem isLineBreak_of_mem_linesFrom {started cs : List CodePoint}
    (hs : ∀ c ∈ started, isLineBreak c = false) :
    ∀ l ∈ linesFrom started cs, ∀ c ∈ l, isLineBreak c = false := by
  fun_induction linesFrom started cs with
  | case1 => simp
  | case2 started h => simpa using hs
  | case3 started cs ih =>
    intro l hl
    rcases List.mem_cons.mp hl with rfl | hl
    · simpa using hs
    · exact ih (by simp) l hl
  | case4 started c cs hne hc ih =>
    intro l hl
    rcases List.mem_cons.mp hl with rfl | hl
    · simpa using hs
    · exact ih (by simp) l hl
  | case5 started c cs hne hc ih =>
    apply ih
    intro d hd
    rcases List.mem_cons.mp hd with rfl | hd
    · simpa using hc
    · exact hs d hd

theorem isLineBreak_of_mem_lines {cs l : List CodePoint} (hl : l ∈ lines cs) :
    ∀ c ∈ l, isLineBreak c = false :=
  isLineBreak_of_mem_linesFrom (by simp) l hl

end PrefAccessor.Text
