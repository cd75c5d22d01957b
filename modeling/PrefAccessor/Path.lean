import PrefAccessor.Text.FileName

/-!
# Paths

A path is an optional root and a list of components. Reading a path drops empty components and
single dots but keeps double dots, whose meaning depends on the file tree. Joining takes an
absolute path as it is.
-/

namespace PrefAccessor

set_option autoImplicit false

structure Path where
  /-- Empty for a relative path, else one or two slashes. -/
  root : Text
  parts : List Text
  deriving DecidableEq, Repr, Inhabited

namespace Path

/-- The root that leading slashes stand for: exactly two slashes are a root of their own. -/
def rootOf : List CodePoint → Text
  | '/' :: '/' :: '/' :: _ => "/"
  | '/' :: '/' :: _ => "//"
  | '/' :: _ => "/"
  | _ => ""

/-- The components between the slashes, without empty ones and single dots. -/
def components (cs : List CodePoint) : List Text :=
  ((cs.splitOn (char '/')).map Text.ofList).filter fun c => c != "" && c != "."

def ofString (s : Text) : Path :=
  ⟨rootOf s.toList, components s.toList⟩

def isAbsolute (p : Path) : Bool :=
  p.root != ""

/-- `q` as seen from `p`. -/
def join (p q : Path) : Path :=
  if q.isAbsolute then q else ⟨p.root, p.parts ++ q.parts⟩

/-- The path through all of the given pieces. -/
def ofPieces (pieces : List Text) : Path :=
  (pieces.map ofString).foldl join ⟨"", []⟩

def parent (p : Path) : Path :=
  ⟨p.root, p.parts.dropLast⟩

def name (p : Path) : Text :=
  p.parts.getLast?.getD ""

protected def toString (p : Path) : Text :=
  if p.parts = [] ∧ p.root = "" then "." else p.root ++ Text.intercalate "/" p.parts

/-- The ending of a file name from its last dot on; a dot at either end of the name begins none. -/
def extension (p : Path) : Text :=
  let tail := p.name.toList.reverse.takeWhile (· != char '.')
  let stem := p.name.toList.reverse.dropWhile (· != char '.')
  if tail = [] ∨ stem.length ≤ 1 then "" else Text.ofList (char '.' :: tail.reverse)

/-- Whether each component is the name of a file. -/
def isNamed (p : Path) : Bool :=
  p.parts.all fun c => c.fileName?.isSome

/-- Whether the path holds the character that no system call accepts. -/
def hasNul (p : Path) : Bool :=
  p.parts.any fun c => c.toList.contains '\x00'

end Path

end PrefAccessor
