import PrefAccessor.Entries
import PrefAccessor.Fault
import PrefAccessor.Path
import PrefAccessor.Text.Quoted

/-!
# File trees

A tree of directories and files below a working directory, under the rules of a POSIX system: a
path is walked component by component, each of which must be a directory, be found and not be too
long. Supplies looking up, reading, making directories together with their missing ancestors, and
writing a whole file. There are no links and no permissions.
-/

namespace PrefAccessor

set_option autoImplicit false

inductive OsErrorKind where
  | notFound
  | exists
  | notDirectory
  | isDirectory
  | nameTooLong
  deriving DecidableEq, Repr

/-- A failed system call and the path that it was given. -/
structure OsError where
  kind : OsErrorKind
  path : Text
  deriving DecidableEq, Repr

def OsErrorKind.description : OsErrorKind → Text
  | .notFound => "[Errno 2] No such file or directory"
  | .exists => "[Errno 17] File exists"
  | .notDirectory => "[Errno 20] Not a directory"
  | .isDirectory => "[Errno 21] Is a directory"
  | .nameTooLong => "[Errno 36] File name too long"

def OsError.message (e : OsError) : Text :=
  e.kind.description ++ ": " ++ Text.quoted e.path

inductive FileEntry where
  | directory
  | file (content : ByteArray)

/-- Where an entry lies: its components from the working directory on. The first component is a
slash where the place lies below the root of the system, and double dots lead above the working
directory. -/
abbrev Place := List Text

abbrev FileTree := Entries Place FileEntry

namespace FileTree

/-- The longest name of one entry, in bytes. -/
def maxNameBytes : Nat := 255

/-- The longest path that a system call takes, in bytes. -/
def maxPathBytes : Nat := 4095

/-- Places that are directories whatever the tree holds. -/
def isBase (place : Place) : Bool :=
  place == [.plain "/"] || place.all (· == "..")

def entry? (t : FileTree) (place : Place) : Option FileEntry :=
  if isBase place then some .directory else Entries.find? t place

def above (place : Place) : Place :=
  if place = [.plain "/"] then place
  else if place.all (· == "..") then place ++ [.plain ".."]
  else place.dropLast

/-- The place that a path leads to, seen from a place. -/
def walk (t : FileTree) (place : Place) : List Text → Except OsErrorKind Place
  | [] => .ok place
  | c :: cs =>
    match entry? t place with
    | none => .error .notFound
    | some (.file _) => .error .notDirectory
    | some .directory =>
      if c = ".." then walk t (above place) cs
      else if maxNameBytes < c.nameSize then .error .nameTooLong
      else
        match entry? t (place ++ [c.fileName]) with
        | none => .error .notFound
        | some _ => walk t (place ++ [c.fileName]) cs

def start (p : Path) : Place :=
  if p.isAbsolute then ["/"] else []

def isTooLong (p : Path) : Bool :=
  decide (maxPathBytes < p.toString.nameSize)

/-- Why no system call takes a path. -/
def pathFault? (p : Path) : Option Fault :=
  if !p.isNamed then some .unencodable
  else if p.hasNul then some .badValue
  else none

def lookUp (t : FileTree) (p : Path) : Except OsErrorKind FileEntry :=
  if isTooLong p then .error .nameTooLong
  else
    match walk t (start p) p.parts with
    | .error k => .error k
    | .ok place => match entry? t place with
      | some e => .ok e
      | none => .error .notFound

/-- The entry at a path, if there is one. A path that no system call can take is an error only if
it is too long. -/
def find? (t : FileTree) (p : Path) : Except Fault (Option FileEntry) :=
  if (pathFault? p).isSome then .ok none
  else
    match lookUp t p with
    | .ok e => .ok (some e)
    | .error .nameTooLong => .error .system
    | .error _ => .ok none

def exists? (t : FileTree) (p : Path) : Except Fault Bool :=
  (find? t p).map Option.isSome

def isFile? (t : FileTree) (p : Path) : Except Fault Bool :=
  (find? t p).map fun e =>
    match e with
    | some (.file _) => true
    | _ => false

def readText (t : FileTree) (p : Path) : Attempt OsError Text :=
  match lookUp t p with
  | .error k => Attempt.refuse ⟨k, p.toString⟩
  | .ok .directory => Attempt.refuse ⟨.isDirectory, p.toString⟩
  | .ok (.file content) =>
    match String.fromUTF8? content with
    | some s => .ok (.plain s)
    | none => Attempt.stop .undecodable

/-- The place of a new entry, and the entry that is there already. -/
def target (t : FileTree) (p : Path) : Except OsErrorKind (Place × Option FileEntry) :=
  if isTooLong p then .error .nameTooLong
  else
    match walk t (start p) p.parts.dropLast with
    | .error k => .error k
    | .ok place =>
      match entry? t place with
      | none => .error .notFound
      | some (.file _) => .error .notDirectory
      | some .directory =>
        match p.parts.getLast? with
        | none => .ok (place, some .directory)
        | some c =>
          if c = ".." then .ok (above place, some .directory)
          else if maxNameBytes < c.nameSize then .error .nameTooLong
          else .ok (place ++ [c.fileName], entry? t (place ++ [c.fileName]))

def makeDirectory (t : FileTree) (p : Path) : Except OsErrorKind FileTree :=
  match target t p with
  | .error k => .error k
  | .ok (_, some _) => .error .exists
  | .ok (place, none) => .ok (Entries.put t place .directory)

def isDirectory (t : FileTree) (p : Path) : Bool :=
  match lookUp t p with
  | .ok .directory => true
  | _ => false

def ensureDirectory (t : FileTree) (p : Path) : FileTree × Option OsError :=
  match makeDirectory t p with
  | .ok t => (t, none)
  | .error k =>
    if k ≠ .notFound ∧ isDirectory t p then (t, none) else (t, some ⟨k, p.toString⟩)

/-- Makes a directory and, where one is missing on the way, its ancestors; `depth` bounds their
number. What has been made stays even if a later step fails. -/
def ensureDirectories (t : FileTree) (p : Path) : Nat → FileTree × Option OsError
  | 0 => ensureDirectory t p
  | depth + 1 =>
    match makeDirectory t p with
    | .error .notFound =>
      match ensureDirectories t p.parent depth with
      | (t, none) => ensureDirectory t p
      | failed => failed
    | _ => ensureDirectory t p

def writeFile (t : FileTree) (p : Path) (content : ByteArray) : FileTree × Option OsError :=
  match target t p with
  | .error k => (t, some ⟨k, p.toString⟩)
  | .ok (_, some .directory) => (t, some ⟨.isDirectory, p.toString⟩)
  | .ok (place, _) => (Entries.put t place (.file content), none)

/-- Writes a text to a file, making the directories above it. A path that no system call takes is a
fault as soon as it is used. A text without an encoded form is one when the file is open already, and
so empty. -/
def save (t : FileTree) (p : Path) (text : Text) : FileTree × Option (Failure OsError) :=
  match pathFault? p.parent with
  | some k => (t, some (.fault k))
  | none =>
    match ensureDirectories t p.parent p.parts.length with
    | (t, some e) => (t, some (.refused e))
    | (t, none) =>
      match pathFault? p with
      | some k => (t, some (.fault k))
      | none =>
        match writeFile t p (text.utf8?.getD .empty) with
        | (t, some e) => (t, some (.refused e))
        | (t, none) => (t, if text.isEncodable then none else some (.fault .unencodable))

def files (t : FileTree) : List (Place × ByteArray) :=
  t.filterMap fun e =>
    match e with
    | (place, .file content) =>
      if place.head? = some (.plain "/") ∨ place.head? = some (.plain "..") then none
      else some (place, content)
    | (_, .directory) => none

end FileTree

end PrefAccessor
