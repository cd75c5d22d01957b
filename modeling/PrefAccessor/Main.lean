import PrefAccessor.CommandLine.Run

/-!
# The program

Runs the command line on the files around it. The part of the file tree that an invocation can touch
is read first, the run itself is computed on that part, and what the run changed is written back.
-/

namespace PrefAccessor.Disk

set_option autoImplicit false

open CommandLine

/-- The spelling of a place as a path from the working directory. -/
def spelling (place : Place) : Option String :=
  match place with
  | "/" :: rest => (Path.mk "/" rest).toString.string?
  | rest => (Path.mk "" rest).toString.string?

/-- What stands at a place on the disk. A directory can be opened but holds no bytes to read. -/
def entry? (place : Place) : IO (Option FileEntry) := do
  let some path := spelling place | return none
  let opened ← (IO.FS.Handle.mk path .read).toBaseIO
  match opened with
  | .error _ => return none
  | .ok handle =>
    match ← handle.readBinToEnd.toBaseIO with
    | .ok content => return some (.file content)
    | .error _ => return some .directory

/-- The places that a path leads through, from a place on. -/
def placesFrom (place : Place) : List Text → List Place
  | [] => []
  | c :: cs =>
    let next := if c = ".." then FileTree.above place else place ++ [c.fileName]
    next :: placesFrom next cs

def placesOn (path : Path) : List Place :=
  placesFrom (FileTree.start path) path.parts

/-- The paths that an invocation names. -/
def namedPaths : Invocation → List Path
  | .generate r => ((r.sources ++ r.config.toList ++ r.output.toList).map Path.ofString).filter
      fun p => (FileTree.pathFault? p).isNone
  | _ => []

/-- Adds what is on the disk at places that a tree says nothing about. -/
def extend (tree : FileTree) (places : List Place) : IO FileTree :=
  places.foldlM (fun tree place => do
    if (tree.entry? place).isSome then return tree
    match ← entry? place with
    | some e => return Entries.put tree place e
    | none => return tree) tree

/-- Makes the entries that one tree has and another lacks or holds with other contents. -/
def save (before after : FileTree) : IO Unit := do
  for (place, entry) in after do
    let some path := spelling place | continue
    match entry, Entries.find? before place with
    | .directory, none => IO.FS.createDirAll path
    | .file content, some (.file old) =>
      if content != old then IO.FS.writeBinFile path content
    | .file content, _ => IO.FS.writeBinFile path content
    | .directory, some _ => pure ()

/-- A console that shows everything as it is given. -/
def console (p : Print) : Except Fault (List Text) :=
  let lines := match p with
    | .message markup => [markup]
    | .code source _ => [source]
    | .table _ title header rows => title :: (header :: rows).map (Text.intercalate "  ")
    | .panel title markup => [title, markup]
  if lines.all Text.isEncodable then .ok lines else .error .unencodable

/-- The longest indentation that is made. -/
def room : Nat := 4294967296

/-- Runs on the disk. The places that a first run would fill are read before the run that counts,
since something may stand there already. -/
def run (invocation : Invocation) : IO Report := do
  let settings ← extend [] ((namedPaths invocation).flatMap placesOn)
  let draft := perform ⟨settings, [], console, room⟩ invocation
  let found ← extend settings (draft.tree.map Prod.fst |>.filter fun place =>
    (settings.entry? place).isNone)
  let report := perform ⟨found, [], console, room⟩ invocation
  save found report.tree
  return report

def usage : String :=
  "Usage: sharedpreform generate SOURCE... --language LANGUAGE"

/-- The exit status of a report, after what it has to say about it. -/
def close (report : Report) : IO UInt32 := do
  for r in report.log do
    IO.eprintln ((r.level.name ++ " " ++ r.message).string?.getD "")
  for l in report.printed do
    IO.println (l.string?.getD "")
  match report.exit with
  | .status n => return n.toUInt32
  | .usage n =>
    IO.eprintln usage
    return n.toUInt32
  | .fault k =>
    IO.eprintln (k.kindName.string?.getD "")
    return 1

end PrefAccessor.Disk

def main (args : List String) : IO UInt32 := do
  let invocation := PrefAccessor.CommandLine.invocation (args.map .plain)
  PrefAccessor.Disk.close (← PrefAccessor.Disk.run invocation)
