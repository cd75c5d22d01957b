import PrefAccessor.FileTree
import PrefAccessor.Schema.Error

/-!
# Sinks

Where the generated texts of a pass go: nowhere, into memory under their paths, or to files below a
directory. Only writing to files can fail. A cause of the file system refuses the text; a text without
an encoded form, or a path that cannot be one, is a fault.
-/

namespace PrefAccessor

set_option autoImplicit false

inductive Sink where
  | discard
  | memory (files : Entries Text Text)
  | directory (root : Path) (tree : FileTree)

inductive Delivery where
  /-- The text is at the location, if the sink has locations. -/
  | done (location : Option Text)
  | refused (refusal : Refusal)
  | fault (fault : Fault)
  deriving DecidableEq

namespace Sink

def write (sink : Sink) (path : Path) (text : Text) : Sink × Delivery :=
  match sink with
  | .discard => (.discard, .done none)
  | .memory files => (.memory (files.put path.toString text), .done (some path.toString))
  | .directory root tree =>
    let target := root.join path
    match tree.save target text with
    | (tree, none) => (.directory root tree, .done (some target.toString))
    | (tree, some (.refused e)) =>
      (.directory root tree, .refused ⟨.notWritten target.toString e, none⟩)
    | (tree, some (.fault k)) => (.directory root tree, .fault k)

/-- The sink for an output directory, which is discarding if none is set. -/
def forOutput (tree : FileTree) (output : Json) : Except Fault Sink :=
  match output with
  | .string "" => .ok .discard
  | .string root => .ok (.directory (Path.ofString root) tree)
  | v => if v.isSet then .error .wrongKind else .ok .discard

/-- Whether writing is a matter of files. -/
def usesFiles : Sink → Bool
  | .directory .. => true
  | _ => false

/-- The file tree behind the sink, which is `tree` where there is none. -/
def treeOr (sink : Sink) (tree : FileTree) : FileTree :=
  match sink with
  | .directory _ tree => tree
  | _ => tree

end Sink

end PrefAccessor
