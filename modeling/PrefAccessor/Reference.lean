import PrefAccessor.Schema.Source
import PrefAccessor.Traced

/-!
# References to sources

Sources named by text: a file of schema documents, or a module with or without the name of one of
its classes. Of a module named alone, the tagged classes that it defines itself are taken, in the
order of its attributes. What is looked up leaves its traces in the log, whether it is found or not.
-/

namespace PrefAccessor

set_option autoImplicit false

/-- What an attribute of a module is bound to. -/
inductive ModuleValue where
  | declaration (declaration : ClassDeclaration)
  | value (value : Json)
  deriving Inhabited

structure ModuleEntry where
  name : Text
  attributes : Entries Text ModuleValue
  deriving Inhabited

inductive ReferenceProblem where
  | file (refusal : Refusal)
  | notImported (moduleName reason : Text)
  | noAttribute (moduleName className : Text)
  | untagged (reference : Text)
  deriving DecidableEq

def ReferenceProblem.message : ReferenceProblem → Text
  | .file refusal => refusal.message
  | .notImported moduleName reason => "Cannot import module " ++ moduleName ++ ": " ++ reason
  | .noAttribute moduleName className =>
    "Module " ++ moduleName ++ " has no attribute " ++ className
  | .untagged reference => reference ++ " is not tagged with PrefStore"

namespace Reference

/-- Whether a reference names a file of schema documents, by its ending or by being a file. -/
def isFile (tree : FileTree) (reference : Text) : Except Fault Bool :=
  if (".json" : Text).toList.isSuffixOf (Text.lowercase reference).toList then .ok true
  else tree.isFile? (Path.ofString reference)

def loadFile (tree : FileTree) (reference : Text) : Traced ReferenceProblem (List Source) :=
  let begun := Event.debug ("Loading schema file: " ++ reference)
  match Document.load tree (Path.ofString reference) with
  | .ok documents =>
    ⟨[begun, Event.info ("Loaded " ++ Text.ofList (Number.writeNat documents.length) ++
        " aggregate(s) from " ++ reference)],
      .ok (documents.map Source.document)⟩
  | .error (.refused r) =>
    ⟨[begun, .trace ⟨.error, r.message⟩], Attempt.refuse (.file r)⟩
  | .error (.fault k) => ⟨[begun], Attempt.stop k⟩

/-- The part of a dotted name before its last dot. -/
def parentName (name : Text) : Text :=
  Text.ofList ([char '.'].intercalate (name.toList.splitOn (char '.')).dropLast)

/-- Why a module cannot be imported; `depth` bounds the number of dots. A module is looked for in
its parent, which therefore has to be found first. -/
def importProblem (known : List Text) : Nat → Text → Option Text
  | 0, name => if known.contains name then none else some ("No module named " ++ Text.quoted name)
  | depth + 1, name =>
    if known.contains name then none
    else if parentName name = "" then some ("No module named " ++ Text.quoted name)
    else
      match importProblem known depth (parentName name) with
      | some reason => some reason
      | none =>
        some ("No module named " ++ Text.quoted name ++ "; " ++ Text.quoted (parentName name) ++
          " is not a package")

def importModule (modules : List ModuleEntry) (name : Text) :
    Attempt ReferenceProblem ModuleEntry :=
  if name.toList.head? = some (char '.') then Attempt.stop .wrongKind
  else if name = "" then Attempt.stop .badValue
  else
    match modules.find? fun m => m.name == name with
    | some m => .ok m
    | none =>
      Attempt.refuse (.notImported name
        ((importProblem (modules.map ModuleEntry.name) name.length name).getD ""))

/-- The part of a reference before the first colon, and the part behind it. -/
def splitReference (reference : Text) : Text × Text :=
  let cs := reference.toList
  (Text.ofList (cs.takeWhile (· != char ':')), Text.ofList ((cs.dropWhile (· != char ':')).drop 1))

/-- The tagged classes that a module defines itself. -/
def taggedClasses (m : ModuleEntry) : List ClassDeclaration :=
  m.attributes.filterMap fun e =>
    match e.2 with
    | .declaration c => if c.tag.isSome ∧ c.moduleName = m.name then some c else none
    | .value _ => none

def classNamed (m : ModuleEntry) (reference className : Text) :
    Attempt ReferenceProblem ClassDeclaration :=
  match Entries.find? m.attributes className with
  | none => Attempt.refuse (.noAttribute m.name className)
  | some (.value .null) => Attempt.refuse (.noAttribute m.name className)
  | some (.value _) => Attempt.refuse (.untagged reference)
  | some (.declaration c) =>
    if c.tag.isSome then .ok c else Attempt.refuse (.untagged reference)

def loadModule (modules : List ModuleEntry) (reference : Text) :
    Traced ReferenceProblem (List Source) :=
  let (moduleName, className) := splitReference reference
  let begun := Event.debug ("Importing aggregates from " ++ reference)
  match importModule modules moduleName with
  | .error (.refused p) => ⟨[begun, .trace ⟨.error, p.message⟩], Attempt.refuse p⟩
  | .error (.fault k) => ⟨[begun], Attempt.stop k⟩
  | .ok m =>
    if className = "" then
      let found := taggedClasses m
      let missing := if found.isEmpty then
          [Event.trace ⟨.warning, "No PrefStore classes found in " ++ moduleName⟩]
        else []
      ⟨begun :: missing, .ok (found.map Source.declaration)⟩
    else ⟨[begun], (classNamed m reference className).map fun c => [Source.declaration c]⟩

/-- The sources that one reference names. -/
def load (tree : FileTree) (modules : List ModuleEntry) (reference : Text) :
    Traced ReferenceProblem (List Source) :=
  match isFile tree reference with
  | .ok true => loadFile tree reference
  | .ok false => loadModule modules reference
  | .error k => ⟨[], Attempt.stop k⟩

/-- The sources that all references name, in order. The first failure ends the search. -/
def loadAll (tree : FileTree) (modules : List ModuleEntry) :
    List Text → Traced ReferenceProblem (List Source)
  | [] => ⟨[], .ok []⟩
  | r :: rest =>
    (load tree modules r).bind fun found => (loadAll tree modules rest).map (found ++ ·)

end Reference

end PrefAccessor
