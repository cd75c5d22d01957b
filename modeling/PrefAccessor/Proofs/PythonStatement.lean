import Mathlib.Data.List.TakeWhile
import PrefAccessor.Proofs.Generation
import PrefAccessor.Proofs.NameCharacters
import PrefAccessor.Proofs.PythonLiteral

/-!
# Reading method bodies

The forms of lines that a body has, read without knowing what they were written from. Each line of a
method reads back as the statement that it was written for, `read?_text`: the operation of the type,
the key and the default, and the name of the twin.
-/

namespace PrefAccessor.Python

set_option autoImplicit false

namespace Statement

def getHead : List CodePoint := ("return self._store.get_" : Text).toList

def putHead : List CodePoint := ("self._store.edit().put_" : Text).toList

def loopLine : List CodePoint := ("loop = asyncio.get_running_loop()" : Text).toList

def returnHead : List CodePoint :=
  ("return await loop.run_in_executor(self._executor, self." : Text).toList

def awaitHead : List CodePoint := ("await loop.run_in_executor(self._executor, self." : Text).toList

def putTail : List CodePoint := (", value).apply()" : Text).toList

def awaitTail : List CodePoint := (", value)" : Text).toList

/-- The end of the name of a store operation, up to the bracket behind it. -/
def readOperation? (cs : List CodePoint) : Option (PrefType × List CodePoint) :=
  match PrefType.all.find? fun t => t.operation.toList == cs.takeWhile (· != char '('),
    cs.dropWhile (· != char '(') with
  | some type, _ :: rest => some (type, rest)
  | _, _ => none

/-- A name of a method and what follows it; no other letters than those of ASCII are known. -/
def readName? (cs : List CodePoint) : Option (Text × List CodePoint) :=
  let name := cs.takeWhile Naming.isWordChar
  if Text.isIdentifier name then some (Text.ofList name, cs.dropWhile Naming.isWordChar) else none

def readGet? (cs : List CodePoint) : Option Statement := do
  let cs ← getHead.isPrefixOf? cs
  let (type, cs) ← readOperation? cs
  let (key, cs) ← scanString? cs
  let cs ← [char ',', char ' '].isPrefixOf? cs
  if cs.getLast? = some (char ')') then
    (readValue? cs.dropLast).map (.returnRead type key)
  else none

def readPut? (cs : List CodePoint) : Option Statement := do
  let cs ← putHead.isPrefixOf? cs
  let (type, cs) ← readOperation? cs
  let (key, cs) ← scanString? cs
  if cs = putTail then some (.write type key) else none

def readReturn? (cs : List CodePoint) : Option Statement := do
  let cs ← returnHead.isPrefixOf? cs
  let (getter, cs) ← readName? cs
  if cs = [char ')'] then some (.returnAwaited getter) else none

def readAwait? (cs : List CodePoint) : Option Statement := do
  let cs ← awaitHead.isPrefixOf? cs
  let (setter, cs) ← readName? cs
  if cs = awaitTail then some (.await setter) else none

/-- A line of a body, without indent. -/
def read? (line : Text) : Option Statement :=
  let cs := line.toList
  if cs = loopLine then some .takeLoop
  else readGet? cs <|> readPut? cs <|> readReturn? cs <|> readAwait? cs

/-- What the text of a statement needs in order to be read. -/
def IsReadable : Statement → Prop
  | .returnRead _ key default => key.isEncodable = true ∧ HasLiteral default
  | .write _ key => key.isEncodable = true
  | .returnAwaited name => Text.isIdentifier name.toList = true ∧ Naming.IsWord name.toList
  | .await name => Text.isIdentifier name.toList = true ∧ Naming.IsWord name.toList
  | .takeLoop => True

theorem isPrefixOf?_append (p cs : List CodePoint) : p.isPrefixOf? (p ++ cs) = some cs :=
  List.isPrefixOf?_eq_some_iff_append_eq.mpr rfl

/-- A line does not begin in two ways that differ. -/
theorem isPrefixOf?_append_eq_none {p q : List CodePoint} (hp : p.isPrefixOf q = false)
    (hq : q.isPrefixOf p = false) (cs : List CodePoint) : p.isPrefixOf? (q ++ cs) = none := by
  rw [Option.eq_none_iff_forall_not_mem]
  intro rest hrest
  have heq := List.isPrefixOf?_eq_some_iff_append_eq.mp (Option.mem_def.mp hrest)
  have hcompare := List.prefix_or_prefix_of_prefix ⟨rest, heq⟩ (List.prefix_append q cs)
  rcases hcompare with h | h
  · rw [List.isPrefixOf_iff_prefix.mpr h] at hp
    cases hp
  · rw [List.isPrefixOf_iff_prefix.mpr h] at hq
    cases hq

theorem readOperation?_operation (type : PrefType) (cs : List CodePoint) :
    readOperation? (type.operation.toList ++ char '(' :: cs) = some (type, cs) := by
  have hname : ∀ c ∈ type.operation.toList, (c != '(') = true := by
    rw [← List.all_eq_true]
    cases type <;> decide +kernel
  have hfind : PrefType.all.find? (fun t => t.operation.toList == type.operation.toList) =
      some type := by
    cases type <;> decide +kernel
  have htake :
      (type.operation.toList ++ char '(' :: cs).takeWhile (· != char '(') = type.operation.toList := by
    rw [List.takeWhile_append_of_pos hname, List.takeWhile_cons_of_neg (by decide), List.append_nil]
  have hdrop : (type.operation.toList ++ char '(' :: cs).dropWhile (· != char '(') = char '(' :: cs := by
    rw [List.dropWhile_append_of_pos hname, List.dropWhile_cons_of_neg (by decide)]
  rw [readOperation?, htake, hdrop, hfind]

theorem readName?_word {name : Text} (hname : Text.isIdentifier name.toList = true)
    (hword : Naming.IsWord name.toList) {c : CodePoint} (hc : Naming.isWordChar c = false)
    (cs : List CodePoint) : readName? (name.toList ++ c :: cs) = some (name, c :: cs) := by
  have htake : (name.toList ++ c :: cs).takeWhile Naming.isWordChar = name.toList := by
    rw [List.takeWhile_append_of_pos hword, List.takeWhile_cons_of_neg (by simp [hc]),
      List.append_nil]
  have hdrop : (name.toList ++ c :: cs).dropWhile Naming.isWordChar = c :: cs := by
    rw [List.dropWhile_append_of_pos hword, List.dropWhile_cons_of_neg (by simp [hc])]
  rw [readName?, htake, hdrop, if_pos hname, Text.ofList_toList]

theorem text_returnRead (type : PrefType) (key : Text) (default : PrefValue) :
    (text (.returnRead type key default)).toList = getHead ++ (type.operation.toList ++ char '(' ::
      ((stringLiteral key).toList ++
        ([char ',', char ' '] ++ ((literal default).toList ++ [char ')'])))) := by
  have hopen : ("(" : Text).toList = [char '('] := by decide +kernel
  have hcomma : (", " : Text).toList = [char ',', char ' '] := by decide +kernel
  have hclose : (")" : Text).toList = [char ')'] := by decide +kernel
  unfold text getHead
  simp only [Text.toList_append, List.append_assoc, hopen, hcomma, hclose, List.nil_append,
    List.cons_append]

theorem text_write (type : PrefType) (key : Text) :
    (text (.write type key)).toList = putHead ++ (type.operation.toList ++ char '(' ::
      ((stringLiteral key).toList ++ putTail)) := by
  have hopen : ("(" : Text).toList = [char '('] := by decide +kernel
  unfold text putHead putTail
  simp only [Text.toList_append, List.append_assoc, hopen, List.nil_append, List.cons_append]

theorem text_returnAwaited (getter : Text) :
    (text (.returnAwaited getter)).toList = returnHead ++ (getter.toList ++ [char ')']) := by
  have hclose : (")" : Text).toList = [char ')'] := by decide +kernel
  unfold text returnHead
  simp only [Text.toList_append, List.append_assoc, hclose]

theorem text_await (setter : Text) :
    (text (.await setter)).toList = awaitHead ++ (setter.toList ++ awaitTail) := by
  unfold text awaitHead awaitTail
  rw [Text.toList_append, Text.toList_append, List.append_assoc]

/-- No line but its own is the first one of a method that does not block. -/
theorem ne_loopLine {head : List CodePoint} (h : head.isPrefixOf loopLine = false)
    (cs : List CodePoint) :
    head ++ cs ≠ loopLine := by
  intro heq
  rw [List.isPrefixOf_iff_prefix.mpr ⟨cs, heq⟩] at h
  cases h

theorem readGet?_eq_none {head : List CodePoint} (h : getHead.isPrefixOf head = false)
    (h' : head.isPrefixOf getHead = false) (cs : List CodePoint) : readGet? (head ++ cs) = none := by
  rw [readGet?, isPrefixOf?_append_eq_none h h']
  rfl

theorem readPut?_eq_none {head : List CodePoint} (h : putHead.isPrefixOf head = false)
    (h' : head.isPrefixOf putHead = false) (cs : List CodePoint) : readPut? (head ++ cs) = none := by
  rw [readPut?, isPrefixOf?_append_eq_none h h']
  rfl

theorem readReturn?_eq_none {head : List CodePoint} (h : returnHead.isPrefixOf head = false)
    (h' : head.isPrefixOf returnHead = false) (cs : List CodePoint) :
    readReturn? (head ++ cs) = none := by
  rw [readReturn?, isPrefixOf?_append_eq_none h h']
  rfl

/-- Each line of a body reads back as the statement that it was written for. -/
theorem read?_text {st : Statement} (h : st.IsReadable) : read? st.text = some st := by
  cases st with
  | returnRead type key default =>
    obtain ⟨key, rfl⟩ := Text.isEncodable_iff.mp h.1
    have hread : readGet? (text (.returnRead type key default)).toList =
        some (.returnRead type key default) := by
      simp only [text_returnRead, readGet?, isPrefixOf?_append, readOperation?_operation,
        scanString?_stringLiteral, Option.bind_eq_bind, Option.bind_some, List.getLast?_concat,
        if_true, List.dropLast_concat, readValue?_literal h.2, Option.map_some]
    rw [read?, hread, if_neg]
    · rfl
    · rw [text_returnRead]
      exact ne_loopLine (by decide +kernel) _
  | write type key =>
    obtain ⟨key, rfl⟩ := Text.isEncodable_iff.mp h
    have hput : readPut? (text (.write type key)).toList = some (.write type key) := by
      simp only [text_write, readPut?, isPrefixOf?_append, readOperation?_operation,
        scanString?_stringLiteral, Option.bind_eq_bind, Option.bind_some, if_true]
    rw [read?, hput, text_write, readGet?_eq_none (by decide +kernel) (by decide +kernel), if_neg]
    · rfl
    · exact ne_loopLine (by decide +kernel) _
  | takeLoop =>
    rw [read?, if_pos]
    rfl
  | returnAwaited getter =>
    have hreturn : readReturn? (text (.returnAwaited getter)).toList =
        some (.returnAwaited getter) := by
      simp only [text_returnAwaited, readReturn?, isPrefixOf?_append, Option.bind_eq_bind,
        readName?_word h.1 h.2 (c := ')') (by decide), Option.bind_some, if_true]
    rw [read?, hreturn, text_returnAwaited,
      readGet?_eq_none (by decide +kernel) (by decide +kernel),
      readPut?_eq_none (by decide +kernel) (by decide +kernel), if_neg]
    · rfl
    · exact ne_loopLine (by decide +kernel) _
  | await setter =>
    have htail : awaitTail = char ',' :: awaitTail.tail := by decide +kernel
    have hname := readName?_word h.1 h.2 (c := ',') (by decide) awaitTail.tail
    rw [← htail] at hname
    have hawait : readAwait? (text (.await setter)).toList = some (.await setter) := by
      simp only [text_await, readAwait?, isPrefixOf?_append, Option.bind_eq_bind, hname,
        Option.bind_some, if_true]
    rw [read?, hawait, text_await, readGet?_eq_none (by decide +kernel) (by decide +kernel),
      readPut?_eq_none (by decide +kernel) (by decide +kernel),
      readReturn?_eq_none (by decide +kernel) (by decide +kernel), if_neg]
    · rfl
    · exact ne_loopLine (by decide +kernel) _

end Statement

/-- A body reads back if its key has an encoded form, its default a literal and its twin a name. -/
theorem read?_body {m : Method} (hkey : m.field.key.isEncodable = true)
    (hdefault : HasLiteral m.default)
    (htwin : ∀ twin, m.twin = some twin →
      Text.isIdentifier twin.toList = true ∧ Naming.IsWord twin.toList) :
    (body m).map Statement.read? = (statements m).map some := by
  have hreadable : ∀ st ∈ statements m, st.IsReadable := by
    intro st hst
    cases haccess : m.access <;> cases hm : m.twin <;>
      simp only [statements, haccess, hm, List.mem_cons, List.not_mem_nil, or_false] at hst
    · subst hst
      exact ⟨hkey, hdefault⟩
    · rcases hst with rfl | rfl
      · trivial
      · exact htwin _ hm
    · subst hst
      exact hkey
    · rcases hst with rfl | rfl
      · trivial
      · exact htwin _ hm
  rw [body, List.map_map]
  exact List.map_congr_left fun st hst => Statement.read?_text (hreadable st hst)

end PrefAccessor.Python
