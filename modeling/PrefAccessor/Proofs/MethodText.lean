import PrefAccessor.Proofs.Generation
import PrefAccessor.Proofs.NumeralCharacters
import PrefAccessor.Proofs.PythonLiteral
import PrefAccessor.Proofs.SettledLines

/-!
# The text of the methods

Each method of a class stands in the text with an empty line in front, as an opening line and the
lines of its body, and the text ends with the methods. None of these lines holds a line feed or ends
in a blank, whatever the keys and defaults are, so the layout leaves them as they are.
-/

namespace PrefAccessor

set_option autoImplicit false

open Text

namespace Profile

/-- The opening line of a method, without indent. -/
def opening : Profile → Method → Text
  | .python typeHints, m =>
    (if m.isAsync then ("async " : Text) else "") ++ "def " ++ m.name ++
      match m.access, typeHints with
      | .get, true => "(self) -> " ++ Python.typeName m.field.type ++ ":"
      | .get, false => "(self):"
      | .set, true => "(self, value: " ++ Python.typeName m.field.type ++ ") -> None:"
      | .set, false => "(self, value):"
  | .kotlin .., m =>
    "public " ++ (if m.isAsync then ("suspend " : Text) else "") ++ "fun " ++ m.name ++
      match m.access with
      | .get => "(): " ++ Kotlin.typeName m.field.type ++ " \x7b"
      | .set => "(value: " ++ Kotlin.typeName m.field.type ++ ") \x7b"

/-- What ends a method or a class behind the lines inside it. -/
def closing : Profile → List Text
  | .python _ => []
  | .kotlin .. => ["\x7d"]

/-- A method on the lines below the empty one in front of it. -/
def block (p : Profile) (indent : Text) (m : Method) : List Text :=
  (indent ++ p.opening m) :: (p.target.body m).map (indent ++ indent ++ ·) ++
    p.closing.map (indent ++ ·)

def methodText (p : Profile) (indent : Text) (m : Method) : List Text :=
  "" :: p.block indent m

end Profile

theorem Python.typeName_ne_empty (type : PrefType) : typeName type ≠ "" := by
  cases type <;> decide

theorem Python.methodLines_eq (o : Options) (m : Method) :
    methodLines o m = (Profile.python o.typeHints).methodText o.indent m := by
  have hheader : header o.typeHints (parameter? m) (returnType? m) m =
      (Profile.python o.typeHints).opening m := by
    obtain ⟨name, access, field, default, twin⟩ := m
    apply Text.toList_inj.mp
    simp only [header, parameter?, returnType?, signature, Profile.opening]
    cases access <;> cases twin <;> cases o.typeHints <;>
      simp [Method.isAsync, parameterText, typeName_ne_empty, Text.intercalate]
  rw [methodLines, hheader, Profile.methodText, Profile.block]
  simp [Profile.closing, Profile.target, Target.body]

theorem Kotlin.methodLines_eq (o : Options) (contextClass dispatcher : Json) (m : Method) :
    methodLines o m = (Profile.kotlin contextClass dispatcher).methodText o.indent m := by
  have hheader : header m = (Profile.kotlin contextClass dispatcher).opening m := by
    obtain ⟨name, access, field, default, twin⟩ := m
    apply Text.toList_inj.mp
    simp only [header, parameter?, returnType?, Profile.opening]
    cases access <;> cases twin <;> simp [Method.isAsync, parameterText]
  rw [methodLines, hheader]
  rfl

/-- A text without line feeds. -/
def Feedless (s : Text) : Prop :=
  char '\n' ∉ s.toList

instance (s : Text) : Decidable (Feedless s) :=
  inferInstanceAs (Decidable (char '\n' ∉ s.toList))

theorem feedless_append {s t : Text} : Feedless (s ++ t) ↔ Feedless s ∧ Feedless t := by
  simp [Feedless, not_or]

theorem feedless_of_isWord {s : Text} (h : Naming.IsWord s.toList) : Feedless s :=
  fun hmem => absurd (h _ hmem) (by decide)

theorem feedless_of_isNumeral {s : Text} (h : Number.IsNumeral s.toList) : Feedless s :=
  fun hmem => absurd (h _ hmem) (by decide)

theorem feedless_ofList {cs : List Char} (h : char '\n' ∉ cs.map char) :
    Feedless (String.ofList cs) := by
  rwa [Feedless, Text.toList_plain, String.toList_ofList]

theorem full_ofList {cs : List Char} (h : IsFull (cs.map char)) :
    IsFull (String.ofList cs : Text).toList := by
  rwa [Text.toList_plain, String.toList_ofList]

/-- The lines of pieces of text that stand below one another. -/
def linesOf (pieces : List Text) : List (List CodePoint) :=
  (pieces.map Text.toList).flatMap fun l => l.splitOn (char '\n')

theorem linesOf_cons {l : Text} (h : Feedless l) (ls : List Text) :
    linesOf (l :: ls) = l.toList :: linesOf ls := by
  rw [linesOf, List.map_cons, List.flatMap_cons, List.splitOn_eq_singleton h]
  rfl

theorem linesOf_append (ls ms : List Text) : linesOf (ls ++ ms) = linesOf ls ++ linesOf ms := by
  simp only [linesOf, List.map_append, List.flatMap_append]

theorem linesOf_of_feedless {ls : List Text} (h : ∀ l ∈ ls, Feedless l) :
    linesOf ls = ls.map Text.toList :=
  flatMap_splitOn_of_not_mem (List.forall_mem_map.mpr h)

theorem Python.feedless_typeName (type : PrefType) : Feedless (typeName type) := by
  cases type <;> decide

theorem Kotlin.feedless_typeName (type : PrefType) : Feedless (typeName type) := by
  cases type <;> decide

namespace Profile

theorem feedless_opening (p : Profile) {m : Method} (hname : Naming.IsWord m.name.toList) :
    Feedless (p.opening m) := by
  have hword := feedless_of_isWord hname
  cases p with
  | python typeHints =>
    have hmark : Feedless (if m.isAsync then "async " else "") := by split <;> decide
    have htype := Python.feedless_typeName m.field.type
    cases haccess : m.access <;> cases typeHints <;>
      simp only [opening, haccess, feedless_append, hmark, hword, htype, and_true] <;>
      decide
  | kotlin contextClass dispatcher =>
    have hmark : Feedless (if m.isAsync then "suspend " else "") := by split <;> decide
    have htype := Kotlin.feedless_typeName m.field.type
    cases haccess : m.access <;>
      simp only [opening, haccess, feedless_append, hmark, hword, htype, and_true] <;>
      decide

end Profile

namespace Python

theorem feedless_stringLiteral (s : Text) : Feedless (stringLiteral s) := by
  have hchar (c : CodePoint) : char '\n' ∉ Json.writeChar c := by
    rcases writeChar_cases c with ⟨e, he, hwrite⟩ | ⟨hcontrol, hwrite⟩ | ⟨⟨-, -, hfeed, -⟩, hwrite⟩
    · rw [hwrite]
      have hne : e ≠ '\n' := by
        rintro rfl
        cases he
      simpa using hne.symm
    · have hdigits : ∀ n : Fin 0x20, char '\n' ∉ Text.hexDigits 4 n := by decide +kernel
      rw [hwrite]
      simpa using hdigits ⟨c.toNat, hcontrol⟩
    · rw [hwrite]
      simpa using Ne.symm hfeed
  unfold Feedless
  rw [toList_stringLiteral]
  simp [hchar]

/-- A default that is no text is written as a number or a word. -/
theorem isNumeral_literal {v : PrefValue} (h : ∀ s, v ≠ .string s) :
    Number.IsNumeral (literal v).toList := by
  have hnone : Number.IsNumeral ("None" : Text).toList := Number.isNumeral_iff.mpr (by decide)
  cases v with
  | absent => exact hnone
  | bool b => cases b <;> exact Number.isNumeral_iff.mpr (by decide)
  | int n => exact Number.isNumeral_displayInt n
  | float x => exact Number.isNumeral_displayFloat x
  | string s => exact absurd rfl (h s)
  | set members => exact hnone

theorem feedless_literal (v : PrefValue) : Feedless (literal v) := by
  by_cases h : ∃ s, v = .string s
  · obtain ⟨s, rfl⟩ := h
    exact feedless_stringLiteral s
  · exact feedless_of_isNumeral (isNumeral_literal fun s hs => h ⟨s, hs⟩)

end Python

namespace Kotlin

theorem toList_stringLiteral (s : Text) :
    (stringLiteral s).toList = char '"' :: (s.toList.flatMap stringChar ++ [char '"']) := by
  rw [stringLiteral, Text.toList_ofList, stringLiteralChars, List.cons_append]

/-- A character is written behind a backslash or as it is. -/
theorem stringChar_cases (c : CodePoint) :
    (∃ e ∈ [char '\\', char '"', char '$', char 'n', char 'r', char 't'],
      stringChar c = [char '\\', e]) ∨
      ((c ≠ '"' ∧ c ≠ '\\' ∧ c ≠ '$' ∧ c ≠ '\n' ∧ c ≠ '\r') ∧ stringChar c = [c]) := by
  by_cases hescaped : c ∈ [char '\\', char '"', char '$', char '\n', char '\r', char '\t']
  · left
    simp only [List.mem_cons, List.not_mem_nil, or_false] at hescaped
    rcases hescaped with rfl | rfl | rfl | rfl | rfl | rfl <;> exact ⟨_, by decide, rfl⟩
  · right
    simp only [List.mem_cons, List.not_mem_nil, or_false, not_or] at hescaped
    obtain ⟨hbackslash, hquote, hdollar, hfeed, hreturn, htab⟩ := hescaped
    refine ⟨⟨hquote, hbackslash, hdollar, hfeed, hreturn⟩, ?_⟩
    simp [stringChar, hbackslash, hquote, hdollar, hfeed, hreturn, htab]

theorem feedless_stringLiteral (s : Text) : Feedless (stringLiteral s) := by
  have hchar (c : CodePoint) : char '\n' ∉ stringChar c := by
    rcases stringChar_cases c with ⟨e, he, hwrite⟩ | ⟨⟨-, -, -, hfeed, -⟩, hwrite⟩
    · have hne : e ≠ '\n' := by
        rintro rfl
        revert he
        decide
      rw [hwrite]
      simpa using hne.symm
    · rw [hwrite]
      simpa using Ne.symm hfeed
  unfold Feedless
  rw [toList_stringLiteral]
  simp [hchar]

/-- A default that is no text is written as a number or a name. -/
theorem isNumeral_literal (type : PrefType) {v : PrefValue} (h : ∀ s, v ≠ .string s) :
    Number.IsNumeral (literal type v).toList := by
  have hword (w : String) (hw : w ∈ ["null", "true", "false", "Long.MIN_VALUE", "L", "f"]) :
      Number.IsNumeral (w : Text).toList := by
    rw [Number.isNumeral_iff]
    revert w
    decide
  have happend {s t : Text} (hs : Number.IsNumeral s.toList) (ht : Number.IsNumeral t.toList) :
      Number.IsNumeral (s ++ t).toList := by
    rw [Text.toList_append]
    exact hs.append ht
  cases v with
  | absent => exact hword "null" (by decide)
  | bool b =>
    cases b with
    | false => exact hword "false" (by decide)
    | true => exact hword "true" (by decide)
  | int n =>
    have hn := Number.isNumeral_displayInt n
    simp only [literal]
    split
    · split
      · exact hword "Long.MIN_VALUE" (by decide)
      · exact happend hn (hword "L" (by decide))
    · exact hn
  | float x => exact happend (Number.isNumeral_displayFloat x) (hword "f" (by decide))
  | string s => exact absurd rfl (h s)
  | set members => exact hword "null" (by decide)

theorem feedless_literal (type : PrefType) (v : PrefValue) : Feedless (literal type v) := by
  by_cases h : ∃ s, v = .string s
  · obtain ⟨s, rfl⟩ := h
    exact feedless_stringLiteral s
  · exact feedless_of_isNumeral (isNumeral_literal type fun s hs => h ⟨s, hs⟩)

end Kotlin

/-- The names that stand in the text of a method consist of letters, digits and underscores. -/
def Method.HasWordNames (m : Method) : Prop :=
  Naming.IsWord m.name.toList ∧ ∀ twin, m.twin = some twin → Naming.IsWord twin.toList

theorem Generator.hasWordNames {g : Generator} {fs : List Field} {ms : List Method}
    (h : g.methods fs = .ok ms) {m : Method} (hm : m ∈ ms) : m.HasWordNames := by
  obtain ⟨-, -, hname, htwin⟩ := mem_methods h hm
  refine ⟨?_, ?_⟩
  · rw [hname]
    exact Naming.isWord_accessorName _ _ _ _
  · intro twin hsome
    have hasync : m.isAsync = true := by
      rw [Method.isAsync, hsome]
      rfl
    rw [(htwin hasync).2] at hsome
    cases hsome
    exact Naming.isWord_accessorName _ _ _ _

/-- A text on one line that the layout leaves as it is. -/
structure IsFullLine (s : Text) : Prop where
  feedless : Feedless s
  full : IsFull s.toList

theorem full_append {t : Text} (h : IsFull t.toList) (s : Text) : IsFull (s ++ t).toList := by
  rw [Text.toList_append]
  exact h.append_left s.toList

theorem IsFullLine.append_left {t : Text} (h : IsFullLine t) {s : Text} (hs : Feedless s) :
    IsFullLine (s ++ t) :=
  ⟨feedless_append.mpr ⟨hs, h.feedless⟩, full_append h.full s⟩

theorem Python.isFullLine_body {m : Method} (h : m.HasWordNames) :
    ∀ l ∈ body m, IsFullLine l := by
  have hkey := feedless_stringLiteral m.field.key
  have hdefault := feedless_literal m.default
  have hoperation : Feedless m.field.type.operation := by cases m.field.type <;> decide
  have hread : IsFullLine (Statement.returnRead m.field.type m.field.key m.default).text := by
    unfold Statement.text
    refine ⟨?_, full_append (by decide) _⟩
    simp only [feedless_append, hoperation, hkey, hdefault]
    decide
  have hwrite : IsFullLine (Statement.write m.field.type m.field.key).text := by
    unfold Statement.text
    refine ⟨?_, full_append (by decide) _⟩
    simp only [feedless_append, hoperation, hkey]
    decide
  have hloop : IsFullLine Statement.takeLoop.text := by
    unfold Statement.text
    exact ⟨by decide, by decide⟩
  have hawaited {twin : Text} (ht : Feedless twin) :
      IsFullLine (Statement.returnAwaited twin).text := by
    unfold Statement.text
    refine ⟨?_, full_append (by decide) _⟩
    simp only [feedless_append, ht]
    decide
  have hawait {twin : Text} (ht : Feedless twin) : IsFullLine (Statement.await twin).text := by
    unfold Statement.text
    refine ⟨?_, full_append (by decide) _⟩
    simp only [feedless_append, ht]
    decide
  intro l hl
  obtain ⟨st, hst, rfl⟩ := List.mem_map.mp hl
  cases haccess : m.access <;> cases htwin : m.twin <;>
    simp only [statements, haccess, htwin, List.mem_cons, List.not_mem_nil, or_false] at hst
  · exact hst ▸ hread
  · rename_i twin
    rcases hst with rfl | rfl
    · exact hloop
    · exact hawaited (feedless_of_isWord (h.2 twin htwin))
  · exact hst ▸ hwrite
  · rename_i twin
    rcases hst with rfl | rfl
    · exact hloop
    · exact hawait (feedless_of_isWord (h.2 twin htwin))

theorem Kotlin.isFullLine_body (m : Method) : ∀ l ∈ body m, IsFullLine l := by
  have hkey := feedless_stringLiteral m.field.key
  have hdefault := feedless_literal m.field.type m.default
  have hget : Feedless (call "get" m.field.type) := by cases m.field.type <;> decide +kernel
  have hput : Feedless (call "put" m.field.type) := by cases m.field.type <;> decide +kernel
  have hread : IsFullLine (readText m) := by
    unfold readText
    refine ⟨?_, full_append (by decide) _⟩
    simp only [feedless_append, hget, hkey, hdefault]
    decide
  have hwrite : IsFullLine (writeText m) := by
    unfold writeText
    refine ⟨?_, full_append (by decide) _⟩
    simp only [feedless_append, hput, hkey]
    decide
  have hdispatched {s : Text} (hs : IsFullLine s) : IsFullLine (dispatched s) := by
    unfold dispatched
    refine ⟨?_, full_append (by decide) _⟩
    simp only [feedless_append, hs.feedless]
    decide
  intro l hl
  cases haccess : m.access <;> cases hasync : m.isAsync <;>
    simp only [body, haccess, hasync, List.mem_singleton] at hl <;> subst hl
  · exact hread.append_left (by decide)
  · exact (hdispatched hread).append_left (by decide)
  · exact hwrite
  · exact hdispatched hwrite

namespace Profile

theorem isFullLine_body (p : Profile) {m : Method} (h : m.HasWordNames) :
    ∀ l ∈ p.target.body m, IsFullLine l := by
  cases p with
  | python typeHints => exact Python.isFullLine_body h
  | kotlin contextClass dispatcher => exact Kotlin.isFullLine_body m

theorem isFullLine_closing (p : Profile) : ∀ l ∈ p.closing, IsFullLine l := by
  cases p with
  | python typeHints => simp [closing]
  | kotlin contextClass dispatcher =>
    intro l hl
    rw [List.mem_singleton.mp hl]
    exact ⟨by decide, by decide⟩

theorem isFullLine_opening (p : Profile) {m : Method} (h : m.HasWordNames) :
    IsFullLine (p.opening m) := by
  refine ⟨p.feedless_opening h.1, ?_⟩
  cases p with
  | python typeHints =>
    cases haccess : m.access <;> cases typeHints <;> simp only [opening, haccess] <;>
      refine full_append ?_ _
    · decide
    · exact full_append (by decide) _
    · decide
    · exact full_append (by decide) _
  | kotlin contextClass dispatcher =>
    cases haccess : m.access <;> simp only [opening, haccess] <;>
      exact full_append (full_append (by decide) _) _

/-- The lines of a method stay under the layout, but for the empty one in front. -/
theorem isFullLine_block (p : Profile) {indent : Text} (hindent : Feedless indent) {m : Method}
    (h : m.HasWordNames) : ∀ l ∈ p.block indent m, IsFullLine l := by
  intro l hl
  simp only [block, List.cons_append, List.mem_cons, List.mem_append, List.mem_map] at hl
  rcases hl with rfl | ⟨k, hk, rfl⟩ | ⟨k, hk, rfl⟩
  · exact (p.isFullLine_opening h).append_left hindent
  · exact (p.isFullLine_body h k hk).append_left (feedless_append.mpr ⟨hindent, hindent⟩)
  · exact (p.isFullLine_closing k hk).append_left hindent

end Profile

/-- An indent consists of blanks. -/
theorem Settings.eq_of_mem_indent {s : Settings} {room : Nat} {indent : Text}
    (h : s.indent room = .ok indent) : ∀ c ∈ indent.toList, c = ' ' := by
  have hblanks {n : Int} (hn : blanks room n = .ok indent) : ∀ c ∈ indent.toList, c = ' ' := by
    unfold blanks at hn
    split at hn
    · cases hn
    · split at hn
      · cases hn
      · cases hn
        intro c hc
        rw [Text.toList_ofList] at hc
        exact List.eq_of_mem_replicate hc
  unfold Settings.indent at h
  split at h
  · exact hblanks h
  · exact hblanks h
  · cases h

theorem Settings.feedless_indent {s : Settings} {room : Nat} {indent : Text}
    (h : s.indent room = .ok indent) : Feedless indent := by
  intro hfeed
  exact absurd (Settings.eq_of_mem_indent h '\n' hfeed) (by decide)

theorem Python.sourceLines_ends (o : Options) (c : AccessorClass) :
    ∃ head last, head.getLast? = some last ∧ IsFull last.toList ∧
      sourceLines o c = head ++ c.methods.flatMap (methodLines o) ++ ([""] : List Text) :=
  ⟨_, _, by rw [List.getLast?_append]; rfl,
    full_append (t := "self._executor = executor") (by decide) _, rfl⟩

theorem Kotlin.sourceLines_ends (o : Options) (segments : List Text) (c : AccessorClass) :
    ∃ head last, head.getLast? = some last ∧ IsFull last.toList ∧
      sourceLines o segments c =
        head ++ c.methods.flatMap (methodLines o) ++ (["\x7d", ""] : List Text) :=
  ⟨_, _, by rw [List.getLast?_append]; rfl, full_append (t := ".MODE_PRIVATE)") (by decide) _, rfl⟩

/-- Before its layout is settled the text of a class ends with its methods, behind a line that
stays. -/
theorem Generator.sourceLines_ends {g : Generator} {indent package : Text} {c : AccessorClass}
    {lines : List Text} (h : g.sourceLines indent package c = .ok lines) :
    ∃ head last, head.getLast? = some last ∧ IsFull last.toList ∧
      lines = head ++ (c.methods.flatMap (g.profile.methodText indent) ++ g.profile.closing) ++
        ([""] : List Text) := by
  obtain ⟨settings, profile, hasTemplate, room⟩ := g
  cases profile with
  | python typeHints =>
    cases h
    obtain ⟨head, last, hlast, hfull, hlines⟩ :=
      Python.sourceLines_ends ⟨typeHints, settings.addComments.isSet, indent⟩ c
    rw [funext (Python.methodLines_eq _)] at hlines
    refine ⟨head, last, hlast, hfull, hlines.trans ?_⟩
    rw [Profile.closing, List.append_nil]
  | kotlin context dispatcher =>
    cases context with
    | string name =>
      cases h
      obtain ⟨head, last, hlast, hfull, hlines⟩ := Kotlin.sourceLines_ends
        ⟨name, settings.addComments.isSet, indent⟩ (packageSegments package) c
      rw [funext (Kotlin.methodLines_eq _ (.string name) dispatcher)] at hlines
      refine ⟨head, last, hlast, hfull, hlines.trans ?_⟩
      simp [Profile.closing]
    | _ => cases h

namespace Generator

/-- Methods that follow a line that stays are untouched by the layout. -/
theorem isSettled_methods {p : Profile} {indent : Text} {ms : List Method}
    (h : ∀ m ∈ ms, ∀ l ∈ p.block indent m, IsFullLine l) :
    IsSettled 0 ((ms.flatMap (p.methodText indent) ++ p.closing).map Text.toList) ∧
      emptyAfter 0 ((ms.flatMap (p.methodText indent) ++ p.closing).map Text.toList) = 0 := by
  have hlines : (ms.flatMap (p.methodText indent)).map Text.toList =
      ms.flatMap fun m => [] :: (p.block indent m).map Text.toList := by
    rw [List.map_flatMap]
    rfl
  have hclosing : ∀ l ∈ p.closing.map Text.toList, IsFull l :=
    List.forall_mem_map.mpr fun l hl => (p.isFullLine_closing l hl).full
  have hfull : ∀ m ∈ ms, ∀ l ∈ (p.block indent m).map Text.toList, IsFull l :=
    fun m hm => List.forall_mem_map.mpr fun l hl => (h m hm l hl).full
  have hne : ∀ m ∈ ms, (p.block indent m).map Text.toList ≠ [] :=
    fun m _ => by simp [Profile.block]
  obtain ⟨hsettled, hempty⟩ := isSettled_groups hfull hne
  rw [List.map_append, hlines]
  refine ⟨hsettled.append ?_, ?_⟩
  · rw [hempty]
    exact isSettled_of_full hclosing 0
  · rw [emptyAfter_append, hempty]
    exact emptyAfter_of_full hclosing

theorem feedless_methods {p : Profile} {indent : Text} {ms : List Method}
    (h : ∀ m ∈ ms, ∀ l ∈ p.block indent m, IsFullLine l) :
    ∀ l ∈ ms.flatMap (p.methodText indent) ++ p.closing, Feedless l := by
  intro l hl
  rcases List.mem_append.mp hl with hl | hl
  · obtain ⟨m, hm, hl⟩ := List.mem_flatMap.mp hl
    rcases List.mem_cons.mp hl with rfl | hl
    · decide
    · exact (h m hm l hl).feedless
  · exact (p.isFullLine_closing l hl).feedless

theorem toList_sourceOf (lines : List Text) :
    (sourceOf lines).toList = layoutChars ([char '\n'].intercalate (lines.map Text.toList)) := by
  rw [sourceOf, layout, Text.toList_ofList, Text.toList_intercalate]
  rfl

theorem sourceOf_eq_ofLines {lines : List Text} {kept : List (List CodePoint)}
    (h : layoutLines (linesOf lines) = kept) (hkept : kept ≠ []) :
    (sourceOf lines).toList = ofLines kept := by
  rw [toList_sourceOf]
  exact layoutChars_eq_ofLines h hkept

/-- Lines at the end of a text that the layout does not touch are its last lines, if a line that stays
precedes them. -/
theorem lines_sourceOf_ends {head ls : List Text} {last : Text}
    (hlast : head.getLast? = some last) (hfull : IsFull last.toList)
    (hfeed : ∀ l ∈ ls, Feedless l) (hsettled : IsSettled 0 (ls.map Text.toList))
    (hempty : emptyAfter 0 (ls.map Text.toList) = 0) :
    ∃ before,
      ((sourceOf (head ++ ls ++ ([""] : List Text))).toList.splitOn (char '\n')).map Text.ofList =
      before ++ ls ++ ([""] : List Text) := by
  have hlast' : (head.map Text.toList).getLast? = some last.toList := by
    rw [List.getLast?_map, hlast]
    rfl
  obtain ⟨kept, hkept⟩ := layoutChars_ends hlast' hfull (List.forall_mem_map.mpr hfeed) hsettled
    hempty
  have hchars : (sourceOf (head ++ ls ++ ([""] : List Text))).toList = layoutChars
      ([char '\n'].intercalate (head.map Text.toList ++ ls.map Text.toList ++ [[]])) := by
    rw [toList_sourceOf, List.map_append, List.map_append]
    rfl
  have hstrings (ls : List Text) : (ls.map Text.toList).map Text.ofList = ls := by
    rw [List.map_map]
    exact List.map_id'' Text.ofList_toList ls
  refine ⟨kept.map Text.ofList, ?_⟩
  rw [hchars, hkept, List.map_append, List.map_append, hstrings]
  rfl

/-- The text of a class ends with its methods, if no name or indent in it can end a line. -/
theorem sourceOf_ends {g : Generator} {indent package : Text} {c : AccessorClass}
    {lines : List Text} (h : g.sourceLines indent package c = .ok lines)
    (hindent : Feedless indent) (hwords : ∀ m ∈ c.methods, m.HasWordNames) :
    ∃ before, ((sourceOf lines).toList.splitOn (char '\n')).map Text.ofList = before ++
      (c.methods.flatMap (g.profile.methodText indent) ++ g.profile.closing) ++ ([""] : List Text) := by
  obtain ⟨head, last, hlast, hfull, rfl⟩ := sourceLines_ends h
  have hblock : ∀ m ∈ c.methods, ∀ l ∈ g.profile.block indent m, IsFullLine l :=
    fun m hm => g.profile.isFullLine_block hindent (hwords m hm)
  obtain ⟨hsettled, hempty⟩ := isSettled_methods hblock
  exact lines_sourceOf_ends hlast hfull (feedless_methods hblock) hsettled hempty

/-- Split at line feeds, the text of an artifact ends with the methods of its class in their order,
each with an empty line in front, as an opening line and the lines of its body. -/
theorem generate_ends_with_methods {g : Generator} {s : Schema} {a : Artifact}
    (h : g.generate s = .ok a) :
    ∃ indent before, g.indent = .ok indent ∧
      (a.source.toList.splitOn (char '\n')).map Text.ofList = before ++
        (a.accessorClass.methods.flatMap (g.profile.methodText indent) ++ g.profile.closing) ++
          ([""] : List Text) := by
  obtain ⟨hc, -⟩ := generate_eq_ok h
  obtain ⟨-, hms, -⟩ := accessorClass_eq_ok.mp hc
  obtain ⟨indent, package, lines, hindent, -, hlines, hsource, -⟩ := generate_text h
  have hwords : ∀ m ∈ a.accessorClass.methods, m.HasWordNames := fun m hm => hasWordNames hms hm
  obtain ⟨before, hends⟩ := sourceOf_ends hlines (Settings.feedless_indent hindent) hwords
  rw [hsource]
  exact ⟨indent, before, hindent, hends⟩

/-- A schema whose only key and default hold line feeds, and blanks at their ends. -/
def noticeSchema : Schema where
  name := "Notice"
  package := ""
  storeName := "Notice"
  fields := [⟨"text", "a\n ", .string, some "\n\n\n ", true⟩]
  description := none

def noticeMethods : List Text := [
  "",
  "    def getText(self) -> str | None:",
  "        return self._store.get_string(\"a\\n \", \"\\n\\n\\n \")",
  "",
  "    def setText(self, value: str | None) -> None:",
  "        self._store.edit().put_string(\"a\\n \", value).apply()",
  "",
  "    async def getTextAsync(self) -> str | None:",
  "        loop = asyncio.get_running_loop()",
  "        return await loop.run_in_executor(self._executor, self.getText)",
  "",
  "    async def setTextAsync(self, value: str | None) -> None:",
  "        loop = asyncio.get_running_loop()",
  "        await loop.run_in_executor(self._executor, self.setText, value)"]

theorem notice_ends_with_methods :
    ∃ a before, standard.generate noticeSchema = .ok a ∧
      (a.source.toList.splitOn (char '\n')).map Text.ofList =
        before ++ noticeMethods ++ ([""] : List Text) := by
  have hlines : (standard.methods noticeSchema.fields).map (fun ms =>
      ms.flatMap (standard.profile.methodText "    ")) = .ok noticeMethods := by
    decide +kernel
  have hindent : standard.indent = .ok "    " := by decide
  have hmethods : ∃ ms, standard.methods noticeSchema.fields = .ok ms := by
    cases hms : standard.methods noticeSchema.fields with
    | ok ms => exact ⟨ms, rfl⟩
    | error e =>
      rw [hms] at hlines
      cases hlines
  obtain ⟨ms, hms⟩ := hmethods
  obtain ⟨a, ha⟩ := standard_wellTyped.exists_artifact rfl hindent hms
  obtain ⟨indent, before, hindent', hends⟩ := generate_ends_with_methods ha
  obtain rfl : indent = "    " := Except.ok.inj (hindent'.symm.trans hindent)
  obtain ⟨hc, -⟩ := generate_eq_ok ha
  obtain ⟨-, hms', -⟩ := accessorClass_eq_ok.mp hc
  obtain rfl : ms = a.accessorClass.methods := Except.ok.inj (hms.symm.trans hms')
  have hnotice : a.accessorClass.methods.flatMap (standard.profile.methodText "    ") =
      noticeMethods := by
    rw [hms] at hlines
    exact Except.ok.inj hlines
  have hclosing : standard.profile.closing = [] := rfl
  refine ⟨a, before, ha, ?_⟩
  rw [hends, hnotice, hclosing, List.append_nil]

end Generator

end PrefAccessor
