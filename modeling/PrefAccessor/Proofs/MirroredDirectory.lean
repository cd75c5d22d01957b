import Mathlib.Data.List.Induction
import PrefAccessor.Proofs.DirectoryTree

/-!
# Directories that mirror texts in memory

The segments of a package have no dots, and the name of a file has one. So below a directory that
nothing else is written to, no file is in the way of a directory and no directory in the way of a
file. This is the invariant `IsTidy`; while it holds, a text is saved whenever its path is one that
the system takes, and the directory holds the texts that a sink in memory would hold.
-/

namespace PrefAccessor

set_option autoImplicit false

namespace Path

/-- Names of entries as a directory lists them, none of which leads upwards. -/
def IsPlain (parts : List Text) : Prop :=
  ∀ c ∈ parts, c.fileName? = some c ∧ c ≠ "" ∧ c ≠ ".." ∧ char '/' ∉ c.toList

instance (parts : List Text) : Decidable (IsPlain parts) :=
  inferInstanceAs
    (Decidable (∀ c ∈ parts, c.fileName? = some c ∧ c ≠ "" ∧ c ≠ ".." ∧ char '/' ∉ c.toList))

/-- A path that leads from a directory to something below it. -/
structure IsDownward (p : Path) : Prop where
  relative : p.root = ""
  parts : p.parts ≠ []
  plain : IsPlain p.parts

/-- The path that goes on from `root` by the components. -/
def descend (root : Path) (parts : List Text) : Path :=
  ⟨root.root, root.parts ++ parts⟩

variable {cs ds : List Text} {c : Text}

theorem IsDownward.eq {p : Path} (h : p.IsDownward) : Path.mk "" p.parts = p := by
  rw [← h.relative]

theorem IsDownward.join {p : Path} (h : p.IsDownward) (root : Path) :
    root.join p = root.descend p.parts := by
  rw [Path.join, isAbsolute, h.relative]
  rfl

theorem parent_descend (root : Path) (cs : List Text) (c : Text) :
    (root.descend (cs ++ [c])).parent = root.descend cs := by
  rw [parent, descend, ← List.append_assoc, List.dropLast_concat, descend]

theorem IsPlain.init (h : IsPlain (cs ++ [c])) : IsPlain cs :=
  fun d hd => h d (List.mem_append_left _ hd)

theorem IsPlain.last (h : IsPlain (cs ++ [c])) : c ≠ ".." :=
  (h c (List.mem_append_right _ (List.mem_singleton_self c))).2.2.1

theorem IsPlain.fileName_last (h : IsPlain (cs ++ [c])) : c.fileName = c := by
  rw [Text.fileName, (h c (List.mem_append_right _ (List.mem_singleton_self c))).1, Option.getD_some]

theorem IsPlain.map_fileName (h : IsPlain cs) : cs.map Text.fileName = cs := by
  have hid : ∀ c ∈ cs, c.fileName = id c := fun c hc => by
    rw [Text.fileName, (h c hc).1, Option.getD_some, id]
  rw [List.map_congr_left hid, List.map_id]

theorem IsPlain.splitOn_toString (h : IsPlain cs) (hne : cs ≠ []) :
    (Path.toString ⟨"", cs⟩).toList.splitOn (char '/') = cs.map Text.toList := by
  have hnot : ¬(cs = [] ∧ ("" : Text) = "") := fun hempty => hne hempty.1
  rw [Path.toString, if_neg hnot, Text.empty_append, Text.toList_intercalate]
  refine List.splitOn_intercalate (char '/') ?_ (by simpa using hne)
  intro chars hchars
  obtain ⟨c, hc, rfl⟩ := List.mem_map.mp hchars
  exact (h c hc).2.2.2

/-- No two files below a directory have the same path as a text. -/
theorem IsPlain.toString_inj (hcs : IsPlain cs) (hds : IsPlain ds) (hcne : cs ≠ []) (hdne : ds ≠ [])
    (h : Path.toString ⟨"", cs⟩ = Path.toString ⟨"", ds⟩) : cs = ds := by
  have hmap : cs.map Text.toList = ds.map Text.toList := by
    rw [← hcs.splitOn_toString hcne, ← hds.splitOn_toString hdne, h]
  exact List.map_injective_iff.mpr (fun _ _ => Text.toList_inj.mp) hmap

end Path

namespace FileTree

open PrefAccessor.Path

/-- The name of a directory for a segment of a package. -/
structure IsSegment (c : Text) : Prop where
  listed : c.fileName? = some c
  ne_empty : c ≠ ""
  no_slash : char '/' ∉ c.toList
  no_dot : char '.' ∉ c.toList
  short : c.nameSize ≤ maxNameBytes

def AreSegments (cs : List Text) : Prop :=
  ∀ c ∈ cs, IsSegment c

/-- The name of a file, which has an extension. -/
structure IsFileName (c : Text) : Prop where
  listed : c.fileName? = some c
  ne_empty : c ≠ ""
  ne_up : c ≠ ".."
  no_slash : char '/' ∉ c.toList
  dot : char '.' ∈ c.toList
  short : c.nameSize ≤ maxNameBytes

variable {t t' made : FileTree} {root : Path} {base : Place} {cs : List Text} {c f : Text}
  {files : Entries Text Text} {text : Text} {depth : Nat}

namespace AreSegments

theorem init (h : AreSegments (cs ++ [c])) : AreSegments cs :=
  fun d hd => h d (List.mem_append_left _ hd)

theorem last (h : AreSegments (cs ++ [c])) : IsSegment c :=
  h c (List.mem_append_right _ (List.mem_singleton_self c))

theorem isPlain (h : AreSegments cs) : IsPlain cs := by
  intro s hs
  refine ⟨(h s hs).listed, (h s hs).ne_empty, ?_, (h s hs).no_slash⟩
  rintro rfl
  exact (h ".." hs).no_dot (by decide)

end AreSegments

theorem isPlain_of_file (hcs : AreSegments cs) (hf : IsFileName f) : IsPlain (cs ++ [f]) := by
  intro s hs
  rcases List.mem_append.mp hs with hs | hs
  · exact hcs.isPlain s hs
  · rw [List.mem_singleton.mp hs]
    exact ⟨hf.listed, hf.ne_empty, hf.ne_up, hf.no_slash⟩

theorem isTooLong_init (h : isTooLong (root.descend (cs ++ [c])) = false) :
    isTooLong (root.descend cs) = false := by
  rw [descend, ← List.append_assoc] at h
  exact isTooLong_of_append h

theorem isBase_append (h : IsPlain cs) (hne : cs ≠ []) : isBase (base ++ cs) = false := by
  obtain ⟨c, rest, rfl⟩ := List.exists_cons_of_ne_nil hne
  obtain ⟨-, -, hup, hslash⟩ := h c List.mem_cons_self
  have hmem : c ∈ base ++ c :: rest := List.mem_append_right _ List.mem_cons_self
  have hroot : base ++ c :: rest ≠ [.plain "/"] := by
    intro heq
    rw [heq, List.mem_singleton] at hmem
    rw [hmem] at hslash
    exact hslash (by decide)
  have hups : ¬ (base ++ c :: rest).all (· == "..") = true := by
    rw [List.all_eq_true]
    intro hall
    exact hup (by simpa using hall c hmem)
  simp only [isBase, Bool.or_eq_false_iff, beq_eq_false_iff_ne]
  exact ⟨hroot, Bool.eq_false_iff.mpr hups⟩

/-- Below the directory that `root` leads to, everything lies in directories, the names of
directories have no dots and all other names have one. -/
structure IsTidy (t : FileTree) (root : Path) (base : Place) : Prop where
  leads : walk t (start root) root.parts = .ok base
  isDirectory : entry? t base = some .directory
  entries : ∀ cs c e, IsPlain (cs ++ [c]) → entry? t (base ++ (cs ++ [c])) = some e →
    entry? t (base ++ cs) = some .directory ∧ c.nameSize ≤ maxNameBytes ∧
      (e = .directory ↔ char '.' ∉ c.toList)

namespace IsTidy

/-- One more entry, whose name tells directories from files as all others do. -/
theorem put (h : IsTidy t root base) {e : FileEntry} (hplain : IsPlain (cs ++ [c]))
    (hparent : entry? t (base ++ cs) = some .directory) (hshort : c.nameSize ≤ maxNameBytes)
    (hdot : e = .directory ↔ char '.' ∉ c.toList) :
    IsTidy (Entries.put t (base ++ (cs ++ [c])) e) root base := by
  have hbase : isBase (base ++ (cs ++ [c])) = false := isBase_append hplain (by simp)
  have hgrows : Grows t (Entries.put t (base ++ (cs ++ [c])) e) :=
    grows_put hbase fun hthere => hdot.mpr ((h.entries cs c _ hplain hthere).2.2.mp rfl)
  refine ⟨walk_mono hgrows h.leads, hgrows.directory _ h.isDirectory, ?_⟩
  intro ds d e' hds he'
  by_cases heq : base ++ (ds ++ [d]) = base ++ (cs ++ [c])
  · rw [heq, entry?_put_self hbase] at he'
    cases he'
    obtain ⟨rfl, hd⟩ := List.append_inj' (List.append_cancel_left heq) rfl
    cases hd
    exact ⟨hgrows.directory _ hparent, hshort, hdot⟩
  · rw [entry?_put_of_ne heq] at he'
    obtain ⟨habove, hname⟩ := h.entries ds d e' hds he'
    exact ⟨hgrows.directory _ habove, hname⟩

theorem walk_of_present (h : IsTidy t root base) (hplain : IsPlain cs)
    (hpresent : entry? t (base ++ cs) ≠ none) :
    FileTree.walk t (start root) (root.parts ++ cs) = .ok (base ++ cs) := by
  induction cs using List.reverseRecOn with
  | nil =>
    rw [List.append_nil, List.append_nil]
    exact h.leads
  | append_singleton cs c ih =>
    obtain ⟨e, he⟩ := Option.ne_none_iff_exists'.mp hpresent
    obtain ⟨hparent, hshort, -⟩ := h.entries cs c e hplain he
    have hinit := ih hplain.init (by rw [hparent]; exact Option.some_ne_none _)
    rw [← List.append_assoc, walk_append, hinit]
    change FileTree.walk t (base ++ cs) [c] = _
    rw [walk_singleton hparent hplain.last hshort, hplain.fileName_last, List.append_assoc,
      if_neg hpresent]

theorem directory_of_segments (h : IsTidy t root base) (hcs : AreSegments cs)
    (hpresent : entry? t (base ++ cs) ≠ none) : entry? t (base ++ cs) = some .directory := by
  rcases List.eq_nil_or_concat cs with rfl | ⟨init, c, rfl⟩
  · rw [List.append_nil]
    exact h.isDirectory
  · rw [List.concat_eq_append] at hcs hpresent ⊢
    obtain ⟨e, he⟩ := Option.ne_none_iff_exists'.mp hpresent
    rw [he, (h.entries init c e hcs.isPlain he).2.2.mpr hcs.last.no_dot]

/-- No file is in the way of a directory: where it cannot be found, then for want of an entry. -/
theorem isMissing (h : IsTidy t root base) (hcs : AreSegments cs)
    (hnone : entry? t (base ++ cs) = none) : IsMissing t (start root) (root.parts ++ cs) := by
  induction cs using List.reverseRecOn with
  | nil =>
    rw [List.append_nil, h.isDirectory] at hnone
    cases hnone
  | append_singleton cs c ih =>
    rw [← List.append_assoc]
    by_cases hparent : entry? t (base ++ cs) = none
    · exact (ih hcs.init hparent).append [c]
    · refine IsMissing.of_walk (h.walk_of_present hcs.init.isPlain hparent) (Or.inl ?_)
      rw [walk_singleton (h.directory_of_segments hcs.init hparent) hcs.isPlain.last
        hcs.last.short, hcs.isPlain.fileName_last, List.append_assoc, if_pos hnone]

theorem lookUp_directory (h : IsTidy t root base) (hcs : AreSegments cs)
    (hfits : isTooLong (root.descend cs) = false) (hpresent : entry? t (base ++ cs) ≠ none) :
    lookUp t (root.descend cs) = .ok .directory :=
  lookUp_eq_ok.mpr ⟨hfits, base ++ cs, h.walk_of_present hcs.isPlain hpresent,
    h.directory_of_segments hcs hpresent⟩

theorem target (h : IsTidy t root base) (hplain : IsPlain (cs ++ [c]))
    (hparent : entry? t (base ++ cs) = some .directory) (hshort : c.nameSize ≤ maxNameBytes)
    (hfits : isTooLong (root.descend (cs ++ [c])) = false) :
    FileTree.target t (root.descend (cs ++ [c])) =
      .ok (base ++ (cs ++ [c]), entry? t (base ++ (cs ++ [c]))) := by
  have hparts : (root.descend (cs ++ [c])).parts = root.parts ++ cs ++ [c] :=
    (List.append_assoc ..).symm
  have hwalk := h.walk_of_present hplain.init (by rw [hparent]; exact Option.some_ne_none _)
  rw [target_of_walk hparts hfits hwalk hparent hplain.last hshort, hplain.fileName_last,
    List.append_assoc]

end IsTidy

/-- The directory that `root` leads to is tidy and has the texts as its files, all of them under
paths that the system takes and that lead downwards. -/
structure Mirrors (t : FileTree) (root : Path) (base : Place) (files : Entries Text Text) :
    Prop extends IsTidy t root base where
  holdsTexts : ∀ cs content, cs ≠ [] → IsPlain cs →
    ((∃ text, Entries.find? files (Path.toString ⟨"", cs⟩) = some text ∧ text.utf8? = some content) ↔
      entry? t (base ++ cs) = some (.file content))
  fits : ∀ cs text, cs ≠ [] → IsPlain cs → Entries.find? files (Path.toString ⟨"", cs⟩) = some text →
    isTooLong (root.descend cs) = false
  keys : ∀ key text, Entries.find? files key = some text →
    text.isEncodable = true ∧ ∃ p : Path, p.IsDownward ∧ p.toString = key

namespace Mirrors

theorem putDirectory (h : Mirrors t root base files) (hcs : AreSegments (cs ++ [c]))
    (hparent : entry? t (base ++ cs) = some .directory)
    (hnone : entry? t (base ++ (cs ++ [c])) = none) :
    Mirrors (Entries.put t (base ++ (cs ++ [c])) .directory) root base files := by
  have hplain := hcs.isPlain
  have hdot : FileEntry.directory = .directory ↔ char '.' ∉ c.toList := by simp [hcs.last.no_dot]
  refine ⟨h.put hplain hparent hcs.last.short hdot, ?_, h.fits, h.keys⟩
  intro ds content hne hds
  by_cases heq : base ++ ds = base ++ (cs ++ [c])
  · rw [h.holdsTexts ds content hne hds, heq, hnone,
      entry?_put_self (isBase_append hplain (by simp))]
    simp
  · rw [entry?_put_of_ne heq]
    exact h.holdsTexts ds content hne hds

theorem putFile (h : Mirrors t root base files) (hplain : IsPlain (cs ++ [f])) (hf : IsFileName f)
    (hparent : entry? t (base ++ cs) = some .directory)
    (hfits : isTooLong (root.descend (cs ++ [f])) = false) {bytes : ByteArray}
    (hbytes : text.utf8? = some bytes) :
    Mirrors (Entries.put t (base ++ (cs ++ [f])) (.file bytes)) root base
      (Entries.put files (Path.toString ⟨"", cs ++ [f]⟩) text) := by
  have hne : cs ++ [f] ≠ [] := by simp
  have hkey {ds : List Text} (hdne : ds ≠ []) (hds : IsPlain ds) (hother : ds ≠ cs ++ [f]) :
      Path.toString ⟨"", ds⟩ ≠ Path.toString ⟨"", cs ++ [f]⟩ :=
    fun heq => hother (hds.toString_inj hplain hdne hne heq)
  have hdot : FileEntry.file bytes = .directory ↔ char '.' ∉ f.toList := by simp [hf.dot]
  refine ⟨h.put hplain hparent hf.short hdot, ?_, ?_, ?_⟩
  · intro ds content hdne hds
    by_cases hsame : ds = cs ++ [f]
    · rw [hsame, entry?_put_self (isBase_append hplain hne), Entries.find?_put_self]
      simp [hbytes]
    · rw [entry?_put_of_ne (fun heq => hsame (List.append_cancel_left heq)),
        Entries.find?_put_of_ne _ _ (hkey hdne hds hsame)]
      exact h.holdsTexts ds content hdne hds
  · intro ds found hdne hds hfound
    by_cases hsame : ds = cs ++ [f]
    · rwa [hsame]
    · rw [Entries.find?_put_of_ne _ _ (hkey hdne hds hsame)] at hfound
      exact h.fits ds found hdne hds hfound
  · intro key found hfound
    by_cases hsame : key = Path.toString ⟨"", cs ++ [f]⟩
    · rw [hsame, Entries.find?_put_self, Option.some.injEq] at hfound
      rw [← hfound, Text.isEncodable, hbytes]
      exact ⟨rfl, ⟨"", cs ++ [f]⟩, ⟨rfl, hne, hplain⟩, hsame.symm⟩
    · rw [Entries.find?_put_of_ne _ _ hsame] at hfound
      exact h.keys key found hfound

theorem ensureDirectory (h : Mirrors t root base files) (hcs : AreSegments (cs ++ [c]))
    (hfits : isTooLong (root.descend (cs ++ [c])) = false)
    (hparent : entry? t (base ++ cs) = some .directory) :
    ∃ t', FileTree.ensureDirectory t (root.descend (cs ++ [c])) = (t', none) ∧
      Mirrors t' root base files ∧ entry? t' (base ++ (cs ++ [c])) = some .directory := by
  have hplain := hcs.isPlain
  by_cases hnone : entry? t (base ++ (cs ++ [c])) = none
  · refine ⟨_, ?_, h.putDirectory hcs hparent hnone,
      entry?_put_self (isBase_append hplain (by simp))⟩
    rw [FileTree.ensureDirectory, makeDirectory,
      h.toIsTidy.target hplain hparent hcs.last.short hfits, hnone]
  · exact ⟨t, ensureDirectory_of_directory (h.lookUp_directory hcs hfits hnone), h,
      h.directory_of_segments hcs hnone⟩

/-- By induction on the segments: the directory of all but the last one is there or can be made, and
the last one then finds it. -/
theorem ensureDirectories (h : Mirrors t root base files) (hcs : AreSegments cs)
    (hfits : isTooLong (root.descend cs) = false) (hdepth : cs.length ≤ depth) :
    ∃ t', FileTree.ensureDirectories t (root.descend cs) depth = (t', none) ∧
      Mirrors t' root base files ∧ entry? t' (base ++ cs) = some .directory := by
  induction cs using List.reverseRecOn generalizing depth with
  | nil =>
    have hpresent : entry? t (base ++ []) = some .directory := by
      rw [List.append_nil]
      exact h.isDirectory
    have hlook := h.lookUp_directory hcs hfits (by rw [hpresent]; exact Option.some_ne_none _)
    exact ⟨t, ensureDirectories_of_directory hlook depth, h, hpresent⟩
  | append_singleton cs c ih =>
    cases depth with
    | zero => simp at hdepth
    | succ depth =>
      -- What the segments before the last one lead to is no file, as they have no dots.
      by_cases hnone : entry? t (base ++ cs) = none
      · obtain ⟨t₁, hmade, h₁, hparent⟩ := ih hcs.init (isTooLong_init hfits) (by simpa using hdepth)
        have hmissing : makeDirectory t (root.descend (cs ++ [c])) = .error .notFound :=
          makeDirectory_of_missing (List.append_assoc ..).symm hfits (h.isMissing hcs.init hnone)
        rw [ensureDirectories_of_missing hmissing (by rwa [parent_descend])]
        exact h₁.ensureDirectory hcs hfits hparent
      · have hparent := h.directory_of_segments hcs.init hnone
        have hfound : makeDirectory t (root.descend (cs ++ [c])) ≠ .error .notFound := by
          rw [makeDirectory, h.toIsTidy.target hcs.isPlain hparent hcs.last.short hfits]
          cases entry? t (base ++ (cs ++ [c])) <;> simp
        rw [ensureDirectories_of_parent hfound]
        exact h.ensureDirectory hcs hfits hparent

end Mirrors

/-- The files below `root` are the texts, each under the path that is its key. -/
structure HasFiles (t : FileTree) (root : Path) (files : Entries Text Text) : Prop where
  keys : ∀ key text, Entries.find? files key = some text →
    text.isEncodable = true ∧ ∃ p : Path, p.IsDownward ∧ p.toString = key
  texts : ∀ p : Path, p.IsDownward → ∀ content,
    t.lookUp (root.join p) = .ok (.file content) ↔
      ∃ text, Entries.find? files p.toString = some text ∧ text.utf8? = some content

/-- The directory that `root` leads to has the texts as its files; where there are none, it may still
be missing, if it can be made. -/
def Holds (t : FileTree) (root : Path) (files : Entries Text Text) : Prop :=
  (∃ base, Mirrors t root base files) ∨
    files = [] ∧ t.lookUp root = .error .notFound ∧
      ∃ made base, FileTree.ensureDirectories t root root.parts.length = (made, none) ∧
        Mirrors made root base []

/-- The path leads to a directory with nothing in it. -/
def IsEmptyDirectory (t : FileTree) (root : Path) : Prop :=
  ∃ base, walk t (start root) root.parts = .ok base ∧ entry? t base = some .directory ∧
    ∀ cs, cs ≠ [] → IsPlain cs → entry? t (base ++ cs) = none

/-- The path leads to a directory with nothing in it, or to nothing; then it can be made such a
directory, with those above it that are missing. -/
def IsVacant (t : FileTree) (root : Path) : Prop :=
  pathFault? root = none ∧
    (t.IsEmptyDirectory root ∨
      t.lookUp root = .error .notFound ∧
        ∃ made, FileTree.ensureDirectories t root root.parts.length = (made, none) ∧
          made.IsEmptyDirectory root)

theorem IsEmptyDirectory.mirrors (h : t.IsEmptyDirectory root) : ∃ base, Mirrors t root base [] := by
  obtain ⟨base, hleads, hdirectory, hnone⟩ := h
  refine ⟨base, ⟨hleads, hdirectory, ?_⟩, ?_, ?_, ?_⟩
  · intro cs c e hplain he
    rw [hnone (cs ++ [c]) (by simp) hplain] at he
    cases he
  · intro cs content hne hplain
    simp [hnone cs hne hplain, Entries.find?]
  · intro cs text _ _ hfound
    cases hfound
  · intro key text hfound
    cases hfound

theorem IsVacant.holds (h : t.IsVacant root) : Holds t root [] := by
  rcases h.2 with hempty | ⟨habsent, made, hmade, hempty⟩
  · exact Or.inl hempty.mirrors
  · obtain ⟨base, hbase⟩ := hempty.mirrors
    exact Or.inr ⟨rfl, habsent, made, base, hmade, hbase⟩

namespace Holds

theorem ensureDirectories (h : Holds t root files) (hcs : AreSegments cs)
    (hfits : isTooLong (root.descend cs) = false) (hdepth : root.parts.length + cs.length ≤ depth) :
    ∃ t' base, FileTree.ensureDirectories t (root.descend cs) depth = (t', none) ∧
      Mirrors t' root base files ∧ entry? t' (base ++ cs) = some .directory := by
  rcases h with ⟨base, h⟩ | ⟨rfl, habsent, made, base, hmade, h⟩
  · obtain ⟨t', ht'⟩ := h.ensureDirectories hcs hfits (Nat.le_trans (Nat.le_add_left _ _) hdepth)
    exact ⟨t', base, ht'⟩
  · have hmissing := (lookUp_eq_notFound.mp habsent).2
    -- Everything below is missing too, so that making it begins with the directory itself.
    suffices hsteps : ∃ t', FileTree.ensureDirectories t (root.descend cs) depth = (t', none) ∧
        Mirrors t' root base [] ∧ entry? t' (base ++ cs) = some .directory by
      obtain ⟨t', ht'⟩ := hsteps
      exact ⟨t', base, ht'⟩
    induction cs using List.reverseRecOn generalizing depth with
    | nil =>
      refine ⟨made, ?_, h, by rw [List.append_nil]; exact h.isDirectory⟩
      rw [descend, List.append_nil, ensureDirectories_of_le hdepth, hmade]
    | append_singleton cs c ih =>
      cases depth with
      | zero => simp at hdepth
      | succ depth =>
        have hinitDepth : root.parts.length + cs.length ≤ depth := by
          rw [List.length_append, List.length_singleton] at hdepth
          omega
        obtain ⟨t₁, hmade₁, h₁, hparent⟩ :=
          ih hcs.init (isTooLong_init hfits) hinitDepth
        have hnone : makeDirectory t (root.descend (cs ++ [c])) = .error .notFound :=
          makeDirectory_of_missing (List.append_assoc ..).symm hfits (hmissing.append cs)
        rw [ensureDirectories_of_missing hnone (by rwa [parent_descend])]
        exact h₁.ensureDirectory hcs hfits hparent

/-- The directories above a file can be made and the file be opened, whatever has been saved before. -/
theorem save_eq (h : Holds t root files) (hcs : AreSegments cs) (hf : IsFileName f)
    (hfault : pathFault? (root.descend (cs ++ [f])) = none)
    (hfits : isTooLong (root.descend (cs ++ [f])) = false) (text : Text) :
    ∃ t₁ base, Mirrors t₁ root base files ∧ entry? t₁ (base ++ cs) = some .directory ∧
      t.save (root.descend (cs ++ [f])) text =
        (Entries.put t₁ (base ++ (cs ++ [f])) (.file (text.utf8?.getD .empty)),
          if text.isEncodable then none else some (.fault .unencodable)) := by
  have hplain := isPlain_of_file hcs hf
  have hinit : pathFault? (root.descend cs) = none := by
    rw [descend, ← List.append_assoc] at hfault
    exact pathFault?_of_append hfault
  have hdepth : root.parts.length + cs.length ≤ (root.descend (cs ++ [f])).parts.length := by
    simp only [descend, List.length_append]
    omega
  obtain ⟨t₁, base, hmade, h₁, hparent⟩ := h.ensureDirectories hcs (isTooLong_init hfits) hdepth
  have hwrite (content : ByteArray) : writeFile t₁ (root.descend (cs ++ [f])) content =
      (Entries.put t₁ (base ++ (cs ++ [f])) (.file content), none) := by
    rw [writeFile, h₁.toIsTidy.target hplain hparent hf.short hfits]
    cases hentry : entry? t₁ (base ++ (cs ++ [f])) with
    | none => rfl
    | some e =>
      cases e with
      | directory => exact absurd hf.dot ((h₁.entries cs f _ hplain hentry).2.2.mp rfl)
      | file content => rfl
  refine ⟨t₁, base, h₁, hparent, ?_⟩
  simp only [FileTree.save, parent_descend, hinit, hfault, hmade, hwrite]

/-- A text with an encoded form is saved whatever has been saved before. -/
theorem save (h : Holds t root files) (hcs : AreSegments cs) (hf : IsFileName f)
    (hfault : pathFault? (root.descend (cs ++ [f])) = none)
    (hfits : isTooLong (root.descend (cs ++ [f])) = false) (htext : text.isEncodable = true) :
    ∃ t', t.save (root.descend (cs ++ [f])) text = (t', none) ∧
      Holds t' root (Entries.put files (Path.toString ⟨"", cs ++ [f]⟩) text) := by
  obtain ⟨t₁, base, h₁, hparent, hsave⟩ := h.save_eq hcs hf hfault hfits text
  obtain ⟨bytes, hbytes⟩ := Option.isSome_iff_exists.mp htext
  rw [hbytes, Option.getD_some, htext, if_pos rfl] at hsave
  exact ⟨_, hsave, Or.inl ⟨base, h₁.putFile (isPlain_of_file hcs hf) hf hparent hfits hbytes⟩⟩

theorem hasFiles (h : Holds t root files) : HasFiles t root files := by
  rcases h with ⟨base, h⟩ | ⟨rfl, habsent, -⟩
  · refine ⟨h.keys, fun p hp content => ?_⟩
    rw [hp.join, ← hp.eq, h.holdsTexts p.parts content hp.parts hp.plain]
    constructor
    · intro hlook
      obtain ⟨-, place, hwalk, hentry⟩ := lookUp_eq_ok.mp hlook
      obtain ⟨base', hbase, hrest⟩ := walk_append_eq_ok hwalk
      obtain rfl : base' = base := Except.ok.inj (hbase.symm.trans h.leads)
      have hdown : (".." : Text) ∉ p.parts := fun hup => (hp.plain ".." hup).2.2.1 rfl
      rwa [walk_eq_ok hdown hrest, hp.plain.map_fileName] at hentry
    · intro hentry
      obtain ⟨text, htext, -⟩ := (h.holdsTexts p.parts content hp.parts hp.plain).mpr hentry
      have hpresent : entry? t (base ++ p.parts) ≠ none := by
        rw [hentry]
        exact Option.some_ne_none _
      exact lookUp_eq_ok.mpr ⟨h.fits p.parts text hp.parts hp.plain htext, base ++ p.parts,
        h.walk_of_present hp.plain hpresent, hentry⟩
  · refine ⟨?_, fun p hp content => ?_⟩
    · intro key text hfound
      cases hfound
    · rw [hp.join]
      constructor
      · intro hlook
        obtain ⟨-, place, hwalk, hentry⟩ := lookUp_eq_ok.mp hlook
        rcases (lookUp_eq_notFound.mp habsent).2.append p.parts with
          hbroken | ⟨found, hfound, hnone⟩
        · cases hbroken.symm.trans hwalk
        · obtain rfl : found = place := Except.ok.inj (hfound.symm.trans hwalk)
          rw [hnone] at hentry
          cases hentry
      · rintro ⟨text, htext, -⟩
        cases htext

end Holds

end FileTree

end PrefAccessor
