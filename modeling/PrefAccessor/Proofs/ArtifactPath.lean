import PrefAccessor.Proofs.Generation
import PrefAccessor.Proofs.LetterCase
import PrefAccessor.Proofs.NameCharacters
import PrefAccessor.Proofs.SettledLines
import PrefAccessor.Schema.Document
import PrefAccessor.Sink

/-!
# Where artifacts go

A package is cut at its dots alone, and each part is then read as a path of its own. No part holds a
step upwards, but one that begins with a slash is absolute and discards what stands before it. So the
path of an artifact stays below the directory it is taken from if and only if no part of the package
begins with a slash.
-/

namespace PrefAccessor

set_option autoImplicit false

open Text

namespace Naming

theorem mem_separateHumps {cs : List CodePoint} {d : CodePoint} (hd : d ≠ '_')
    (h : d ∈ separateHumps cs) : d ∈ cs := by
  fun_induction separateHumps cs with
  | case1 a b cs hhump ih =>
    simp only [List.mem_cons] at h ih ⊢
    rcases h with h | h | h
    · exact Or.inl h
    · exact absurd h hd
    · exact Or.inr (ih h)
  | case2 a b cs hhump ih =>
    simp only [List.mem_cons] at h ih ⊢
    exact h.imp_right ih
  | case3 cs hcs => exact h

theorem squeezeUnderscores_sublist (cs : List CodePoint) : (squeezeUnderscores cs).Sublist cs := by
  fun_induction squeezeUnderscores cs with
  | case1 cs ih => exact ih.trans (List.sublist_cons_self _ _)
  | case2 c cs hc ih => exact ih.cons_cons c
  | case3 => exact List.Sublist.refl _

/-- Snake case brings in underscores and small letters only. -/
theorem mem_snakeChars_of_lt {cs : List CodePoint} {d : CodePoint} (hd : d.toNat < (char '_').toNat)
    (h : d ∈ snakeChars cs) : d ∈ cs := by
  have hunderscore : d ≠ '_' := fun heq => absurd hd (heq ▸ Nat.lt_irrefl _)
  have hsmall : d.toNat < 0x61 := Nat.lt_trans hd (by decide)
  unfold snakeChars at h
  have hlower := (squeezeUnderscores_sublist _).subset ((trimWhile_sublist _ _).subset h)
  have hmap := mem_separateHumps hunderscore (mem_lowerAfter_of_lt hsmall hlower)
  obtain ⟨c, hc, heq⟩ := List.mem_map.mp hmap
  split at heq
  · exact absurd heq.symm hunderscore
  · rwa [← heq]

end Naming

namespace Path

/-- `p` goes on from `root` by components none of which leads upwards. -/
def IsBelow (root p : Path) : Prop :=
  ∃ parts, parts ≠ [] ∧ (".." : Text) ∉ parts ∧ p = ⟨root.root, root.parts ++ parts⟩

theorem isAbsolute_ofString {s : Text} :
    (ofString s).isAbsolute = true ↔ s.toList.head? = some (char '/') := by
  rw [List.head?_eq_some_iff]
  unfold ofString isAbsolute rootOf
  split <;> simp_all

/-- The text of an absolute path that has been read begins with a slash. -/
theorem head?_toString_of_absolute {p : Path} {s : Text} (hroot : p.root = (ofString s).root)
    (habs : (ofString s).isAbsolute = true) : p.toString.toList.head? = some (char '/') := by
  have hslash : ∃ rest, p.root.toList = char '/' :: rest := by
    rw [hroot]
    unfold isAbsolute at habs
    unfold ofString rootOf at habs ⊢
    split <;> simp_all
  obtain ⟨rest, hrest⟩ := hslash
  have hne : ¬(p.parts = [] ∧ p.root = "") := by
    rintro ⟨-, hempty⟩
    rw [hempty] at hrest
    cases hrest
  rw [Path.toString, if_neg hne, Text.toList_append, hrest]
  rfl

theorem mem_components {cs : List CodePoint} {c : Text} (h : c ∈ components cs) :
    c ≠ "" ∧ char '/' ∉ c.toList ∧ c.toList ⊆ cs := by
  rw [components, List.mem_filter] at h
  obtain ⟨hmem, hne⟩ := h
  obtain ⟨part, hpart, rfl⟩ := List.mem_map.mp hmem
  refine ⟨?_, ?_, ?_⟩
  · rintro heq
    rw [heq] at hne
    exact absurd hne (by decide)
  · rw [Text.toList_ofList]
    exact not_mem_of_mem_splitOn hpart
  · rw [Text.toList_ofList]
    exact subset_of_mem_splitOn hpart

/-- Pieces that are all relative are put behind each other. -/
theorem foldl_join_of_relative {paths : List Path} (h : ∀ p ∈ paths, p.root = "") (start : Path) :
    paths.foldl join start = ⟨start.root, start.parts ++ paths.flatMap Path.parts⟩ := by
  induction paths generalizing start with
  | nil => simp
  | cons p paths ih =>
    have hp : p.isAbsolute = false := by simp [isAbsolute, h p List.mem_cons_self]
    rw [List.foldl_cons, ih fun q hq => h q (List.mem_cons_of_mem p hq), join, hp,
      List.flatMap_cons]
    simp

theorem root_join (p q : Path) : (p.join q).root = if q.isAbsolute then q.root else p.root := by
  unfold join
  split <;> rfl

/-- Where one of the joined pieces is absolute, they have the root of such a piece. -/
theorem root_foldl_join {paths : List Path} (start : Path)
    (h : ∃ p ∈ start :: paths, p.isAbsolute = true) :
    ∃ p ∈ start :: paths, p.isAbsolute = true ∧ (paths.foldl join start).root = p.root := by
  induction paths generalizing start with
  | nil =>
    obtain ⟨p, hp, habs⟩ := h
    exact ⟨p, hp, habs, by rw [List.mem_singleton.mp hp]; rfl⟩
  | cons q paths ih =>
    have hroot := root_join start q
    have hjoined : ∃ p ∈ start.join q :: paths, p.isAbsolute = true := by
      obtain ⟨p, hp, habs⟩ := h
      rcases List.mem_cons.mp hp with rfl | hp
      · refine ⟨p.join q, List.mem_cons_self, ?_⟩
        rw [isAbsolute, hroot]
        split <;> assumption
      · rcases List.mem_cons.mp hp with rfl | hp
        · refine ⟨start.join p, List.mem_cons_self, ?_⟩
          rw [isAbsolute, hroot, if_pos habs]
          exact habs
        · exact ⟨p, List.mem_cons_of_mem _ hp, habs⟩
    obtain ⟨p, hp, habs, heq⟩ := ih _ hjoined
    rw [List.foldl_cons, heq]
    rcases List.mem_cons.mp hp with rfl | hp
    · by_cases hq : q.isAbsolute = true
      · exact ⟨q, by simp, hq, by rw [hroot, if_pos hq]⟩
      · rw [if_neg hq] at hroot
        refine ⟨start, by simp, ?_, hroot⟩
        rwa [isAbsolute, hroot] at habs
    · exact ⟨p, List.mem_cons_of_mem _ (List.mem_cons_of_mem q hp), habs, rfl⟩

theorem mem_parts_foldl_join {paths : List Path} {start : Path} {c : Text}
    (h : c ∈ (paths.foldl join start).parts) : c ∈ start.parts ∨ ∃ p ∈ paths, c ∈ p.parts := by
  induction paths generalizing start with
  | nil => exact Or.inl h
  | cons p paths ih =>
    rw [List.foldl_cons] at h
    rcases ih h with h | ⟨q, hq, h⟩
    · unfold join at h
      split at h
      · exact Or.inr ⟨p, List.mem_cons_self, h⟩
      · exact (List.mem_append.mp h).imp_right fun h => ⟨p, List.mem_cons_self, h⟩
    · exact Or.inr ⟨q, List.mem_cons_of_mem p hq, h⟩

end Path

namespace FileTree

/-- A walk has the places on its way as its stages. -/
theorem walk_append (t : FileTree) (place : Place) (cs ds : List Text) :
    walk t place (cs ++ ds) = walk t place cs >>= fun base => walk t base ds := by
  induction cs generalizing place with
  | nil => rfl
  | cons c cs ih =>
    rw [List.cons_append, walk, walk]
    split
    · rfl
    · rfl
    · split
      · exact ih _
      · split
        · rfl
        · split
          · rfl
          · exact ih _

theorem walk_append_eq_ok {t : FileTree} {place found : Place} {cs ds : List Text}
    (h : walk t place (cs ++ ds) = .ok found) :
    ∃ base, walk t place cs = .ok base ∧ walk t base ds = .ok found := by
  rw [walk_append] at h
  cases hbase : walk t place cs with
  | error k =>
    rw [hbase] at h
    cases h
  | ok base =>
    rw [hbase] at h
    exact ⟨base, rfl, h⟩

/-- Without steps upwards a walk leads to the components behind its start. -/
theorem walk_eq_ok {t : FileTree} {place found : Place} {cs : List Text} (hcs : (".." : Text) ∉ cs)
    (h : walk t place cs = .ok found) : found = place ++ cs.map Text.fileName := by
  induction cs generalizing place with
  | nil =>
    cases h
    rw [List.map_nil, List.append_nil]
  | cons c cs ih =>
    rw [List.mem_cons, not_or] at hcs
    rw [walk] at h
    split at h
    · cases h
    · cases h
    · rw [if_neg (Ne.symm hcs.1)] at h
      split at h
      · cases h
      · split at h
        · cases h
        · rw [ih hcs.2 h, List.append_assoc, List.singleton_append, List.map_cons]

end FileTree

/-- Where a text goes that is written successfully: to the place of its path in the tree with all
directories made. -/
theorem FileTree.save_eq_ok {t t' : FileTree} {p : Path} {text : Text}
    (h : t.save p text = (t', none)) :
    ∃ made place entry content, text.utf8? = some content ∧ target made p = .ok (place, entry) ∧
      t' = Entries.put made place (.file content) := by
  unfold save at h
  split at h
  · cases h
  · split at h
    · cases h
    · rename_i made _
      split at h
      · cases h
      · split at h
        · cases h
        · rename_i tree hwrite
          obtain ⟨rfl, hencodable⟩ : tree = t' ∧ text.isEncodable = true := by
            simpa using h
          obtain ⟨content, hcontent⟩ := Option.isSome_iff_exists.mp hencodable
          rw [hcontent, Option.getD_some] at hwrite
          unfold writeFile at hwrite
          split at hwrite
          · cases hwrite
          · cases hwrite
          · rename_i place entry _ htarget
            cases hwrite
            exact ⟨made, place, entry, content, hcontent, htarget, rfl⟩

/-- A path that leads below every directory it is taken from, and under which a sink for files
writes below its own one. -/
structure Path.StaysBelow (p : Path) : Prop where
  relative : p.toString.toList.head? ≠ some (char '/')
  downwards : (".." : Text) ∉ p.parts
  below : ∀ root : Path, root.IsBelow (root.join p)
  written : ∀ root tree text sink location,
    (Sink.directory root tree).write p text = (sink, .done location) →
      ∃ made base content, text.utf8? = some content ∧
        FileTree.walk made (FileTree.start root) root.parts = .ok base ∧
        sink = .directory root
          (Entries.put made (base ++ p.parts.map Text.fileName) (.file content))

namespace Path

theorem head?_toString {p : Path} (hroot : p.root = "") {c : Text} {cs : List Text}
    (hparts : p.parts = c :: cs) (hc : c ≠ "") : p.toString.toList.head? = c.toList.head? := by
  have hne : ¬(p.parts = [] ∧ p.root = "") := by simp [hparts]
  have hchars : c.toList ≠ [] := fun h => hc (Text.toList_eq_nil_iff.mp h)
  rw [Path.toString, if_neg hne, hroot, hparts, Text.toList_append, Text.toList_intercalate]
  cases cs with
  | nil => simp
  | cons d cs =>
    rw [List.map_cons, List.map_cons, List.intercalate_cons_cons, List.append_assoc]
    exact List.head?_append_of_ne_nil _ hchars

theorem target_join {p : Path} (hroot : p.root = "") (hparts : p.parts ≠ [])
    (hdown : (".." : Text) ∉ p.parts) {root : Path} {t : FileTree} {place : Place}
    {entry : Option FileEntry}
    (h : t.target (root.join p) = .ok (place, entry)) :
    ∃ base, t.walk (FileTree.start root) root.parts = .ok base ∧
      place = base ++ p.parts.map Text.fileName := by
  have hjoin : root.join p = ⟨root.root, root.parts ++ p.parts⟩ := by
    simp [join, isAbsolute, hroot]
  obtain ⟨init, last, hlast⟩ := (List.eq_nil_or_concat p.parts).resolve_left hparts
  rw [List.concat_eq_append] at hlast
  rw [hlast, List.mem_append, not_or, List.mem_singleton] at hdown
  have hstart : FileTree.start (root.join p) = FileTree.start root := by
    rw [hjoin]
    rfl
  have hparts' : (root.join p).parts = root.parts ++ init ++ [last] := by
    rw [hjoin, hlast, ← List.append_assoc]
  unfold FileTree.target at h
  rw [hstart, hparts', List.dropLast_concat, List.getLast?_concat] at h
  split at h
  · cases h
  · split at h
    · cases h
    · rename_i found hfound
      obtain ⟨base, hbase, hinit⟩ := FileTree.walk_append_eq_ok hfound
      obtain rfl := FileTree.walk_eq_ok hdown.1 hinit
      refine ⟨base, hbase, ?_⟩
      split at h
      · cases h
      · cases h
      · simp only [if_neg (Ne.symm hdown.2)] at h
        split at h
        · cases h
        · cases h
          rw [hlast, List.map_append, List.append_assoc]
          rfl

theorem staysBelow_of_relative {p : Path} (hroot : p.root = "") (hparts : p.parts ≠ [])
    (hdown : (".." : Text) ∉ p.parts) (hslash : ∀ c ∈ p.parts, c ≠ "" ∧ char '/' ∉ c.toList) :
    p.StaysBelow := by
  refine ⟨?_, hdown, fun root => ⟨p.parts, hparts, hdown, ?_⟩, ?_⟩
  · obtain ⟨c, cs, hcs⟩ := List.exists_cons_of_ne_nil hparts
    obtain ⟨hne, hno⟩ := hslash c (hcs ▸ List.mem_cons_self)
    rw [head?_toString hroot hcs hne]
    exact fun hhead => hno (List.mem_of_head? hhead)
  · simp [join, isAbsolute, hroot]
  · intro root tree text sink location h
    simp only [Sink.write] at h
    split at h
    · rename_i saved hsave
      cases h
      obtain ⟨made, place, entry, content, hcontent, htarget, rfl⟩ := FileTree.save_eq_ok hsave
      obtain ⟨base, hbase, rfl⟩ := target_join hroot hparts hdown htarget
      exact ⟨made, base, content, hcontent, hbase, rfl⟩
    · cases h
    · cases h

end Path

theorem Path.ofString_of_no_slash {s : Text} (hslash : char '/' ∉ s.toList) (hne : s ≠ "")
    (hdot : s ≠ ".") : ofString s = ⟨"", [s]⟩ := by
  have hroot : rootOf s.toList = "" := by
    unfold rootOf
    split <;> simp_all
  rw [ofString, hroot, components, List.splitOn_eq_singleton hslash, List.map_singleton,
    Text.ofList_toList, List.filter_cons_of_pos (by simp [hne, hdot]), List.filter_nil]

theorem mem_packageSegments {package segment : Text} (h : segment ∈ packageSegments package) :
    segment ≠ "" ∧ char '.' ∉ segment.toList := by
  rw [packageSegments, List.mem_filter] at h
  obtain ⟨hmem, hne⟩ := h
  obtain ⟨part, hpart, rfl⟩ := List.mem_map.mp hmem
  refine ⟨by simpa using hne, ?_⟩
  rw [Text.toList_ofList]
  exact not_mem_of_mem_splitOn hpart

theorem subset_of_mem_packageSegments {package segment : Text}
    (h : segment ∈ packageSegments package) : segment.toList ⊆ package.toList := by
  rw [packageSegments, List.mem_filter] at h
  obtain ⟨part, hpart, rfl⟩ := List.mem_map.mp h.1
  rw [Text.toList_ofList]
  exact subset_of_mem_splitOn hpart

/-- A file name adds letters, underscores and a dot to the name of its class. -/
theorem Target.mem_fileName (target : Target) {name : Text} {d : CodePoint}
    (hd : d.toNat < (char '_').toNat) (hdot : d ≠ '.') (h : d ∈ (target.fileName name).toList) :
    d ∈ name.toList := by
  have hletter : ∀ c ∈ [char '_', char 'p', char 'y', char 'k', char 't'], d ≠ c := by
    have hall : ([char '_', char 'p', char 'y', char 'k', char 't'].all fun c =>
        decide ((char '_').toNat ≤ c.toNat)) = true := by
      decide
    intro c hc heq
    have hle : (char '_').toNat ≤ c.toNat := of_decide_eq_true (List.all_eq_true.mp hall c hc)
    exact absurd (heq ▸ hd) (Nat.not_lt.mpr hle)
  cases target with
  | python =>
    have hsnake : d ∈ (Naming.snakeCase name).toList := by
      simp only [fileName, Python.fileName, ReservedNames.moduleName, ReservedNames.escape] at h
      split at h <;> simpa [hletter, hdot] using h
    rw [Naming.snakeCase, Text.toList_ofList] at hsnake
    exact Naming.mem_snakeChars_of_lt hd hsnake
  | kotlin => simpa [fileName, Kotlin.fileName, hletter, hdot] using h

theorem Target.fileName_no_slash (target : Target) {name : Text} (h : char '/' ∉ name.toList) :
    char '/' ∉ (target.fileName name).toList :=
  fun hmem => h (target.mem_fileName (by decide) (by decide) hmem)

/-- A file name ends in a letter, so it is a component of its own. -/
theorem Target.fileName_ne (target : Target) (name : Text) {dots : Text}
    (h : dots ∈ (["", ".", ".."] : List Text)) : target.fileName name ≠ dots := by
  have hlast : ∀ dots ∈ (["", ".", ".."] : List Text), dots.toList.getLast? ≠ some (char 'y') ∧
      dots.toList.getLast? ≠ some (char 't') := by decide
  rintro rfl
  obtain ⟨hy, ht⟩ := hlast _ h
  cases target with
  | python =>
    apply hy
    simp [fileName, Python.fileName]
  | kotlin =>
    apply ht
    simp [fileName, Kotlin.fileName]

theorem Target.dot_mem_fileName (target : Target) (name : Text) :
    char '.' ∈ (target.fileName name).toList := by
  cases target <;> simp [fileName, Python.fileName, Kotlin.fileName]

theorem Naming.isIdentifierChar_of_mem_className {suffix : Text}
    (h : isIdentifier suffix.toList = true) {aggregate : Text} {c : CodePoint}
    (hc : c ∈ (className aggregate suffix).toList) : isIdentifierChar c = true := by
  rw [className, Text.toList_append] at hc
  rcases List.mem_append.mp hc with hc | hc
  · exact isIdentifierChar_of_isWordChar (isWord_pascalCase_clean aggregate c hc)
  · exact isIdentifierChar_of_mem h hc

namespace Generator

theorem isIdentifierChar_of_mem_className {g : Generator} {suffix : Text}
    (hsuffix : g.settings.classSuffix = .string suffix)
    (hidentifier : isIdentifier suffix.toList = true) {s : Schema} {c : CodePoint}
    (hc : c ∈ (g.className s).toList) : isIdentifierChar c = true := by
  rw [className, Settings.suffix, hsuffix, Json.display_string] at hc
  exact Naming.isIdentifierChar_of_mem_className hidentifier hc

/-- Where the artifact of a schema goes under the settings. -/
def artifactPath (g : Generator) (s : Schema) : Except Fault Path :=
  (g.settings.packageOr s.package).map fun package => pathOf g.target package (g.className s)

theorem generate_artifactPath {g : Generator} {s : Schema} {a : Artifact}
    (h : g.generate s = .ok a) : g.artifactPath s = .ok a.path := by
  obtain ⟨hc, -⟩ := generate_eq_ok h
  obtain ⟨-, -, -, hname⟩ := accessorClass_eq_ok.mp hc
  obtain ⟨-, package, -, -, hpackage, -, -, hpath, -⟩ := generate_text h
  rw [artifactPath, hpackage, hpath, hname]
  rfl

/-- Without slashes in the package, each of its segments is one component of the path. -/
theorem pathOf_eq {target : Target} {package name : Text}
    (hpackage : char '/' ∉ package.toList) (hname : char '/' ∉ name.toList) :
    pathOf target package name = ⟨"", packageSegments package ++ [target.fileName name]⟩ := by
  have hpieces : ∀ piece ∈ packageSegments package ++ [target.fileName name],
      Path.ofString piece = ⟨"", [piece]⟩ := by
    intro piece hpiece
    rcases List.mem_append.mp hpiece with hpiece | hpiece
    · obtain ⟨hne, hdot⟩ := mem_packageSegments hpiece
      refine Path.ofString_of_no_slash
        (fun hslash => hpackage (subset_of_mem_packageSegments hpiece hslash)) hne ?_
      rintro rfl
      exact hdot (by decide)
    · rw [List.mem_singleton.mp hpiece]
      exact Path.ofString_of_no_slash (target.fileName_no_slash hname)
        (target.fileName_ne name (by simp)) (target.fileName_ne name (by simp))
  have hroots : ∀ p ∈ (packageSegments package ++ [target.fileName name]).map Path.ofString,
      p.root = "" := by
    intro p hp
    obtain ⟨piece, hpiece, rfl⟩ := List.mem_map.mp hp
    rw [hpieces piece hpiece]
  have hparts : (packageSegments package ++ [target.fileName name]).flatMap
      (fun piece => (Path.ofString piece).parts) =
        packageSegments package ++ [target.fileName name] := by
    rw [List.flatMap_congr fun piece hpiece => by rw [hpieces piece hpiece]]
    exact List.flatMap_singleton' _
  rw [pathOf, Path.ofPieces, Path.foldl_join_of_relative hroots, List.flatMap_map, hparts]
  rfl

theorem generate_path {g : Generator} {s : Schema} {a : Artifact}
    (h : g.generate s = .ok a) : a.path = pathOf g.target a.package (g.className s) := by
  simp only [generate, Attempt.bind_eq_ok, Attempt.ofFaults_eq_ok, Attempt.mapRefusal_eq_ok,
    Except.ok.injEq] at h
  obtain ⟨c, hc, indent, -, -, -, package, -, lines, -, rfl⟩ := h
  rw [← (accessorClass_eq_ok.mp hc).2.2.2]

/-- The pieces that the path of an artifact is joined from: the segments of its package and the file
name, the latter being one component. -/
theorem pieces_parts {target : Target} {package name : Text} (h : char '/' ∉ name.toList)
    {piece : Text} (hpiece : piece ∈ packageSegments package ++ [target.fileName name])
    {c : Text} (hc : c ∈ (Path.ofString piece).parts) : c ≠ "" ∧ c ≠ ".." ∧ char '/' ∉ c.toList := by
  obtain ⟨hne, hslash, hsubset⟩ := Path.mem_components hc
  refine ⟨hne, ?_, hslash⟩
  rintro rfl
  rcases List.mem_append.mp hpiece with hpiece | hpiece
  · exact (mem_packageSegments hpiece).2 (hsubset (by decide))
  · rw [List.mem_singleton.mp hpiece, Path.ofString_of_no_slash (target.fileName_no_slash h)
      (target.fileName_ne name (by simp)) (target.fileName_ne name (by simp))] at hc
    exact target.fileName_ne name (by simp) (List.mem_singleton.mp hc).symm

/-- The path of an artifact never leads upwards. It stays below every directory if and only if no
part of the package begins with a slash. -/
theorem artifactPath_staysBelow_iff {g : Generator} {s : Schema} {suffix package : Text}
    (hsuffix : g.settings.classSuffix = .string suffix)
    (hidentifier : isIdentifier suffix.toList = true)
    (hpackage : g.settings.packageOr s.package = .ok package) :
    ∃ p, g.artifactPath s = .ok p ∧ (".." : Text) ∉ p.parts ∧
      (p.StaysBelow ↔ ∀ segment ∈ packageSegments package, segment.toList.head? ≠ some (char '/')) := by
  have hname : char '/' ∉ (g.className s).toList := fun hmem =>
    absurd (isIdentifierChar_of_mem_className hsuffix hidentifier hmem) (by decide)
  have hparts {c : Text} (hc : c ∈ (pathOf g.target package (g.className s)).parts) :
      c ≠ "" ∧ c ≠ ".." ∧ char '/' ∉ c.toList := by
    rcases Path.mem_parts_foldl_join hc with hc | ⟨p, hp, hc⟩
    · cases hc
    · obtain ⟨piece, hpiece, rfl⟩ := List.mem_map.mp hp
      exact pieces_parts hname hpiece hc
  have hdown : (".." : Text) ∉ (pathOf g.target package (g.className s)).parts :=
    fun hmem => (hparts hmem).2.1 rfl
  refine ⟨pathOf g.target package (g.className s), by rw [artifactPath, hpackage]; rfl, hdown, ?_⟩
  constructor
  · intro hbelow segment hsegment hslash
    have habsolute : (Path.ofString segment).isAbsolute = true := Path.isAbsolute_ofString.mpr hslash
    obtain ⟨p, hp, habs, hroot⟩ := Path.root_foldl_join ⟨"", []⟩
      ⟨_, List.mem_cons_of_mem _ (List.mem_map_of_mem (List.mem_append_left _ hsegment)), habsolute⟩
    rcases List.mem_cons.mp hp with rfl | hp
    · cases habs
    · obtain ⟨piece, -, rfl⟩ := List.mem_map.mp hp
      exact hbelow.relative (Path.head?_toString_of_absolute hroot habs)
  · intro hrelative
    have hfile := Path.ofString_of_no_slash (g.target.fileName_no_slash hname)
      (g.target.fileName_ne _ (by simp)) (g.target.fileName_ne _ (by simp))
    have hroots : ∀ p ∈ (packageSegments package ++
        [g.target.fileName (g.className s)]).map Path.ofString, p.root = "" := by
      intro p hp
      obtain ⟨piece, hpiece, rfl⟩ := List.mem_map.mp hp
      rcases List.mem_append.mp hpiece with hpiece | hpiece
      · have hnot := mt Path.isAbsolute_ofString.mp (hrelative piece hpiece)
        simpa [Path.isAbsolute] using hnot
      · rw [List.mem_singleton.mp hpiece, hfile]
    have hjoined := Path.foldl_join_of_relative hroots ⟨"", []⟩
    refine Path.staysBelow_of_relative ?_ ?_ hdown fun c hc => ⟨(hparts hc).1, (hparts hc).2.2⟩
    · rw [pathOf, Path.ofPieces, hjoined]
    · rw [pathOf, Path.ofPieces, hjoined, List.map_append, List.map_singleton, hfile]
      simp

/-- A document whose package begins with a slash. -/
def etcDocument : Json :=
  .object [("name", .string "Theme"), ("package", .string "/etc"),
    ("fields", .array [.object [("key", .string "theme")]])]

def etcSchema : Schema where
  name := "Theme"
  package := "/etc"
  storeName := "Theme"
  fields := [⟨"theme", "theme", .string, none, false⟩]
  description := none

/-- A package that is an absolute path leads out of every directory. -/
theorem etc_document_leads_away :
    Schema.ofDocument etcDocument .null = .ok etcSchema ∧
      ∃ p, standard.artifactPath etcSchema = .ok p ∧ p.toString = "/etc/theme_shared_pref.py" ∧
        ¬p.StaysBelow := by
  have hpath : (standard.artifactPath etcSchema).map Path.toString =
      .ok "/etc/theme_shared_pref.py" := by decide +kernel
  refine ⟨by decide +kernel, ?_⟩
  cases hp : standard.artifactPath etcSchema with
  | error k =>
    rw [hp] at hpath
    cases hpath
  | ok p =>
    rw [hp] at hpath
    have htext : p.toString = "/etc/theme_shared_pref.py" := Except.ok.inj hpath
    refine ⟨p, rfl, htext, fun hbelow => hbelow.relative ?_⟩
    rw [htext]
    decide

/-- Slashes inside a part of a package are harmless. -/
def nestedSchema : Schema :=
  { etcSchema with package := "com.app/settings" }

theorem nested_path_staysBelow :
    ∃ p, standard.artifactPath nestedSchema = .ok p ∧
      p.toString = "com/app/settings/theme_shared_pref.py" ∧ p.StaysBelow := by
  have hsuffix : standard.settings.classSuffix = .string "SharedPref" := rfl
  have hpackage : standard.settings.packageOr nestedSchema.package = .ok "com.app/settings" := by
    decide +kernel
  have hpath : (standard.artifactPath nestedSchema).map Path.toString =
      .ok "com/app/settings/theme_shared_pref.py" := by decide +kernel
  obtain ⟨p, hp, -, hbelow⟩ :=
    artifactPath_staysBelow_iff hsuffix (by decide +kernel) hpackage
  rw [hp] at hpath
  exact ⟨p, hp, Except.ok.inj hpath, hbelow.mpr (by decide +kernel)⟩

end Generator

end PrefAccessor
