import PrefAccessor.Proofs.ArtifactPath

/-!
# System calls on a tree

What looking up, making a directory and making one with its ancestors come to in terms of a walk
through the tree. A path is missing if the walk breaks off for want of an entry or ends at none; then
everything below it is missing too. A tree grows if no entry goes and no directory turns into a file,
which keeps all walks.
-/

namespace PrefAccessor

set_option autoImplicit false

namespace Path

theorem intercalate_prefix (xs ys : List (List CodePoint)) :
    [char '/'].intercalate xs <+: [char '/'].intercalate (xs ++ ys) := by
  induction xs with
  | nil => exact List.nil_prefix
  | cons x xs ih =>
    cases xs with
    | nil =>
      cases ys with
      | nil => exact List.prefix_refl _
      | cons y ys =>
        rw [List.singleton_append, List.intercalate_cons_cons, List.append_assoc,
          List.intercalate_singleton]
        exact List.prefix_append x _
    | cons x' xs =>
      rw [List.cons_append, List.cons_append, List.intercalate_cons_cons,
        List.intercalate_cons_cons, List.prefix_append_right_inj]
      exact ih

end Path

namespace Text

theorem nameSize_eq (s : Text) :
    s.nameSize = (s.toList.flatMap fun c => c.nameBytes?.getD []).length := by
  cases s with
  | broken cs h => rfl
  | plain s =>
    rw [nameSize, toList_plain, List.flatMap_map]
    change _ = (s.toList.flatMap String.utf8EncodeChar).length
    rw [← String.size_toByteArray, ← String.utf8Encode_toList, List.utf8Encode, List.size_toByteArray]

theorem nameSize_le_of_prefix {s s' : Text} (h : s.toList <+: s'.toList) :
    s.nameSize ≤ s'.nameSize := by
  obtain ⟨rest, hrest⟩ := h
  rw [nameSize_eq, nameSize_eq, ← hrest, List.flatMap_append, List.length_append]
  exact Nat.le_add_right _ _

end Text

namespace FileTree

theorem isTooLong_of_append {root : Text} {cs ds : List Text}
    (h : isTooLong ⟨root, cs ++ ds⟩ = false) : isTooLong ⟨root, cs⟩ = false := by
  by_cases hempty : cs = [] ∧ root = ""
  · obtain ⟨rfl, rfl⟩ := hempty
    decide
  · have hempty' : ¬(cs ++ ds = [] ∧ root = "") := by
      rintro ⟨hnil, hroot⟩
      exact hempty ⟨(List.append_eq_nil_iff.mp hnil).1, hroot⟩
    have hbytes : (Path.toString ⟨root, cs⟩).nameSize ≤
        (Path.toString ⟨root, cs ++ ds⟩).nameSize := by
      apply Text.nameSize_le_of_prefix
      rw [Path.toString, Path.toString, if_neg hempty, if_neg hempty', Text.toList_append,
        Text.toList_append, List.prefix_append_right_inj, Text.toList_intercalate,
        Text.toList_intercalate, List.map_append]
      exact Path.intercalate_prefix _ _
    simp only [isTooLong, decide_eq_false_iff_not, Nat.not_lt] at h ⊢
    exact Nat.le_trans hbytes h

theorem pathFault?_eq_none {p : Path} :
    pathFault? p = none ↔ p.isNamed = true ∧ p.hasNul = false := by
  unfold pathFault?
  cases p.isNamed <;> cases p.hasNul <;> simp

/-- What is on the way to a path that system calls take they take as well. -/
theorem pathFault?_of_append {root : Text} {cs ds : List Text}
    (h : pathFault? ⟨root, cs ++ ds⟩ = none) : pathFault? ⟨root, cs⟩ = none := by
  rw [pathFault?_eq_none, Path.isNamed, Path.hasNul] at h ⊢
  rw [List.all_append, Bool.and_eq_true, List.any_append, Bool.or_eq_false_iff] at h
  exact ⟨h.1.1, h.2.1⟩

theorem entry?_put_self {t : FileTree} {place : Place} {e : FileEntry}
    (h : isBase place = false) : entry? (Entries.put t place e) place = some e := by
  unfold entry?
  rw [h, if_neg Bool.false_ne_true, Entries.find?_put_self]

theorem entry?_put_of_ne {t : FileTree} {place other : Place} {e : FileEntry}
    (h : other ≠ place) : entry? (Entries.put t place e) other = entry? t other := by
  unfold entry?
  rw [Entries.find?_put_of_ne t e h]

theorem entry?_start (t : FileTree) (p : Path) : entry? t (start p) = some .directory := by
  unfold entry? start
  split <;> rfl

/-- Nothing goes, and directories stay directories. -/
structure Grows (t t' : FileTree) : Prop where
  present : ∀ place, entry? t place ≠ none → entry? t' place ≠ none
  directory : ∀ place, entry? t place = some .directory → entry? t' place = some .directory

theorem grows_put {t : FileTree} {place : Place} {e : FileEntry} (hbase : isBase place = false)
    (h : entry? t place = some .directory → e = .directory) : Grows t (Entries.put t place e) where
  present := by
    intro other hother
    by_cases heq : other = place
    · rw [heq, entry?_put_self hbase]
      exact Option.some_ne_none e
    · rwa [entry?_put_of_ne heq]
  directory := by
    intro other hother
    by_cases heq : other = place
    · subst heq
      rw [entry?_put_self hbase, h hother]
    · rwa [entry?_put_of_ne heq]

variable {t t' : FileTree} {place found : Place} {c : Text} {cs : List Text} {p : Path}

theorem walk_singleton (h : entry? t place = some .directory) (hup : c ≠ "..")
    (hshort : c.nameSize ≤ maxNameBytes) :
    walk t place [c] = if entry? t (place ++ [c.fileName]) = none then .error .notFound
      else .ok (place ++ [c.fileName]) := by
  simp only [walk, h, if_neg hup, if_neg (Nat.not_lt.mpr hshort)]
  cases entry? t (place ++ [c.fileName]) with
  | none => rfl
  | some e => rfl

theorem walk_mono (hgrows : Grows t t') (h : walk t place cs = .ok found) :
    walk t' place cs = .ok found := by
  induction cs generalizing place with
  | nil => exact h
  | cons c cs ih =>
    rw [walk] at h ⊢
    cases hplace : entry? t place with
    | none => simp [hplace] at h
    | some e =>
      cases e with
      | file content => simp [hplace] at h
      | directory =>
        simp only [hplace] at h
        simp only [hgrows.directory place hplace]
        split at h
        · rename_i hup
          rw [if_pos hup]
          exact ih h
        · rename_i hdown
          rw [if_neg hdown]
          split at h
          · cases h
          · rename_i hshort
            rw [if_neg hshort]
            cases hnext : entry? t (place ++ [c.fileName]) with
            | none => simp [hnext] at h
            | some e =>
              obtain ⟨e', he'⟩ := Option.ne_none_iff_exists'.mp
                (hgrows.present (place ++ [c.fileName]) (by rw [hnext]; exact Option.some_ne_none e))
              simp only [hnext] at h
              simp only [he']
              exact ih h

/-- The walk comes to a place where nothing is. -/
def IsMissing (t : FileTree) (place : Place) (cs : List Text) : Prop :=
  walk t place cs = .error .notFound ∨ ∃ found, walk t place cs = .ok found ∧ entry? t found = none

theorem IsMissing.append (h : IsMissing t place cs) (ds : List Text) :
    IsMissing t place (cs ++ ds) := by
  rcases h with h | ⟨found, h, hnone⟩
  · exact Or.inl (by rw [walk_append, h]; rfl)
  · cases ds with
    | nil => exact Or.inr ⟨found, by rwa [List.append_nil], hnone⟩
    | cons d ds =>
      refine Or.inl ?_
      rw [walk_append, h]
      change walk t found (d :: ds) = _
      rw [walk, hnone]

theorem IsMissing.of_walk {base : Place} {ds : List Text} (h : walk t place cs = .ok base)
    (hmissing : IsMissing t base ds) : IsMissing t place (cs ++ ds) := by
  have hwalk : walk t place (cs ++ ds) = walk t base ds := by
    rw [walk_append, h]
    rfl
  rwa [IsMissing, hwalk]

theorem lookUp_eq_ok {e : FileEntry} :
    lookUp t p = .ok e ↔ isTooLong p = false ∧
      ∃ place, walk t (start p) p.parts = .ok place ∧ entry? t place = some e := by
  unfold lookUp
  cases isTooLong p with
  | true => simp
  | false =>
    cases walk t (start p) p.parts with
    | error k => simp
    | ok place => cases h : entry? t place <;> simp [h]

theorem lookUp_eq_notFound :
    lookUp t p = .error .notFound ↔ isTooLong p = false ∧ IsMissing t (start p) p.parts := by
  unfold lookUp IsMissing
  cases isTooLong p with
  | true => simp
  | false =>
    cases walk t (start p) p.parts with
    | error k => simp
    | ok place => cases h : entry? t place <;> simp [h]

theorem target_of_walk (hparts : p.parts = cs ++ [c]) (hfits : isTooLong p = false)
    (hwalk : walk t (start p) cs = .ok place) (hplace : entry? t place = some .directory)
    (hup : c ≠ "..") (hshort : c.nameSize ≤ maxNameBytes) :
    target t p = .ok (place ++ [c.fileName], entry? t (place ++ [c.fileName])) := by
  simp only [target, hfits, hparts, List.dropLast_concat, List.getLast?_concat, hwalk, hplace,
    Bool.false_eq_true, if_false, if_neg hup, if_neg (Nat.not_lt.mpr hshort)]

theorem makeDirectory_of_missing (hparts : p.parts = cs ++ [c]) (hfits : isTooLong p = false)
    (h : IsMissing t (start p) cs) : makeDirectory t p = .error .notFound := by
  have htarget : target t p = .error .notFound := by
    rcases h with h | ⟨found, h, hnone⟩
    · simp only [target, hfits, hparts, List.dropLast_concat, h, Bool.false_eq_true, if_false]
    · simp only [target, hfits, hparts, List.dropLast_concat, h, hnone, Bool.false_eq_true,
        if_false]
  rw [makeDirectory, htarget]

theorem makeDirectory_of_directory (h : lookUp t p = .ok .directory) :
    makeDirectory t p = .error .exists := by
  obtain ⟨hfits, place, hwalk, hplace⟩ := lookUp_eq_ok.mp h
  suffices htarget : ∃ place e, target t p = .ok (place, some e) by
    obtain ⟨place, e, htarget⟩ := htarget
    rw [makeDirectory, htarget]
  rcases List.eq_nil_or_concat p.parts with hparts | ⟨cs, c, hparts⟩
  · simp [target, hfits, hparts, walk, entry?_start]
  · rw [List.concat_eq_append] at hparts
    rw [hparts] at hwalk
    obtain ⟨base, hbase, hlast⟩ := walk_append_eq_ok hwalk
    simp only [target, hfits, hparts, List.dropLast_concat, List.getLast?_concat, hbase,
      Bool.false_eq_true, if_false]
    rw [walk] at hlast
    split at hlast
    · cases hlast
    · cases hlast
    · split at hlast
      · rename_i hup
        exact ⟨above base, .directory, by rw [if_pos hup]⟩
      · rename_i hdown
        split at hlast
        · cases hlast
        · rename_i hshort
          split at hlast
          · cases hlast
          · rename_i e he
            exact ⟨base ++ [c.fileName], e, by rw [if_neg hdown, if_neg hshort, he]⟩

theorem ensureDirectory_of_directory (h : lookUp t p = .ok .directory) :
    ensureDirectory t p = (t, none) := by
  simp [ensureDirectory, makeDirectory_of_directory h, isDirectory, h]

theorem ensureDirectories_of_directory (h : lookUp t p = .ok .directory) (depth : Nat) :
    ensureDirectories t p depth = (t, none) := by
  cases depth with
  | zero => exact ensureDirectory_of_directory h
  | succ depth =>
    simp only [ensureDirectories, makeDirectory_of_directory h, ensureDirectory_of_directory h]

theorem ensureDirectories_of_missing {depth : Nat} (h : makeDirectory t p = .error .notFound)
    (hparent : ensureDirectories t p.parent depth = (t', none)) :
    ensureDirectories t p (depth + 1) = ensureDirectory t' p := by
  rw [ensureDirectories, h]
  simp only [hparent]

theorem ensureDirectories_of_parent {depth : Nat} (h : makeDirectory t p ≠ .error .notFound) :
    ensureDirectories t p (depth + 1) = ensureDirectory t p := by
  rw [ensureDirectories]
  split
  · rename_i hmissing
    exact absurd hmissing h
  · rfl

/-- A path has no more ancestors than components, so that a greater depth makes no difference. -/
theorem ensureDirectories_of_le {depth : Nat} (h : p.parts.length ≤ depth) :
    ensureDirectories t p depth = ensureDirectories t p p.parts.length := by
  have hstep (depth : Nat) : ∀ p : Path, p.parts.length ≤ depth →
      ensureDirectories t p (depth + 1) = ensureDirectories t p depth := by
    induction depth with
    | zero =>
      intro p hp
      have hparts : p.parts = [] := List.length_eq_zero_iff.mp (Nat.le_zero.mp hp)
      -- what has no components is there
      have hmake : makeDirectory t p ≠ .error .notFound := by
        unfold makeDirectory target
        cases isTooLong p <;> simp [hparts, walk, entry?_start]
      exact ensureDirectories_of_parent hmake
    | succ depth ih =>
      intro p hp
      have hparent : p.parent.parts.length ≤ depth := by
        rw [Path.parent, List.length_dropLast]
        omega
      rw [ensureDirectories.eq_2 t p (depth + 1), ensureDirectories.eq_2 t p depth,
        ih p.parent hparent]
  induction h with
  | refl => rfl
  | step hle ih => exact (hstep _ p hle).trans ih

end FileTree

end PrefAccessor
