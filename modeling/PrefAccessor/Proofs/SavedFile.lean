import PrefAccessor.Proofs.WrittenFiles
import PrefAccessor.Sink

/-!
# When a text is saved

To save a text comes to visiting the places on the way to its file one after another. Each of them must
be a directory or become one, and the file must be none of them. If a place is taken, or a name or the
whole path is too long, the text is refused and only directories on the way have been made. Otherwise
the file holds the text, and only the directories that were missing on the way are new. A text without
an encoded form gets as far, but leaves the file empty.
-/

namespace PrefAccessor

set_option autoImplicit false

namespace FileTree

variable {t t' made : FileTree} {place found : Place} {c : Text} {cs : List Text} {p : Path}

def step (place : Place) (c : Text) : Place :=
  if c = ".." then above place else place ++ [c.fileName]

/-- The place behind the first components of a path. -/
def stage (p : Path) (n : Nat) : Place :=
  (p.parts.take n).foldl step (start p)

theorem stage_parent {n : Nat} (h : n ≤ p.parent.parts.length) : stage p.parent n = stage p n := by
  rw [Path.parent, List.length_dropLast] at h
  have htake : p.parts.dropLast.take n = p.parts.take n := by
    rw [List.dropLast_eq_take, List.take_take, Nat.min_eq_left h]
  unfold stage
  rw [Path.parent, htake]
  rfl

theorem stage_concat (hparts : p.parts = cs ++ [c]) :
    stage p p.parts.length = step (stage p cs.length) c := by
  unfold stage
  rw [List.take_length, hparts, List.take_left, List.foldl_append]
  rfl

theorem walk_eq_ok_foldl (h : walk t place cs = .ok found) : found = cs.foldl step place := by
  induction cs generalizing place with
  | nil =>
    cases h
    rfl
  | cons c cs ih =>
    rw [walk] at h
    rw [List.foldl_cons, step]
    split at h
    · cases h
    · cases h
    · split at h
      · rename_i hup
        rw [if_pos hup]
        exact ih h
      · rename_i hdown
        rw [if_neg hdown]
        split at h
        · cases h
        · split at h
          · cases h
          · exact ih h

theorem stage_of_walk {ds : List Text} (hparts : p.parts = cs ++ ds)
    (h : walk t (start p) cs = .ok found) : stage p cs.length = found := by
  rw [walk_eq_ok_foldl h, stage, hparts, List.take_left]

theorem walk_step (hplace : entry? t place = some .directory)
    (hshort : c.nameSize ≤ maxNameBytes) (hentry : entry? t (step place c) = some .directory) :
    walk t place [c] = .ok (step place c) := by
  by_cases hup : c = ".."
  · subst hup
    rw [walk, hplace]
    rfl
  · rw [step, if_neg hup] at hentry ⊢
    rw [walk_singleton hplace hup hshort, hentry, if_neg (Option.some_ne_none _)]

/-- What a walk has passed: directories only, and no name that is too long. -/
theorem passed_of_walk_eq_ok (h : walk t place cs = .ok found) :
    (∀ n < cs.length, entry? t ((cs.take n).foldl step place) = some .directory) ∧
      ∀ c ∈ cs, c.nameSize ≤ maxNameBytes := by
  induction cs generalizing place with
  | nil => exact ⟨by simp, by simp⟩
  | cons c cs ih =>
    rw [walk] at h
    split at h
    · cases h
    · cases h
    · rename_i hplace
      have hrest : walk t (step place c) cs = .ok found ∧ c.nameSize ≤ maxNameBytes := by
        unfold step
        split at h
        · rename_i hup
          rw [if_pos hup, hup]
          exact ⟨h, by decide⟩
        · rename_i hdown
          rw [if_neg hdown]
          split at h
          · cases h
          · rename_i hshort
            split at h
            · cases h
            · exact ⟨h, Nat.not_lt.mp hshort⟩
      obtain ⟨hpassed, hshort⟩ := ih hrest.1
      refine ⟨?_, List.forall_mem_cons.mpr ⟨hrest.2, hshort⟩⟩
      intro n hn
      cases n with
      | zero => exact hplace
      | succ n => exact hpassed n (Nat.lt_of_succ_lt_succ hn)

/-- The place and all places above it are directories. -/
inductive Solid (t : FileTree) : Place → Prop
  | base {place : Place} (h : isBase place = true) : Solid t place
  | child {place : Place} {c : Text} (h : Solid t place)
    (hdirectory : entry? t (place ++ [c]) = some .directory) : Solid t (place ++ [c])

theorem isBase_above (h : isBase place = true) : isBase (above place) = true := by
  unfold above
  split
  · exact h
  · rename_i hroot
    have hup : place.all (· == "..") = true := by simpa [isBase, hroot] using h
    rw [if_pos hup]
    simp [isBase, List.all_append, hup]

theorem above_concat (h : isBase (place ++ [c]) = false) : above (place ++ [c]) = place := by
  rw [isBase, Bool.or_eq_false_iff] at h
  rw [above, if_neg (by simpa using h.1), if_neg (by simp [h.2]), List.dropLast_concat]

namespace Solid

theorem start (t : FileTree) (p : Path) : Solid t (start p) := by
  apply Solid.base
  unfold FileTree.start
  split <;> rfl

theorem directory (h : Solid t place) : entry? t place = some .directory := by
  cases h with
  | base h => rw [ entry?, if_pos h]
  | child h hdirectory => exact hdirectory

theorem above (h : Solid t place) : Solid t (above place) := by
  cases h with
  | base h => exact .base (isBase_above h)
  | @child place c h hdirectory =>
    cases hbase : isBase (place ++ [c]) with
    | true => exact .base (isBase_above hbase)
    | false => rwa [above_concat hbase]

theorem mono (h : Solid t place) (hgrows : Grows t t') : Solid t' place := by
  induction h with
  | base h => exact .base h
  | child _ hdirectory ih => exact .child ih (hgrows.directory _ hdirectory)

end Solid

/-- On a way without files and long names a walk gets through or misses a directory. -/
theorem walk_of_passable (hsolid : Solid t place) (hshort : ∀ c ∈ cs, c.nameSize ≤ maxNameBytes)
    (hfree : ∀ n ≤ cs.length, ∀ content,
      entry? t ((cs.take n).foldl step place) ≠ some (.file content)) :
    walk t place cs = .error .notFound ∨
      walk t place cs = .ok (cs.foldl step place) ∧ Solid t (cs.foldl step place) := by
  induction cs generalizing place with
  | nil => exact Or.inr ⟨rfl, hsolid⟩
  | cons c cs ih =>
    obtain ⟨hc, hcs⟩ := List.forall_mem_cons.mp hshort
    have hrest (hstep : Solid t (step place c)) := ih hstep hcs fun n hn =>
      hfree (n + 1) (Nat.succ_le_succ hn)
    rw [List.foldl_cons, walk, hsolid.directory]
    by_cases hup : c = ".."
    · have hstep : step place c = above place := if_pos hup
      simp only [if_pos hup]
      rw [hstep] at hrest ⊢
      exact hrest hsolid.above
    · have hstep : step place c = place ++ [c.fileName] := if_neg hup
      simp only [if_neg hup, if_neg (Nat.not_lt.mpr hc)]
      cases hentry : entry? t (place ++ [c.fileName]) with
      | none => exact Or.inl rfl
      | some e =>
        cases e with
        | file content =>
          have hfile : entry? t (step place c) ≠ some (.file content) := hfree 1 (by simp) content
          rw [hstep] at hfile
          exact absurd hentry hfile
        | directory =>
          rw [hstep] at hrest ⊢
          exact hrest (.child hsolid hentry)

/-- Directories stand at some of these places where nothing was, and nothing else has changed. -/
def AddsAt (places : Place → Prop) (t t' : FileTree) : Prop :=
  ∀ place, entry? t' place = entry? t place ∨
    ( entry? t place = none ∧ entry? t' place = some .directory ∧ places place)

namespace AddsAt

variable {places places' : Place → Prop}

theorem refl (places : Place → Prop) (t : FileTree) : AddsAt places t t := fun _ => Or.inl rfl

theorem addsDirectories (h : AddsAt places t t') : AddsDirectories t t' := fun place =>
  (h place).imp_right fun hnew => ⟨hnew.1, hnew.2.1⟩

theorem mono (h : AddsAt places t t') (hle : ∀ place, places place → places' place) :
    AddsAt places' t t' := fun place =>
  (h place).imp_right fun hnew => ⟨hnew.1, hnew.2.1, hle place hnew.2.2⟩

theorem trans {t'' : FileTree} (h : AddsAt places t t') (h' : AddsAt places t' t'') :
    AddsAt places t t'' := by
  intro place
  rcases h place with hsame | ⟨hnone, hnew, hplace⟩
  · rw [← hsame]
    exact h' place
  · refine Or.inr ⟨hnone, ?_, hplace⟩
    rw [h'.addsDirectories.eq_of_ne_none (by rw [hnew]; nofun), hnew]

theorem directory_cases (h : AddsAt places t t') (hplace : entry? t' place = some .directory) :
    entry? t place = some .directory ∨ places place := by
  rcases h place with hsame | ⟨-, -, hnew⟩
  · exact Or.inl (hsame ▸ hplace)
  · exact Or.inr hnew

end AddsAt

/-- The place is passed on the way to the end of the path, or is this end. -/
def IsStage (p : Path) (place : Place) : Prop :=
  ∃ n ≤ p.parts.length, place = stage p n

theorem IsStage.of_parent (h : IsStage p.parent place) : IsStage p place := by
  obtain ⟨n, hn, rfl⟩ := h
  refine ⟨n, ?_, stage_parent hn⟩
  rw [Path.parent, List.length_dropLast] at hn
  omega

theorem makeDirectory_eq_ok (h : makeDirectory t p = .ok made) :
    AddsAt (IsStage p) t made ∧ LeadsTo made p (stage p p.parts.length) ∧
      entry? made (stage p p.parts.length) = some .directory := by
  have hadds := addsDirectories_makeDirectory h
  unfold makeDirectory at h
  split at h
  · cases h
  · cases h
  · rename_i place htarget
    cases h
    obtain ⟨hnone, hfits, base, cs, c, hparts, hwalk, hbase, rfl, hup, hshort⟩ :=
      (target_cases htarget).resolve_left nofun
    have hnew : entry? (Entries.put t (base ++ [c.fileName]) .directory) (base ++ [c.fileName]) =
        some .directory := entry?_put_self (isBase_eq_false (by rw [← hnone]; nofun))
    have hstage : stage p p.parts.length = base ++ [c.fileName] := by
      rw [stage_concat hparts, stage_of_walk hparts hwalk, step, if_neg hup]
    refine ⟨?_, ⟨hfits, ?_⟩, ?_⟩
    · intro other
      by_cases heq : other = base ++ [c.fileName]
      · subst heq
        exact Or.inr ⟨hnone.symm, hnew, p.parts.length, Nat.le_refl _, hstage.symm⟩
      · exact Or.inl (entry?_put_of_ne heq)
    · rw [hstage, hparts, walk_append, walk_mono hadds.grows hwalk]
      refine (walk_singleton (hadds.grows.directory base hbase) hup hshort).trans ?_
      rw [hnew, if_neg nofun]
    · rw [hstage, hnew]

theorem ensureDirectory_eq_none (h : ensureDirectory t p = (made, none)) :
    lookUp made p = .ok .directory := by
  unfold ensureDirectory at h
  split at h
  · rename_i hmake
    cases h
    obtain ⟨-, hleads, hdirectory⟩ := makeDirectory_eq_ok hmake
    exact hleads.lookUp hdirectory
  · split at h
    · rename_i hdirectory
      cases h
      unfold isDirectory at hdirectory
      split at hdirectory
      · rename_i hlook
        exact hlook
      · cases hdirectory.2
    · cases h

theorem addsAt_ensureDirectory (t : FileTree) (p : Path) :
    AddsAt (IsStage p) t (ensureDirectory t p).1 := by
  unfold ensureDirectory
  split
  · rename_i hmake
    exact (makeDirectory_eq_ok hmake).1
  · split
    · exact .refl _ t
    · exact .refl _ t

theorem addsAt_ensureDirectories (t : FileTree) (p : Path) (depth : Nat) :
    AddsAt (IsStage p) t (ensureDirectories t p depth).1 := by
  induction depth generalizing p with
  | zero => exact addsAt_ensureDirectory t p
  | succ depth ih =>
    have hparent := (ih p.parent).mono fun _ => IsStage.of_parent
    rw [ensureDirectories]
    split
    · split
      · rename_i made hmade
        rw [hmade] at hparent
        exact hparent.trans (addsAt_ensureDirectory made p)
      · exact hparent
    · exact addsAt_ensureDirectory t p

theorem ensureDirectories_eq_none {depth : Nat} (h : ensureDirectories t p depth = (made, none)) :
    lookUp made p = .ok .directory := by
  cases depth with
  | zero => exact ensureDirectory_eq_none h
  | succ depth =>
    rw [ensureDirectories] at h
    split at h
    · split at h
      · exact ensureDirectory_eq_none h
      · rename_i hfailed
        exact absurd h (hfailed made)
    · exact ensureDirectory_eq_none h

/-- Nothing keeps the path from becoming a directory. -/
structure Passable (t : FileTree) (p : Path) : Prop where
  fits : isTooLong p = false
  short : ∀ c ∈ p.parts, c.nameSize ≤ maxNameBytes
  free : ∀ n ≤ p.parts.length, ∀ content, entry? t (stage p n) ≠ some (.file content)

theorem lookUp_of_parts_eq_nil (hfits : isTooLong p = false) (h : p.parts = []) :
    lookUp t p = .ok .directory :=
  lookUp_eq_ok.mpr ⟨hfits, start p, by rw [h]; rfl, entry?_start t p⟩

theorem isTooLong_parent (h : isTooLong p = false) : isTooLong p.parent = false := by
  obtain ⟨root, parts⟩ := p
  rcases List.eq_nil_or_concat parts with rfl | ⟨cs, c, rfl⟩
  · exact h
  · rw [List.concat_eq_append] at h
    rw [Path.parent, List.concat_eq_append, List.dropLast_concat]
    exact isTooLong_of_append h

theorem directory_of_lookUp (h : lookUp t p = .ok .directory) {n : Nat} (hn : n ≤ p.parts.length) :
    entry? t (stage p n) = some .directory := by
  obtain ⟨-, place, hwalk, hplace⟩ := lookUp_eq_ok.mp h
  rcases Nat.lt_or_eq_of_le hn with hlt | rfl
  · exact (passed_of_walk_eq_ok hwalk).1 n hlt
  · rw [stage, List.take_length, ← walk_eq_ok_foldl hwalk, hplace]

namespace Passable

theorem parent (h : Passable t p) : Passable t p.parent where
  fits := isTooLong_parent h.fits
  short d hd := h.short d (List.dropLast_subset _ hd)
  free n hn content := by
    rw [stage_parent hn]
    refine h.free n ?_ content
    rw [Path.parent, List.length_dropLast] at hn
    omega

theorem of_grown (h : Passable t p) (hadds : AddsDirectories t t') : Passable t' p where
  fits := h.fits
  short := h.short
  free n hn content hfile := by
    rcases hadds (stage p n) with hsame | ⟨-, hnew⟩
    · exact h.free n hn content (hsame ▸ hfile)
    · rw [hnew] at hfile
      cases hfile

theorem walk (h : Passable t p) :
    walk t (start p) p.parts = .error .notFound ∨
      LeadsTo t p (stage p p.parts.length) ∧ Solid t (stage p p.parts.length) := by
  have hstage : stage p p.parts.length = p.parts.foldl step (start p) := by
    rw [stage, List.take_length]
  rw [hstage]
  rcases walk_of_passable (Solid.start t p) h.short h.free with hmissing | ⟨hwalk, hsolid⟩
  · exact Or.inl hmissing
  · exact Or.inr ⟨⟨h.fits, hwalk⟩, hsolid⟩

theorem leadsTo (h : Passable t p) (hlook : lookUp t p = .ok .directory) :
    LeadsTo t p (stage p p.parts.length) ∧ Solid t (stage p p.parts.length) := by
  obtain ⟨-, place, hwalk, -⟩ := lookUp_eq_ok.mp hlook
  rcases h.walk with hmissing | hreached
  · rw [hmissing] at hwalk
    cases hwalk
  · exact hreached

/-- Below a directory that is there, the last directory is there or can be made. -/
theorem ensureDirectory {base : Place} (h : Passable t p) (hparts : p.parts = cs ++ [c])
    (hwalk : FileTree.walk t (start p) cs = .ok base) (hsolid : Solid t base) :
    makeDirectory t p ≠ .error .notFound ∧ ∃ made, ensureDirectory t p = (made, none) := by
  have hshort : c.nameSize ≤ maxNameBytes := h.short c (by rw [hparts]; simp)
  have hstep := stage_concat hparts
  rw [stage_of_walk hparts hwalk] at hstep
  cases hentry : entry? t (step base c) with
  | none =>
    have hup : c ≠ ".." := by
      rintro rfl
      rw [step, if_pos rfl, hsolid.above.directory] at hentry
      cases hentry
    rw [step, if_neg hup] at hentry
    have htarget := target_of_walk hparts h.fits hwalk hsolid.directory hup hshort
    rw [hentry] at htarget
    simp [FileTree.ensureDirectory, makeDirectory, htarget]
  | some e =>
    cases e with
    | file content =>
      rw [← hstep] at hentry
      exact absurd hentry (h.free _ (Nat.le_refl _) content)
    | directory =>
      have hlook : lookUp t p = .ok .directory := by
        refine LeadsTo.lookUp ⟨h.fits, ?_⟩ hentry
        rw [hparts, walk_append, hwalk]
        exact walk_step hsolid.directory hshort hentry
      rw [makeDirectory_of_directory hlook, ensureDirectory_of_directory hlook]
      refine ⟨?_, t, rfl⟩
      intro herror
      cases herror

theorem ensureDirectories (h : Passable t p) {depth : Nat} (hdepth : p.parts.length ≤ depth) :
    ∃ made, ensureDirectories t p depth = (made, none) := by
  induction depth generalizing p with
  | zero =>
    have hnil : p.parts = [] := List.length_eq_zero_iff.mp (Nat.le_zero.mp hdepth)
    exact ⟨t, ensureDirectories_of_directory (lookUp_of_parts_eq_nil h.fits hnil) 0⟩
  | succ depth ih =>
    rcases List.eq_nil_or_concat p.parts with hnil | ⟨cs, c, hparts⟩
    · exact ⟨t, ensureDirectories_of_directory (lookUp_of_parts_eq_nil h.fits hnil) _⟩
    · rw [List.concat_eq_append] at hparts
      have hparent : p.parent.parts = cs := by rw [Path.parent, hparts, List.dropLast_concat]
      have hstart : start p.parent = start p := rfl
      rcases h.parent.walk with hmissing | ⟨hleads, hsolid⟩
      · -- an ancestor is missing, so that the parent has to be made first
        rw [hparent, hstart] at hmissing
        have hdepth' : p.parent.parts.length ≤ depth := by
          rw [hparts, List.length_append, List.length_singleton] at hdepth
          rw [hparent]
          omega
        obtain ⟨made, hmade⟩ := ih h.parent hdepth'
        have hnotFound := makeDirectory_of_missing hparts h.fits (Or.inl hmissing)
        rw [ensureDirectories_of_missing hnotFound hmade]
        have hadds := addsAt_ensureDirectories t p.parent depth
        rw [hmade] at hadds
        have hgrown := hadds.addsDirectories
        obtain ⟨⟨-, hwalk⟩, hsolid⟩ :=
          (h.parent.of_grown hgrown).leadsTo (ensureDirectories_eq_none hmade)
        rw [hparent] at hwalk hsolid
        exact ((h.of_grown hgrown).ensureDirectory hparts hwalk hsolid).2
      · have hwalk := hleads.2
        rw [hparent] at hwalk hsolid
        obtain ⟨hmake, hensure⟩ := h.ensureDirectory hparts hwalk hsolid
        rwa [ensureDirectories_of_parent hmake]

theorem of_ensureDirectories {depth : Nat} (h : FileTree.ensureDirectories t p depth = (made, none)) :
    Passable t p := by
  have hadds := (addsAt_ensureDirectories t p depth).addsDirectories
  rw [h] at hadds
  have hlook := ensureDirectories_eq_none h
  obtain ⟨hfits, place, hwalk, -⟩ := lookUp_eq_ok.mp hlook
  refine ⟨hfits, (passed_of_walk_eq_ok hwalk).2, ?_⟩
  intro n hn content hfile
  have hdirectory := directory_of_lookUp hlook hn
  rw [hadds.eq_of_ne_none (by rw [hfile]; nofun), hfile] at hdirectory
  cases hdirectory

end Passable

/-- What keeps a text from being saved at a path. -/
inductive Blocks (t : FileTree) (p : Path) : Prop
  | ancestor {n : Nat} {content : ByteArray} (hn : n < p.parts.length)
    (h : entry? t (stage p n) = some (.file content)) : Blocks t p
  | directory (h : entry? t (stage p p.parts.length) = some .directory) : Blocks t p
  /-- The target itself is passed on the way, by steps upwards, and so becomes a directory. -/
  | onWay {n : Nat} (hn : n < p.parts.length) (h : stage p p.parts.length = stage p n) : Blocks t p
  | name {c : Text} (hc : c ∈ p.parts) (h : maxNameBytes < c.nameSize) : Blocks t p
  | path (h : isTooLong p = true) : Blocks t p

/-- The place is passed on the way to the end of the path. -/
def IsAncestor (p : Path) (place : Place) : Prop :=
  ∃ n < p.parts.length, place = stage p n

theorem isAncestor_or_start {n : Nat} (hn : n ≤ p.parent.parts.length) :
    IsAncestor p (stage p.parent n) ∨ stage p.parent n = start p := by
  rw [stage_parent hn]
  rw [Path.parent, List.length_dropLast] at hn
  rcases Nat.eq_zero_or_pos n with rfl | hpos
  · exact Or.inr rfl
  · exact Or.inl ⟨n, by omega, rfl⟩

theorem passable_parent (h : ¬ Blocks t p) : Passable t p.parent where
  fits := by
    apply isTooLong_parent
    rw [← Bool.not_eq_true]
    exact fun hlong => h (.path hlong)
  short c hc := by
    by_contra hlong
    exact h (.name (List.dropLast_subset _ hc) (Nat.not_le.mp hlong))
  free n hn content hfile := by
    rcases isAncestor_or_start hn with ⟨m, hm, heq⟩ | heq
    · rw [heq] at hfile
      exact h (.ancestor hm hfile)
    · rw [heq, entry?_start] at hfile
      cases hfile

theorem addsAt_parent (t : FileTree) (p : Path) (depth : Nat) :
    AddsAt (IsAncestor p) t (ensureDirectories t p.parent depth).1 := by
  intro place
  refine (addsAt_ensureDirectories t p.parent depth place).imp_right ?_
  rintro ⟨hnone, hnew, n, hn, rfl⟩
  refine ⟨hnone, hnew, (isAncestor_or_start hn).resolve_right ?_⟩
  intro heq
  rw [heq, entry?_start] at hnone
  cases hnone

/-- Once the directories have been made, only the path itself and its target decide. -/
theorem blocks_iff_of_made {depth : Nat} (h : ensureDirectories t p.parent depth = (made, none)) :
    Blocks t p ↔ isTooLong p = true ∨ (∃ c ∈ p.parts, maxNameBytes < c.nameSize) ∨
      entry? made (stage p p.parts.length) = some .directory := by
  have hadds := addsAt_parent t p depth
  rw [h] at hadds
  have hparent {n : Nat} (hn : n < p.parts.length) : n ≤ p.parent.parts.length := by
    rw [Path.parent, List.length_dropLast]
    omega
  constructor
  · intro hblocks
    cases hblocks with
    | @ancestor n content hn hfile =>
      refine absurd hfile ?_
      rw [← stage_parent (hparent hn)]
      exact (Passable.of_ensureDirectories h).free n (hparent hn) content
    | directory hdirectory =>
      exact Or.inr (Or.inr (hadds.addsDirectories.grows.directory _ hdirectory))
    | onWay hn heq =>
      refine Or.inr (Or.inr ?_)
      rw [heq, ← stage_parent (hparent hn)]
      exact directory_of_lookUp (ensureDirectories_eq_none h) (hparent hn)
    | name hc hlong => exact Or.inr (Or.inl ⟨_, hc, hlong⟩)
    | path hlong => exact Or.inl hlong
  · rintro (hlong | ⟨c, hc, hlong⟩ | hdirectory)
    · exact .path hlong
    · exact .name hc hlong
    · rcases hadds.directory_cases hdirectory with hold | ⟨n, hn, heq⟩
      · exact .directory hold
      · exact .onWay hn heq

theorem stage_length (p : Path) : stage p p.parts.length = p.parts.foldl step (start p) := by
  rw [stage, List.take_length]

theorem exists_writeFile_eq_error (content : ByteArray)
    (h : isTooLong p = true ∨ (∃ c ∈ p.parts, maxNameBytes < c.nameSize) ∨
      entry? t (stage p p.parts.length) = some .directory) :
    ∃ e, writeFile t p content = (t, some e) := by
  rcases writeFile_cases t p content with herror | ⟨place, -, hplace, hfits, hwalk⟩
  · exact herror
  · exfalso
    rcases h with hlong | ⟨c, hc, hlong⟩ | hdirectory
    · rw [hfits] at hlong
      cases hlong
    · exact absurd hlong (Nat.not_lt.mpr ((passed_of_walk_eq_ok hwalk).2 c hc))
    · rw [stage_length, ← walk_eq_ok_foldl hwalk] at hdirectory
      exact hplace hdirectory

theorem writeFile_eq_ok {base : Place} (content : ByteArray) (hleads : LeadsTo t p.parent base)
    (hsolid : Solid t base) (hfits : isTooLong p = false)
    (hshort : ∀ c ∈ p.parts, c.nameSize ≤ maxNameBytes)
    (htarget : entry? t (stage p p.parts.length) ≠ some .directory) :
    writeFile t p content = (Entries.put t (stage p p.parts.length) (.file content), none) := by
  rcases List.eq_nil_or_concat p.parts with hnil | ⟨cs, c, hparts⟩
  · rw [stage_length, hnil] at htarget
    exact absurd (entry?_start t p) htarget
  · rw [List.concat_eq_append] at hparts
    have hwalk : walk t (start p) cs = .ok base := by
      have h := hleads.2
      rwa [Path.parent, hparts, List.dropLast_concat] at h
    have hstage := stage_concat hparts
    rw [stage_of_walk hparts hwalk] at hstage
    rw [hstage] at htarget ⊢
    by_cases hup : c = ".."
    · rw [step, if_pos hup] at htarget
      exact absurd hsolid.above.directory htarget
    · rw [step, if_neg hup] at htarget ⊢
      have hc := hshort c (by rw [hparts]; simp)
      rw [writeFile, target_of_walk hparts hfits hwalk hsolid.directory hup hc]
      cases hentry : entry? t (base ++ [c.fileName]) with
      | none => rfl
      | some e =>
        cases e with
        | file old => rfl
        | directory => exact absurd hentry htarget

/-- The file of the path holds the bytes, and only directories on the way to it are new. -/
structure Saved (t t' : FileTree) (p : Path) (content : ByteArray) : Prop where
  leads : LeadsTo t' p (stage p p.parts.length)
  file : entry? t' (stage p p.parts.length) = some (.file content)
  others : ∀ place, place ≠ stage p p.parts.length → entry? t' place = entry? t place ∨
    ( entry? t place = none ∧ entry? t' place = some .directory ∧ IsAncestor p place)

theorem Saved.reads {text : Text} {content : ByteArray} (h : Saved t t' p content)
    (htext : text.utf8? = some content) : readText t' p = .ok text := by
  obtain ⟨s, hs, rfl⟩ := Option.map_eq_some_iff.mp htext
  have hdecode : String.fromUTF8? s.toUTF8 = some s := dif_pos s.isValidUTF8
  rw [readText, h.leads.lookUp h.file]
  simp only [hdecode]
  cases text with
  | plain s' => rw [Option.some.inj hs]
  | broken cs hcs => cases hs

theorem saved_of_write {depth : Nat} {content : ByteArray}
    (hmade : ensureDirectories t p.parent depth = (made, none))
    (hwrite : writeFile made p content = (t', none)) : Saved t t' p content := by
  have hadds := addsAt_parent t p depth
  rw [hmade] at hadds
  rcases writeFile_cases made p content with ⟨e, herror⟩ | ⟨place, hput, hplace, hleads⟩
  · rw [herror] at hwrite
    cases hwrite
  · rw [hput] at hwrite
    cases hwrite
    have hstage : stage p p.parts.length = place := by
      rw [stage_length, walk_eq_ok_foldl hleads.2]
    have hfile : entry? (Entries.put made place (.file content)) place = some (.file content) :=
      entry?_put_self (isBase_eq_false hplace)
    refine ⟨by rwa [hstage], by rw [hstage, hfile], ?_⟩
    intro other hother
    rw [hstage] at hother
    rw [entry?_put_of_ne hother]
    exact hadds other

/-- The file of a path is opened exactly if nothing blocks the path. What has an encoded form is then
in it, and what has none leaves it empty and ends in a fault. -/
theorem save_decided (t : FileTree) (text : Text) (hp : pathFault? p = none) :
    (¬ Blocks t p ∧ ∃ t', save t p text =
          (t', if text.isEncodable then none else some (.fault .unencodable)) ∧
        Saved t t' p (text.utf8?.getD .empty)) ∨
      (Blocks t p ∧ ∃ t' e, save t p text = (t', some (.refused e)) ∧
        AddsAt (IsAncestor p) t t') := by
  have hparent : pathFault? p.parent = none := by
    rw [pathFault?_eq_none, Path.isNamed, Path.hasNul, List.all_eq_true, List.any_eq_false] at hp ⊢
    have hsubset := List.dropLast_subset p.parts
    exact ⟨fun c hc => hp.1 c (hsubset hc), fun c hc => hp.2 c (hsubset hc)⟩
  have hdepth : p.parent.parts.length ≤ p.parts.length := by
    rw [Path.parent, List.length_dropLast]
    exact Nat.sub_le _ _
  have hadds := addsAt_parent t p p.parts.length
  unfold save
  rw [hparent, hp]
  cases hmake : ensureDirectories t p.parent p.parts.length with
  | mk made failure =>
    rw [hmake] at hadds
    cases failure with
    | some e =>
      refine Or.inr ⟨?_, made, e, rfl, hadds⟩
      by_contra hclear
      obtain ⟨made', hmade'⟩ := (passable_parent hclear).ensureDirectories hdepth
      rw [hmade'] at hmake
      cases hmake
    | none =>
      have hblocks := blocks_iff_of_made hmake
      by_cases hblocked : Blocks t p
      · obtain ⟨e, hwrite⟩ :=
          exists_writeFile_eq_error (text.utf8?.getD .empty) (hblocks.mp hblocked)
        refine Or.inr ⟨hblocked, made, e, ?_, hadds⟩
        simp only [hwrite]
      · have hclear := hblocked
        rw [hblocks, not_or, not_or, not_exists] at hclear
        obtain ⟨hfits, hnames, htarget⟩ := hclear
        have hshort : ∀ c ∈ p.parts, c.nameSize ≤ maxNameBytes := fun c hc =>
          Nat.not_lt.mp fun hlong => hnames c ⟨hc, hlong⟩
        have hpassable := (Passable.of_ensureDirectories hmake).of_grown hadds.addsDirectories
        obtain ⟨hleads, hsolid⟩ := hpassable.leadsTo (ensureDirectories_eq_none hmake)
        have hwrite := writeFile_eq_ok (text.utf8?.getD .empty) hleads hsolid
          (Bool.eq_false_iff.mpr hfits) hshort htarget
        refine Or.inl ⟨hblocked, _, ?_, saved_of_write hmake hwrite⟩
        simp only [hwrite]

end FileTree

open FileTree

/-- Where the system takes all paths, a sink to a directory either puts a text that has an encoded form
into the file of its path or refuses it, and it refuses exactly if something blocks the path. -/
theorem Sink.write_directory_decided (t : FileTree) {root path : Path} {text : Text}
    {content : ByteArray} (hroot : pathFault? root = none) (hpath : pathFault? path = none)
    (htext : text.utf8? = some content) :
    (¬ Blocks t (root.join path) ∧ ∃ t',
        (Sink.directory root t).write path text =
          (.directory root t', .done (some (root.join path).toString)) ∧
        Saved t t' (root.join path) content ∧ readText t' (root.join path) = .ok text) ∨
      (Blocks t (root.join path) ∧ ∃ t' e,
        (Sink.directory root t).write path text =
          (.directory root t', .refused ⟨.notWritten (root.join path).toString e, none⟩) ∧
        AddsAt (IsAncestor (root.join path)) t t') := by
  have hjoin : pathFault? (root.join path) = none := by
    unfold Path.join
    split
    · exact hpath
    · rw [pathFault?_eq_none, Path.isNamed, Path.hasNul] at hroot hpath ⊢
      rw [List.all_append, List.any_append, hroot.1, hroot.2]
      exact hpath
  rcases save_decided t text hjoin with ⟨hclear, t', hsave, hsaved⟩ | ⟨hblocks, t', e, hsave, hadds⟩
  · rw [Text.isEncodable, htext] at hsave
    rw [htext] at hsaved
    refine Or.inl ⟨hclear, t', ?_, hsaved, hsaved.reads htext⟩
    simp only [Sink.write, hsave, Option.isSome_some, if_true]
  · refine Or.inr ⟨hblocks, t', e, ?_, hadds⟩
    simp only [Sink.write, hsave]

namespace Sink

/-- Steps upwards make a directory of the target, though no file is there, the target is missing and no
name is too long. -/
theorem stepsUp_make_target :
    ∃ root path : Path, pathFault? root = none ∧ path = ⟨"", ["a"]⟩ ∧
      (∀ place content, entry? [] place ≠ some (.file content)) ∧
      entry? [] (stage (root.join path) (root.join path).parts.length) = none ∧
      (∀ c ∈ (root.join path).parts, c.nameSize ≤ maxNameBytes) ∧
      isTooLong (root.join path) = false ∧
      ((directory root []).write path "x").2 =
        .refused ⟨.notWritten "a/b/../../a" ⟨.isDirectory, "a/b/../../a"⟩, none⟩ := by
  refine ⟨Path.ofString "a/b/../..", ⟨"", ["a"]⟩, by decide, rfl, ?_, by decide +kernel,
    by decide +kernel, by decide +kernel, by decide +kernel⟩
  intro place content hfile
  unfold entry? at hfile
  split at hfile
  · cases hfile
  · cases hfile

def outTree : FileTree :=
  [(["out"], .directory), (["out", "notes"], .file "kept".toUTF8)]

theorem nested_text_saved :
    pathFault? (Path.ofString "out") = none ∧ pathFault? (Path.ofString "app/prefs.py") = none ∧
      ("x = 1" : Text).utf8? = some "x = 1".toUTF8 ∧
      ∃ t', (directory (Path.ofString "out") outTree).write (Path.ofString "app/prefs.py") "x = 1" =
          (.directory (Path.ofString "out") t', .done (some "out/app/prefs.py")) ∧
        readText t' (Path.ofString "out/app/prefs.py") = .ok "x = 1" := by
  have hroot : pathFault? (Path.ofString "out") = none := by decide
  have hpath : pathFault? (Path.ofString "app/prefs.py") = none := by decide
  have htext : ("x = 1" : Text).utf8? = some "x = 1".toUTF8 := rfl
  refine ⟨hroot, hpath, htext, ?_⟩
  have hjoin : (Path.ofString "out").join (Path.ofString "app/prefs.py") =
      Path.ofString "out/app/prefs.py" := by decide +kernel
  have hspelling : (Path.ofString "out/app/prefs.py").toString = "out/app/prefs.py" := by
    decide +kernel
  have hdone : ((directory (Path.ofString "out") outTree).write (Path.ofString "app/prefs.py")
      "x = 1").2 = .done (some "out/app/prefs.py") := by decide +kernel
  rcases write_directory_decided outTree hroot hpath htext with
    ⟨-, t', hwrite, -, hreads⟩ | ⟨-, t', e, hwrite, -⟩
  · rw [hjoin] at hwrite hreads
    exact ⟨t', by rw [hwrite, hspelling], hreads⟩
  · rw [hwrite] at hdone
    cases hdone

end Sink

end PrefAccessor
