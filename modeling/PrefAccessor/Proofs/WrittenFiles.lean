import PrefAccessor.Proofs.Contribution
import PrefAccessor.Proofs.DirectoryTree

/-!
# Files that a pass writes

To save a text makes the directories above it and puts it into one file; where that is refused,
directories may have been added and nothing else has changed. When a pass to a directory returns, each
of its artifacts is therefore in its file, unless a later one has been written to the same place, and all
other entries of the tree are as they were: `PassState.Wrote.runFrom`.
-/

namespace PrefAccessor

set_option autoImplicit false

namespace FileTree

variable {t t' t'' made : FileTree} {place : Place} {p : Path}

/-- Directories stand where nothing was, and nothing else has changed. -/
def AddsDirectories (t t' : FileTree) : Prop :=
  ∀ place, entry? t' place = entry? t place ∨
    ( entry? t place = none ∧ entry? t' place = some .directory)

namespace AddsDirectories

theorem refl (t : FileTree) : AddsDirectories t t := fun _ => Or.inl rfl

theorem trans (h : AddsDirectories t t') (h' : AddsDirectories t' t'') : AddsDirectories t t'' := by
  intro place
  rcases h place with hsame | ⟨hnone, hnew⟩
  · rw [← hsame]
    exact h' place
  · refine Or.inr ⟨hnone, ?_⟩
    rcases h' place with hsame | ⟨hnone', -⟩
    · rw [hsame, hnew]
    · rw [hnew] at hnone'
      cases hnone'

theorem eq_of_ne_none (h : AddsDirectories t t') (hplace : entry? t place ≠ none) :
    entry? t' place = entry? t place := by
  rcases h place with hsame | ⟨hnone, -⟩
  · exact hsame
  · exact absurd hnone hplace

theorem grows (h : AddsDirectories t t') : Grows t t' where
  present place hplace := by rwa [h.eq_of_ne_none hplace]
  directory place hplace := by
    rw [h.eq_of_ne_none (by rw [hplace]; exact Option.some_ne_none _), hplace]

end AddsDirectories

/-- A path whose last component names no directory leads to an entry of the directory above it. -/
theorem target_cases {e : Option FileEntry} (h : target t p = .ok (place, e)) :
    e = some .directory ∨ (e = entry? t place ∧ isTooLong p = false ∧
      ∃ base cs, ∃ c : Text, p.parts = cs ++ [c] ∧ walk t (start p) cs = .ok base ∧
        entry? t base = some .directory ∧ place = base ++ [c.fileName] ∧ c ≠ ".." ∧
        c.nameSize ≤ maxNameBytes) := by
  unfold target at h
  split at h
  · cases h
  · rename_i hlong
    split at h
    · cases h
    · rename_i base hwalk
      split at h
      · cases h
      · cases h
      · rename_i hbase
        rcases List.eq_nil_or_concat p.parts with hnil | ⟨cs, c, hparts⟩
        · rw [hnil] at h
          cases h
          exact Or.inl rfl
        · rw [List.concat_eq_append] at hparts
          rw [hparts, List.getLast?_concat] at h
          rw [hparts, List.dropLast_concat] at hwalk
          dsimp only at h
          split at h
          · cases h
            exact Or.inl rfl
          · rename_i hup
            split at h
            · cases h
            · rename_i hshort
              cases h
              exact Or.inr ⟨rfl, Bool.eq_false_iff.mpr hlong, base, cs, c, hparts, hwalk, hbase, rfl,
                hup, Nat.not_lt.mp hshort⟩

theorem isBase_eq_false (h : entry? t place ≠ some .directory) : isBase place = false := by
  rw [← Bool.not_eq_true]
  intro hbase
  rw [ entry?, if_pos hbase] at h
  exact h rfl

theorem addsDirectories_makeDirectory (h : makeDirectory t p = .ok t') : AddsDirectories t t' := by
  unfold makeDirectory at h
  split at h
  · cases h
  · cases h
  · rename_i place htarget
    cases h
    obtain ⟨hnone, -⟩ := (target_cases htarget).resolve_left nofun
    have hbase := isBase_eq_false (by rw [← hnone]; nofun)
    intro other
    by_cases heq : other = place
    · rw [heq]
      exact Or.inr ⟨hnone.symm, entry?_put_self hbase⟩
    · exact Or.inl (entry?_put_of_ne heq)

theorem addsDirectories_ensureDirectory (t : FileTree) (p : Path) :
    AddsDirectories t (ensureDirectory t p).1 := by
  unfold ensureDirectory
  split
  · rename_i hmake
    exact addsDirectories_makeDirectory hmake
  · split
    · exact .refl t
    · exact .refl t

theorem addsDirectories_ensureDirectories (t : FileTree) (p : Path) (depth : Nat) :
    AddsDirectories t (ensureDirectories t p depth).1 := by
  induction depth generalizing p with
  | zero => exact addsDirectories_ensureDirectory t p
  | succ depth ih =>
    have hparent := ih p.parent
    rw [ensureDirectories]
    split
    · split
      · rename_i made hmade
        rw [hmade] at hparent
        exact hparent.trans (addsDirectories_ensureDirectory made p)
      · exact hparent
    · exact addsDirectories_ensureDirectory t p

/-- The path leads to the place, as seen by the system. -/
def LeadsTo (t : FileTree) (p : Path) (place : Place) : Prop :=
  isTooLong p = false ∧ walk t (start p) p.parts = .ok place

theorem LeadsTo.mono (h : LeadsTo t p place) (hgrows : Grows t t') : LeadsTo t' p place :=
  ⟨h.1, walk_mono hgrows h.2⟩

theorem LeadsTo.lookUp (h : LeadsTo t p place) {e : FileEntry} (he : entry? t place = some e) :
    lookUp t p = .ok e :=
  lookUp_eq_ok.mpr ⟨h.1, place, h.2, he⟩

theorem grows_putFile (hplace : entry? t place ≠ some .directory) (content : ByteArray) :
    Grows t (Entries.put t place (.file content)) :=
  grows_put (isBase_eq_false hplace) fun hdirectory => absurd hdirectory hplace

theorem writeFile_cases (t : FileTree) (p : Path) (content : ByteArray) :
    (∃ e, writeFile t p content = (t, some e)) ∨
      ∃ place, writeFile t p content = (Entries.put t place (.file content), none) ∧
        entry? t place ≠ some .directory ∧
        LeadsTo (Entries.put t place (.file content)) p place := by
  unfold writeFile
  split
  · exact Or.inl ⟨_, rfl⟩
  · exact Or.inl ⟨_, rfl⟩
  · rename_i place e hne htarget
    have hfile : e ≠ some .directory := hne
    obtain ⟨he, hfits, base, cs, c, hparts, hwalk, hbase, rfl, hup, hshort⟩ :=
      (target_cases htarget).resolve_left hfile
    rw [he] at hfile
    have hgrows := grows_putFile hfile content
    refine Or.inr ⟨base ++ [c.fileName], rfl, hfile, hfits, ?_⟩
    rw [hparts, walk_append, walk_mono hgrows hwalk]
    refine (walk_singleton (hgrows.directory base hbase) hup hshort).trans ?_
    rw [entry?_put_self (isBase_eq_false hfile), if_neg nofun]

/-- A text is saved in the file that its path leads to, or a fault ends it, or directories are all that
is made. -/
theorem save_cases (t : FileTree) (p : Path) (text : Text) :
    (∃ t' e, save t p text = (t', some (.refused e)) ∧ AddsDirectories t t') ∨
      (∃ t' k, save t p text = (t', some (.fault k))) ∨
      ∃ made place bytes, text.utf8? = some bytes ∧
        save t p text = (Entries.put made place (.file bytes), none) ∧
        AddsDirectories t made ∧ entry? made place ≠ some .directory ∧
        LeadsTo (Entries.put made place (.file bytes)) p place := by
  have hadds := addsDirectories_ensureDirectories t p.parent p.parts.length
  unfold save
  split
  · exact Or.inr (Or.inl ⟨_, _, rfl⟩)
  · split
    · rename_i made e hmade
      rw [hmade] at hadds
      exact Or.inl ⟨made, e, rfl, hadds⟩
    · rename_i made hmade
      rw [hmade] at hadds
      split
      · exact Or.inr (Or.inl ⟨_, _, rfl⟩)
      · rcases writeFile_cases made p (text.utf8?.getD .empty) with
          ⟨e, hwrite⟩ | ⟨place, hwrite, hplace, hleads⟩
        · rw [hwrite]
          exact Or.inl ⟨made, e, rfl, hadds⟩
        · rw [hwrite]
          cases hbytes : text.utf8? with
          | none =>
            rw [Text.isEncodable, hbytes]
            exact Or.inr (Or.inl ⟨_, _, rfl⟩)
          | some bytes =>
            rw [hbytes] at hleads
            rw [Text.isEncodable, hbytes]
            exact Or.inr (Or.inr ⟨made, place, bytes, rfl, rfl, hadds, hplace, hleads⟩)

/-- The artifacts have been put into their files, one over another where two lead to one place, and
nothing else has changed but that directories have been added. -/
structure Written (root : Path) (artifacts : List Artifact) (t t' : FileTree) : Prop where
  others : ∀ place, entry? t' place = entry? t place ∨
    ( entry? t place = none ∧ entry? t' place = some .directory) ∨
      ∃ a ∈ artifacts, LeadsTo t' (root.join a.path) place
  kept : ∀ before a after, artifacts = before ++ a :: after →
    ∃ place, LeadsTo t' (root.join a.path) place ∧ ∃ b ∈ a :: after,
      LeadsTo t' (root.join b.path) place ∧
        ∃ bytes, b.source.utf8? = some bytes ∧ entry? t' place = some (.file bytes)

variable {root : Path} {artifacts : List Artifact} {a : Artifact}

theorem written_nil (root : Path) (t : FileTree) : Written root [] t t where
  others _ := Or.inl rfl
  kept before a after h := by simp at h

namespace Written

theorem addDirectories (h : Written root artifacts t t') (hadds : AddsDirectories t' t'') :
    Written root artifacts t t'' where
  others place := by
    rcases h.others place with hsame | ⟨hnone, hnew⟩ | ⟨a, ha, hleads⟩
    · rcases hadds place with hsame' | ⟨hnone', hnew'⟩
      · exact Or.inl (hsame'.trans hsame)
      · exact Or.inr (Or.inl ⟨hsame ▸ hnone', hnew'⟩)
    · refine Or.inr (Or.inl ⟨hnone, ?_⟩)
      rw [hadds.eq_of_ne_none (by rw [hnew]; nofun), hnew]
    · exact Or.inr (Or.inr ⟨a, ha, hleads.mono hadds.grows⟩)
  kept before a after hsplit := by
    obtain ⟨place, ha, b, hb, hleads, bytes, hbytes, hfile⟩ := h.kept before a after hsplit
    refine ⟨place, ha.mono hadds.grows, b, hb, hleads.mono hadds.grows, bytes, hbytes, ?_⟩
    rw [hadds.eq_of_ne_none (by rw [hfile]; nofun), hfile]

/-- One more artifact replaces what an earlier one has put into the same place, and leaves the
others alone. -/
theorem putFile (h : Written root artifacts t t') (hplace : entry? t' place ≠ some .directory)
    {bytes : ByteArray} (hbytes : a.source.utf8? = some bytes)
    (hleads : LeadsTo (Entries.put t' place (.file bytes)) (root.join a.path) place) :
    Written root (artifacts ++ [a]) t (Entries.put t' place (.file bytes)) := by
  have hgrows := grows_putFile hplace bytes
  have hself : entry? (Entries.put t' place (.file bytes)) place = some (.file bytes) :=
    entry?_put_self (isBase_eq_false hplace)
  constructor
  · intro other
    by_cases heq : other = place
    · exact Or.inr (Or.inr ⟨a, by simp, heq ▸ hleads⟩)
    · rw [entry?_put_of_ne heq]
      rcases h.others other with hsame | hnew | ⟨b, hb, hleads'⟩
      · exact Or.inl hsame
      · exact Or.inr (Or.inl hnew)
      · exact Or.inr (Or.inr ⟨b, List.mem_append_left _ hb, hleads'.mono hgrows⟩)
  · intro before x after hsplit
    -- the new artifact is the last one: it is `x`, or it comes behind `x`
    rcases List.eq_nil_or_concat after with rfl | ⟨earlier, last, rfl⟩
    · obtain ⟨-, rfl⟩ : artifacts = before ∧ a = x := by simpa using hsplit
      exact ⟨place, hleads, a, List.mem_cons_self, hleads, bytes, hbytes, hself⟩
    · obtain ⟨hinit, rfl⟩ : artifacts = before ++ x :: earlier ∧ a = last := by
        rw [List.concat_eq_append, ← List.cons_append, ← List.append_assoc] at hsplit
        simpa using List.append_inj' hsplit rfl
      obtain ⟨old, hx, b, hb, hb', content, hcontent, hfile⟩ := h.kept before x earlier hinit
      by_cases heq : old = place
      · subst heq
        exact ⟨old, hx.mono hgrows, a, by simp, hleads, bytes, hbytes, hself⟩
      · refine ⟨old, hx.mono hgrows, b, ?_, hb'.mono hgrows, content, hcontent, ?_⟩
        · rw [List.concat_eq_append, ← List.cons_append]
          exact List.mem_append_left _ hb
        · rw [entry?_put_of_ne heq, hfile]

end Written

end FileTree

open FileTree

namespace Pass

/-- An artifact on its way to a directory is saved, or ends the pass, or leaves nothing but directories
there. -/
theorem deliver_directory (source : Source) (root : Path) (t : FileTree) (before : List Event)
    (a : Artifact) :
    (∃ t' events ending, AddsDirectories t t' ∧
      deliver source (.directory root t) before a = ⟨none, events, .directory root t', ending⟩) ∨
    (∃ k, (deliver source (.directory root t) before a).ending = .fault k) ∨
    ∃ made place bytes location events, AddsDirectories t made ∧
      entry? made place ≠ some .directory ∧ a.source.utf8? = some bytes ∧
      LeadsTo (Entries.put made place (.file bytes)) (root.join a.path) place ∧
      deliver source (.directory root t) before a =
        ⟨some ⟨a, location⟩, events, .directory root (Entries.put made place (.file bytes)),
          .finished⟩ := by
  unfold deliver Sink.write
  rcases save_cases t (root.join a.path) a.source with
    ⟨t', e, hsave, hadds⟩ | ⟨t', k, hsave⟩ |
      ⟨made, place, bytes, hbytes, hsave, hadds, hplace, hleads⟩
  · simp only [hsave]
    exact Or.inl ⟨t', _, _, hadds, rfl⟩
  · simp only [hsave]
    exact Or.inr (Or.inl ⟨k, rfl⟩)
  · simp only [hsave]
    exact Or.inr (Or.inr ⟨made, place, bytes, _, _, hadds, hplace, hbytes, hleads, rfl⟩)

end Pass

namespace PassState

/-- The artifacts of the pass have been put into their files, in a tree that was `t` before. -/
def Wrote (st : PassState) (root : Path) (t : FileTree) : Prop :=
  ∃ t', st.sink = .directory root t' ∧ Written root st.artifacts t t'

namespace Wrote

variable {st : PassState} {root : Path} {t : FileTree}

theorem add (h : st.Wrote root t) {g : Generator} {source : Source}
    (hends : (Pass.contribute g st.sink source).ending.fault? = none) :
    (st.add (Pass.contribute g st.sink source)).Wrote root t := by
  obtain ⟨t', hsink, hwritten⟩ := h
  rw [hsink] at hends ⊢
  unfold Wrote
  rw [artifacts_add]
  cases ha : g.artifactOf? source with
  | none =>
    obtain ⟨events, ending, hnone, -⟩ := Pass.contribute_withholds ha
    rw [hnone]
    refine ⟨t', rfl, ?_⟩
    rwa [Option.toList_none, List.map_nil, List.append_nil]
  | some a =>
    obtain ⟨before, -, hdeliver⟩ := Pass.contribute_delivers ha
    rw [hdeliver] at hends ⊢
    rcases Pass.deliver_directory source root t' before a with
      ⟨made, events, ending, hadds, heq⟩ | ⟨k, hk⟩ |
        ⟨made, place, bytes, location, events, hadds, hplace, hbytes, hleads, heq⟩
    · rw [heq]
      refine ⟨made, rfl, ?_⟩
      rw [Option.toList_none, List.map_nil, List.append_nil]
      exact hwritten.addDirectories hadds
    · rw [hk] at hends
      cases hends
    · rw [heq]
      exact ⟨_, rfl, (hwritten.addDirectories hadds).putFile hplace hbytes hleads⟩

/-- By induction on the sources, unless one of them ends the pass by a fault. -/
theorem runFrom (h : st.Wrote root t) {g : Generator} {sources : List Source}
    (hreturned : (Pass.runFrom g st sources).2 = none) :
    (Pass.runFrom g st sources).1.Wrote root t := by
  induction sources generalizing st with
  | nil => exact h
  | cons source rest ih =>
    rw [Pass.runFrom_cons] at hreturned ⊢
    cases hends : (Pass.contribute g st.sink source).ending.fault? with
    | some k =>
      rw [hends] at hreturned
      cases hreturned
    | none =>
      simp only [hends] at hreturned ⊢
      split
      · exact h.add hends
      · rename_i hcontinues
        rw [if_neg hcontinues] at hreturned
        exact ih (h.add hends) hreturned

end Wrote

theorem wrote_initial (root : Path) (t : FileTree) : (initial (.directory root t)).Wrote root t :=
  ⟨t, rfl, written_nil root t⟩

end PassState

end PrefAccessor
