import PrefAccessor.Proofs.Confinement

/-!
# Comments in Kotlin

A class in Kotlin begins with a comment on one line, and with comments there is a second one in front
of its code. Whatever name, store and description a schema has and what the settings are, the first
ends with its line and the second where it is closed last, without another inside.
-/

namespace PrefAccessor.Kotlin

set_option autoImplicit false

open Reading Text

theorem IsComment.no_marks {cs : List CodePoint} (h : IsComment cs) :
    ¬[char '*', char '/'] <:+: cs ∧ ¬[char '/', char '*'] <:+: cs := by
  have hpair {a b : CodePoint} (hmark : [a, b] <:+: cs) : Apart a b := by
    obtain ⟨front, back, rfl⟩ := hmark
    exact List.isChain_pair.mp (List.IsChain.right_of_append (List.IsChain.left_of_append h))
  exact ⟨fun hmark => (hpair hmark).1 ⟨rfl, rfl⟩, fun hmark => (hpair hmark).2 ⟨rfl, rfl⟩⟩

theorem isComment_ofLines {ls : List (List CodePoint)} (h : ∀ l ∈ ls, IsComment l) :
    IsComment (ofLines ls) := by
  induction ls with
  | nil => exact .nil
  | cons l ls ih =>
    have hfeed : IsNeutral '\n' := by decide
    have hrest : IsComment (char '\n' :: ofLines ls) :=
      List.isChain_cons.mpr ⟨fun b _ => hfeed.apart_left b,
        ih fun k hk => h k (List.mem_cons_of_mem l hk)⟩
    rw [ofLines_cons]
    exact (h l List.mem_cons_self).append hrest (Or.inr ⟨'\n', rfl, hfeed⟩)

/-- A comment between stars, from the mark that opens it to the one that closes it. -/
structure IsOneComment (cs : List CodePoint) : Prop where
  opened : ∀ before after, cs = before ++ char '/' :: char '*' :: after → before = []
  closed : ∀ before after, cs = before ++ char '*' :: char '/' :: after → after = []
  reads : Reads step .code cs .code [.comment]

/-- A mark behind the first slash and in front of the last one stands between them. -/
theorem infix_of_between {a b x y : CodePoint} {cs before after : List CodePoint}
    (h : x :: cs ++ [y] = before ++ a :: b :: after) (hbefore : before ≠ []) (hafter : after ≠ []) :
    [a, b] <:+: cs := by
  obtain ⟨d, front, rfl⟩ := List.exists_cons_of_ne_nil hbefore
  obtain ⟨back, e, hback⟩ := (List.eq_nil_or_concat after).resolve_left hafter
  rw [List.concat_eq_append] at hback
  have hinner : cs ++ [y] = front ++ [a, b] ++ back ++ [e] := by
    simpa [hback] using (List.cons.inj h).2
  exact ⟨front, back, (List.append_inj_left' hinner rfl).symm⟩

theorem IsComment.opened {cs : List CodePoint} (h : IsComment cs) {before after : List CodePoint}
    (heq : char '/' :: cs ++ [char '/'] = before ++ char '/' :: char '*' :: after) : before = [] := by
  by_contra hbefore
  have hafter : after ≠ [] := by
    rintro rfl
    have hlast := congrArg List.getLast? heq
    rw [List.getLast?_concat] at hlast
    simp at hlast
  exact h.no_marks.2 (infix_of_between heq hbefore hafter)

theorem IsComment.closed {cs : List CodePoint} (h : IsComment cs) {before after : List CodePoint}
    (heq : char '/' :: cs ++ [char '/'] = before ++ char '*' :: char '/' :: after) : after = [] := by
  by_contra hafter
  have hbefore : before ≠ [] := by
    rintro rfl
    simp at heq
  exact h.no_marks.1 (infix_of_between heq hbefore hafter)

/-- The comment of a class, with its lines as the layout leaves them. -/
def classComment (c : AccessorClass) : List CodePoint :=
  ("/**\n" : Text).toList ++ ofLines (settleLines 0 ((commentBody c).map Text.toList)) ++
    (" */" : Text).toList

theorem isOneComment_classComment (c : AccessorClass) : IsOneComment (classComment c) := by
  have hlines := isComment_settleLines (isComment_commentBody c) 0
  have hopen : IsComment ("**\n" : Text).toList := isComment_ofList (by decide)
  have hclose : IsComment (" *" : Text).toList := isComment_ofList (by decide)
  have hinside : IsComment (("**\n" : Text).toList ++
      ofLines (settleLines 0 ((commentBody c).map Text.toList)) ++ (" *" : Text).toList) :=
    (hopen.append (isComment_ofLines hlines) (Or.inl ⟨'\n', rfl, by decide⟩)).append hclose
      (Or.inr ⟨' ', rfl, by decide⟩)
  have heq : classComment c = char '/' :: (("**\n" : Text).toList ++
      ofLines (settleLines 0 ((commentBody c).map Text.toList)) ++ (" *" : Text).toList) ++
        [char '/'] := by
    simp [classComment]
  refine ⟨?_, ?_, ?_⟩
  · intro before after h
    exact hinside.opened (heq.symm.trans h)
  · intro before after h
    exact hinside.closed (heq.symm.trans h)
  · have hbegin : Reads step .code ("/**\n" : Text).toList (.block 0) [] := rfl
    have hend : Reads step (.block 0) (" */" : Text).toList .code [.comment] := rfl
    exact (hbegin.append (readsLines_comment (isComment_commentBody c) 0)).append hend

/-- What stands between the first line of a class and its comment. -/
def preamble (contextClass package : Text) : List Text :=
  packagePieces (packageName (packageSegments package)) ++
    .plain "" :: (imports contextClass).map (.plain "import " ++ ·) ++ ([""] : List Text)

theorem sourceLines_first (o : Options) (segments : List Text) (c : AccessorClass) :
    ∃ below, sourceLines o segments c = firstLine c :: below :=
  ⟨_, rfl⟩

theorem sourceLines_comment {o : Options} (h : o.comments = true) (package : Text)
    (c : AccessorClass) :
    ∃ below, sourceLines o (packageSegments package) c =
      firstLine c :: (preamble o.contextClass package ++ .plain "/**" :: commentBody c) ++
        .plain " */" :: below := by
  unfold sourceLines commentLines preamble packagePieces firstLine commentBody
  simp only [h, if_true, List.append_assoc, List.cons_append, List.nil_append]
  exact ⟨_, rfl⟩

theorem full_firstLine (c : AccessorClass) : IsFull (firstLine c).toList :=
  full_append (by decide) _

theorem sourceOf_first (o : Options) (segments : List Text) (c : AccessorClass) :
    ∃ below, (Generator.sourceOf (sourceLines o segments c)).toList =
      (firstLine c).toList ++ char '\n' :: below := by
  obtain ⟨below, hbelow⟩ := sourceLines_first o segments c
  obtain ⟨kept, hkept⟩ := layoutLines_first (full_firstLine c) (linesOf below)
  have hlines : linesOf (sourceLines o segments c) = (firstLine c).toList :: linesOf below := by
    rw [hbelow, linesOf_cons (feedless_firstLine c)]
  rw [← hlines] at hkept
  refine ⟨ofLines kept, ?_⟩
  rw [Generator.sourceOf_eq_ofLines hkept (by simp), ofLines_cons]

theorem sourceOf_comment {o : Options} (h : o.comments = true) (package : Text)
    (c : AccessorClass) :
    ∃ below, (Generator.sourceOf (sourceLines o (packageSegments package) c)).toList =
      (firstLine c).toList ++ char '\n' ::
        (ofLines (settleLines 0 (linesOf (preamble o.contextClass package))) ++ classComment c ++
          char '\n' :: below) := by
  have hopen : Feedless "/**" := by decide
  have hclose : Feedless " */" := by decide
  obtain ⟨below, hbelow⟩ := sourceLines_comment h package c
  obtain ⟨kept, hkept⟩ := layoutLines_between (full_firstLine c) (l := (" */" : Text).toList) (by decide)
    (linesOf (preamble o.contextClass package) ++
      ("/**" : Text).toList :: (commentBody c).map Text.toList)
    (linesOf below)
  have hlines : linesOf (sourceLines o (packageSegments package) c) =
      (firstLine c).toList :: (linesOf (preamble o.contextClass package) ++
        ("/**" : Text).toList :: (commentBody c).map Text.toList) ++
          (" */" : Text).toList :: linesOf below := by
    rw [hbelow, linesOf_append, linesOf_cons (feedless_firstLine c), linesOf_append,
      linesOf_cons hopen, linesOf_cons hclose, linesOf_of_feedless (feedless_commentBody c)]
  rw [← hlines, settleLines_full (l := ("/**" : Text).toList) (by decide)] at hkept
  refine ⟨ofLines kept, ?_⟩
  rw [Generator.sourceOf_eq_ofLines hkept (by simp)]
  simp [classComment]

theorem isLineBreak_firstLine (c : AccessorClass) :
    ∀ ch ∈ (firstLine c).toList, isLineBreak ch = false := by
  have htext : IsPlain (fun ch => !isLineBreak ch) (commentText c.schema.name) := by
    intro ch hch
    have hbreak := isLineBreak_commentText c.schema.name ch hch
    have hfeed : ch ≠ '\n' := by
      rintro rfl
      cases hbreak
    simp [hbreak, hfeed]
  have hline : IsPlain (fun ch => !isLineBreak ch) (firstLine c) :=
    isPlain_append.mpr
      ⟨isPlain_append.mpr ⟨isPlain_ofList (by decide), htext⟩, isPlain_ofList (by decide)⟩
  intro ch hch
  simpa using hline.mem hch

theorem sourceLines_of_kotlin {g : Generator} (h : g.target = .kotlin) {indent package : Text}
    {c : AccessorClass} {lines : List Text} (hlines : g.sourceLines indent package c = .ok lines) :
    ∃ name dispatcher, g.profile = .kotlin (.string name) dispatcher ∧
      lines = sourceLines ⟨name, g.settings.addComments.isSet, indent⟩
        (packageSegments package) c := by
  cases hprofile : g.profile with
  | python typeHints =>
    rw [Generator.target, hprofile] at h
    cases h
  | kotlin context dispatcher =>
    rw [Generator.sourceLines, hprofile] at hlines
    cases context with
    | string name => exact ⟨name, dispatcher, rfl, (Except.ok.inj hlines).symm⟩
    | _ => cases hlines

/-- A text of the schema in a comment has no mark of comments and stays on its line. Under any
settings the first line of a generated text is one comment, and the comment in front of the class,
below the package and the imports, ends where it is closed last, with no other inside. -/
theorem comments_end_at_own_marks :
    (∀ s : Text, ¬[char '*', char '/'] <:+: (commentText s).toList ∧
      ¬[char '/', char '*'] <:+: (commentText s).toList ∧
      ∀ ch ∈ (commentText s).toList, isLineBreak ch = false) ∧
    ∀ (g : Generator) (s : Schema) (a : Artifact), g.target = .kotlin → g.generate s = .ok a →
      ∃ contextClass dispatcher rest, g.profile = .kotlin (.string contextClass) dispatcher ∧
        a.accessorClass.schema = s ∧ IsOneComment (classComment a.accessorClass) ∧
          a.source.toList = (firstLine a.accessorClass).toList ++ char '\n' :: rest ∧
          (∀ ch ∈ (firstLine a.accessorClass).toList, isLineBreak ch = false) ∧
          Reads step .code ((firstLine a.accessorClass).toList ++ [char '\n']) .code
            [.comment, .code '\n'] ∧
          (g.settings.addComments.isSet = true → ∃ below,
            rest = ofLines (settleLines 0 (linesOf (preamble contextClass a.package))) ++
              classComment a.accessorClass ++ char '\n' :: below) := by
  refine ⟨?_, ?_⟩
  · intro s
    obtain ⟨hclose, hopen⟩ := (isComment_commentText s).no_marks
    exact ⟨hclose, hopen, isLineBreak_commentText s⟩
  · intro g s a htarget ha
    obtain ⟨hc, -⟩ := Generator.generate_eq_ok ha
    obtain ⟨-, -, hschema, -⟩ := Generator.accessorClass_eq_ok.mp hc
    obtain ⟨indent, _, lines, -, -, hlines, hsource, -, rfl⟩ := Generator.generate_text ha
    obtain ⟨name, dispatcher, hprofile, rfl⟩ := sourceLines_of_kotlin htarget hlines
    have hone := isOneComment_classComment a.accessorClass
    have hbreak := isLineBreak_firstLine a.accessorClass
    have hfirst := reads_firstLine a.accessorClass
    refine ⟨name, dispatcher, ?_⟩
    rw [hsource]
    cases hcomments : g.settings.addComments.isSet with
    | false =>
      obtain ⟨rest, hrest⟩ := sourceOf_first ⟨name, false, indent⟩ (packageSegments a.package)
        a.accessorClass
      exact ⟨rest, hprofile, hschema, hone, hrest, hbreak, hfirst, nofun⟩
    | true =>
      obtain ⟨below, hbelow⟩ := sourceOf_comment (o := ⟨name, true, indent⟩) rfl a.package
        a.accessorClass
      exact ⟨_, hprofile, hschema, hone, hbelow, hbreak, hfirst, fun _ => ⟨below, rfl⟩⟩

/-- A schema whose texts hold marks of comments that share a slash or a star. -/
def starredSchema : Schema where
  name := "Log */*"
  package := "app"
  storeName := "/*/ fun"
  fields := [⟨"user", "user", .string, none, false⟩]
  description := some "**//\n/*/"

theorem starred_comments_end :
    ¬[char '*', char '/'] <:+: (commentText "**//\n/*/").toList ∧
      (Generator.plain .kotlin 4).target = .kotlin ∧
        (Generator.plain .kotlin 4).settings.addComments.isSet = true ∧
          ∃ a below, (Generator.plain .kotlin 4).generate starredSchema = .ok a ∧
            a.source.toList = (firstLine a.accessorClass).toList ++ char '\n' ::
              (ofLines (settleLines 0 (linesOf (preamble "android.content.Context" a.package))) ++
                classComment a.accessorClass ++ char '\n' :: below) ∧
            IsOneComment (classComment a.accessorClass) := by
  have htarget : (Generator.plain .kotlin 4).target = .kotlin := rfl
  have hcomments : (Generator.plain .kotlin 4).settings.addComments.isSet = true := rfl
  obtain ⟨ms, hms⟩ : ∃ ms, (Generator.plain .kotlin 4).methods starredSchema.fields = .ok ms := by
    refine Generator.methods_ok_iff.mpr fun f hf => ?_
    rw [List.mem_singleton.mp hf]
    exact ⟨_, rfl⟩
  obtain ⟨a, ha⟩ := (Generator.plain_wellTyped .kotlin 4).exists_artifact rfl
    (Generator.plain_indent (le_refl 4)) hms
  obtain ⟨htexts, hmade⟩ := comments_end_at_own_marks
  obtain ⟨_, _, rest, hprofile, -, hone, hsource, -, -, hcomment⟩ :=
    hmade (Generator.plain .kotlin 4) starredSchema a htarget ha
  cases hprofile
  obtain ⟨below, hrest⟩ := hcomment hcomments
  rw [hrest] at hsource
  exact ⟨(htexts "**//\n/*/").1, htarget, hcomments, a, below, ha, hsource, hone⟩

end PrefAccessor.Kotlin
