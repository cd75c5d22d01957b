import Mathlib.Data.List.Forall2
import PrefAccessor.Proofs.Contribution

/-!
# What a pass leaves of each source

Whatever the settings and the sink, a pass that returns leaves of each source that it has taken its
artifact or one error: `runFrom_leaves`. A source without an artifact costs the others nothing, since
the pass over the remaining sources delivers the same: `runFrom_producing`.
-/

namespace PrefAccessor

set_option autoImplicit false

/-- The error about an artifact that could not be written. -/
def Source.unwritten (source : Source) (location : Text) (e : OsError) : Diagnostic :=
  ⟨.error, (RefusalCause.notWritten location e).message, source.label⟩

/-- What a pass leaves of a source: its artifact, or one error where it comes to none or the file
system does not take it. -/
inductive Source.Leaves (g : Generator) (source : Source) : Diagnostic ⊕ Artifact → Prop
  | artifact {a : Artifact} (h : g.artifactOf? source = some a) : Leaves g source (.inr a)
  | unwritten {a : Artifact} (h : g.artifactOf? source = some a) (location : Text) (e : OsError) :
      Leaves g source (.inl (source.unwritten location e))
  | withheld (h : g.artifactOf? source = none) (d : Diagnostic) : Leaves g source (.inl d)

/-- A sink refuses a text for a cause of the file system only. -/
theorem Sink.write_eq_refused {sink sink' : Sink} {path : Path} {text : Text} {r : Refusal}
    (h : sink.write path text = (sink', .refused r)) :
    ∃ location e, r = ⟨.notWritten location e, none⟩ := by
  cases sink with
  | discard => cases h
  | memory files => cases h
  | directory root t =>
    unfold write at h
    rcases hsave : t.save (root.join path) text with ⟨t', _ | e | k⟩
    · simp [hsave] at h
    · simp only [hsave] at h
      cases h
      exact ⟨_, e, rfl⟩
    · simp [hsave] at h

namespace Pass

variable {g : Generator} {st st' : PassState} {sources : List Source}

theorem deliver_cases {source : Source} {before : List Event} (hbefore : IsQuiet before)
    (sink : Sink) (a : Artifact) :
    (∃ k, (deliver source sink before a).ending = .fault k) ∨
      (∃ location, (deliver source sink before a).delivered = some ⟨a, location⟩ ∧
        ofSeverity .error (deliver source sink before a).diagnostics = []) ∨
      ∃ location e, (deliver source sink before a).delivered = none ∧
        ofSeverity .error (deliver source sink before a).diagnostics =
          [source.unwritten location e] := by
  unfold deliver
  rcases hwrite : sink.write a.path a.source with ⟨sink', location | r | k⟩
  · refine Or.inr (Or.inl ⟨location, rfl, ?_⟩)
    have htrace : IsQuiet (if sink'.usesFiles then [Event.info ("Wrote " ++ location.getD "")]
        else []) := by
      apply IsQuiet.traces
      split
      · exact fun e he => ⟨_, List.mem_singleton.mp he⟩
      · exact fun e he => absurd he List.not_mem_nil
    rw [Contribution.diagnostics, diagnosticsOf_append, ofSeverity_append,
      (hbefore.append htrace).1]
    rfl
  · obtain ⟨location, e, rfl⟩ := Sink.write_eq_refused hwrite
    exact Or.inr (Or.inr ⟨location, e, rfl, error_of_quiet hbefore rfl rfl⟩)
  · exact Or.inl ⟨k, rfl⟩

/-- What one source leaves, unless it ends the pass. -/
theorem contribute_leaves (source : Source) {sink : Sink}
    (hends : (contribute g sink source).ending.fault? = none) :
    ∃ outcome, source.Leaves g outcome ∧
      (contribute g sink source).delivered.toList.map Delivered.artifact =
        outcome.getRight?.toList ∧
      ofSeverity .error (contribute g sink source).diagnostics = outcome.getLeft?.toList := by
  cases ha : g.artifactOf? source with
  | none =>
    obtain ⟨events, ending, hnone, hcases⟩ := contribute_withholds ha
    rw [hnone] at hends ⊢
    rcases hcases with ⟨k, rfl⟩ | ⟨d, hd⟩
    · cases hends
    · exact ⟨.inl d, .withheld ha d, rfl, hd⟩
  | some a =>
    obtain ⟨before, hbefore, hdeliver⟩ := contribute_delivers ha
    rw [hdeliver] at hends ⊢
    rcases deliver_cases hbefore sink a with
      ⟨k, hk⟩ | ⟨location, hdelivered, herrors⟩ | ⟨location, e, hdelivered, herrors⟩
    · rw [hk] at hends
      cases hends
    · exact ⟨.inr a, .artifact ha, by rw [hdelivered]; rfl, herrors⟩
    · exact ⟨.inl _, .unwritten ha location e, by rw [hdelivered]; rfl, herrors⟩

theorem filterMap_cons_toList {α β : Type} (f : α → Option β) (x : α) (xs : List α) :
    (x :: xs).filterMap f = (f x).toList ++ xs.filterMap f := by
  rw [List.filterMap_cons]
  cases f x <;> rfl

/-- By induction on the sources: the artifacts and the errors of a pass are what its sources leave, in
order, and nothing else. -/
theorem runFrom_leaves (h : (runFrom g st sources).2 = none) :
    ∃ outcomes, List.Forall₂ (Source.Leaves g) (reached g sources) outcomes ∧
      (runFrom g st sources).1.artifacts = st.artifacts ++ outcomes.filterMap Sum.getRight? ∧
      (runFrom g st sources).1.errors = st.errors ++ outcomes.filterMap Sum.getLeft? := by
  induction sources generalizing st with
  | nil => exact ⟨[], .nil, (List.append_nil _).symm, (List.append_nil _).symm⟩
  | cons source rest ih =>
    rw [runFrom_cons] at h ⊢
    cases hends : (contribute g st.sink source).ending.fault? with
    | some k =>
      rw [hends] at h
      cases h
    | none =>
      obtain ⟨outcome, hleaves, hartifacts, herrors⟩ := contribute_leaves source hends
      have hadd : (st.add (contribute g st.sink source)).artifacts =
          st.artifacts ++ outcome.getRight?.toList := by
        rw [PassState.artifacts_add, hartifacts]
      have hadd' : (st.add (contribute g st.sink source)).errors =
          st.errors ++ outcome.getLeft?.toList := by
        rw [PassState.errors, PassState.diagnostics_add, ofSeverity_append, herrors]
        rfl
      rw [hends] at h
      cases hlast : g.settings.stopOnEmptySchema.isSet && source.isEmpty with
      | true =>
        refine ⟨[outcome], ?_, ?_, ?_⟩
        · rw [reached, hlast]
          exact .cons hleaves .nil
        · rw [filterMap_cons_toList, List.filterMap_nil, List.append_nil]
          exact hadd
        · rw [filterMap_cons_toList, List.filterMap_nil, List.append_nil]
          exact (PassState.errors_report _).trans hadd'
      | false =>
        simp only [hlast, Bool.false_eq_true, if_false] at h ⊢
        obtain ⟨outcomes, hall, hartifacts', herrors'⟩ := ih h
        refine ⟨outcome :: outcomes, ?_, ?_, ?_⟩
        · rw [reached, hlast]
          exact .cons hleaves hall
        · rw [hartifacts', hadd, filterMap_cons_toList, List.append_assoc]
        · rw [herrors', hadd', filterMap_cons_toList, List.append_assoc]

/-- Of no source an error is left exactly if all have left their artifacts. -/
theorem leaves_no_error_iff {outcomes : List (Diagnostic ⊕ Artifact)}
    (h : List.Forall₂ (Source.Leaves g) sources outcomes) :
    outcomes.filterMap Sum.getLeft? = [] ↔
      List.Forall₂ (fun source a => g.artifactOf? source = some a) sources
        (outcomes.filterMap Sum.getRight?) := by
  induction h with
  | nil => simp
  | @cons source outcome sources outcomes hleaves hrest ih =>
    cases outcome with
    | inl d =>
      -- one artifact too few is left, since none of the others leaves two
      have hlength := hrest.length_eq
      have hle := List.length_filterMap_le Sum.getRight? outcomes
      simp only [List.filterMap_cons, Sum.getLeft?_inl, Sum.getRight?_inl, reduceCtorEq, false_iff]
      intro hall
      have hall' := hall.length_eq
      rw [List.length_cons] at hall'
      omega
    | inr a =>
      cases hleaves with
      | artifact ha =>
        simp only [List.filterMap_cons, Sum.getLeft?_inr, Sum.getRight?_inr, List.forall₂_cons, ha,
          true_and, ih]

/-- A pass that returns has reported no error exactly if each source that it has taken has left its
artifact. -/
theorem run_errors_eq_nil_iff {sink : Sink} (h : (run g sink sources).2 = none) :
    (run g sink sources).1.errors = [] ↔
      List.Forall₂ (fun source a => g.artifactOf? source = some a) (reached g sources)
        (run g sink sources).1.artifacts := by
  obtain ⟨outcomes, hall, hartifacts, herrors⟩ := runFrom_leaves h
  rw [run, hartifacts, herrors]
  exact leaves_no_error_iff hall

theorem take_processed {sink : Sink} (h : (run g sink sources).2 = none) :
    sources.take (run g sink sources).1.processed = reached g sources := by
  have hprocessed : (run g sink sources).1.processed = 0 + (reached g sources).length :=
    processed_runFrom h
  rw [hprocessed, Nat.zero_add]
  exact (List.prefix_iff_eq_take.mp (reached_isPrefix g sources)).symm

/-- The sources that come to artifacts. -/
def producing (g : Generator) (sources : List Source) : List Source :=
  sources.filter fun source => (g.artifactOf? source).isSome

theorem producing_cons_of_none {source : Source} (h : g.artifactOf? source = none)
    (sources : List Source) : producing g (source :: sources) = producing g sources := by
  simp [producing, h]

theorem producing_cons_of_some {source : Source} {a : Artifact} (h : g.artifactOf? source = some a)
    (sources : List Source) : producing g (source :: sources) = source :: producing g sources := by
  simp [producing, h]

theorem isEmpty_of_artifactOf? {source : Source} {a : Artifact} (h : g.artifactOf? source = some a) :
    source.isEmpty = false := by
  obtain ⟨before, -, hdeliver⟩ := contribute_delivers h
  have hne : (contribute g .discard source).ending ≠ .empty := by
    rw [hdeliver]
    exact deliver_ne_empty
  rwa [Ne, ending_eq_empty_iff, Bool.not_eq_true] at hne

/-- By induction on the sources: one without an artifact changes neither what is delivered nor the
sink, so that a pass from there on goes as it would without this source. -/
theorem runFrom_producing (hdelivered : st.delivered = st'.delivered) (hsink : st.sink = st'.sink)
    (h : (runFrom g st sources).2 = none) :
    (runFrom g st' (producing g (reached g sources))).2 = none ∧
      (runFrom g st' (producing g (reached g sources))).1.delivered =
        (runFrom g st sources).1.delivered ∧
      (runFrom g st' (producing g (reached g sources))).1.sink = (runFrom g st sources).1.sink := by
  induction sources generalizing st st' with
  | nil => exact ⟨rfl, hdelivered.symm, hsink.symm⟩
  | cons source rest ih =>
    rw [runFrom_cons] at h ⊢
    cases hends : (contribute g st.sink source).ending.fault? with
    | some k =>
      rw [hends] at h
      cases h
    | none =>
      rw [hends] at h
      cases ha : g.artifactOf? source with
      | none =>
        -- only the first pass takes the source, and it ends up where the second one is
        obtain ⟨events, ending, hnone, -⟩ := contribute_withholds ha
        have hdelivered' : (st.add (contribute g st.sink source)).delivered = st'.delivered := by
          rw [hnone, ← hdelivered]
          exact List.append_nil _
        have hsink' : (st.add (contribute g st.sink source)).sink = st'.sink := by
          rw [hnone, ← hsink]
          rfl
        cases hlast : g.settings.stopOnEmptySchema.isSet && source.isEmpty with
        | true =>
          rw [reached, hlast, producing_cons_of_none ha]
          exact ⟨rfl, hdelivered'.symm, hsink'.symm⟩
        | false =>
          rw [reached, hlast, producing_cons_of_none ha]
          simp only [hlast, Bool.false_eq_true, if_false] at h ⊢
          exact ih hdelivered' hsink' h
      | some a =>
        -- both passes take the source, and neither ends with it
        have hlast : (g.settings.stopOnEmptySchema.isSet && source.isEmpty) = false := by
          rw [isEmpty_of_artifactOf? ha, Bool.and_false]
        have hdelivered' : (st.add (contribute g st.sink source)).delivered =
            (st'.add (contribute g st.sink source)).delivered := by
          rw [PassState.add, PassState.add, hdelivered]
        rw [reached, hlast, producing_cons_of_some ha, runFrom_cons, ← hsink, hends, hlast]
        simp only [hlast, Bool.false_eq_true, if_false] at h ⊢
        exact ih hdelivered' rfl h

end Pass

end PrefAccessor
