import QueryAdvisor.Proofs.Placement
/-!
# Where each placement move comes from

The placement advisor gathers its candidate moves from four producers, and each producer makes
moves of one kind only: reorderings, pushes below joins, early filters and moves towards
indexes. Keeping the best move of each position only drops candidates. So a move the advisor
returns is a candidate, and its kind names the producer that made it (`candidates_of_kind`).
A fact about the pushes or the moves towards indexes of the advisor's answer is then a fact
about one producer.

* `reorder_kind`, `pushToJoins_target`, `earlyFilters_kind`: what each producer makes.
* `IndexMove`, `forIndexes_moves`: a move towards an index carries the predicate at its
  position, moves it one place up, and names a column of it that matches an indexed column.
* `mem_candidates_of_analyze`: **every move the advisor returns is a candidate**;
  `analyze_eq_kept`: the advisor returns the candidates it keeps.
* `candidates_of_kind`: **a candidate's kind names its producer.**
-/

namespace QueryAdvisor

namespace PushdownAdvisor

/-! ## What each producer makes -/

theorem reorder_kind (a : PushdownAdvisor) (preds : List Predicate) :
    ∀ s ∈ a.reorder preds, s.kind = .reorderBySelectivity := by
  unfold reorder
  dsimp only
  split
  · intro s hs
    exact absurd hs List.not_mem_nil
  · intro s hs
    obtain ⟨⟨p, i⟩, -, hs⟩ := List.mem_filterMap.mp hs
    dsimp only at hs
    split at hs
    · cases hs
    · cases hs
      rfl

theorem pushToJoins_target (preds : List Predicate) (g : JoinGraph) :
    ∀ s ∈ pushToJoins preds g, s.kind = .pushToJoinSource ∧ ∃ T, s.target = some T ∧ g.canPush s.predicate T = true := by
  intro s hs
  obtain ⟨⟨p, i⟩, -, hs⟩ := List.mem_filterMap.mp (by simpa only [pushToJoins] using hs)
  obtain ⟨T, hfind, rfl⟩ := Option.map_eq_some_iff.mp hs
  exact ⟨rfl, T, rfl, List.find?_some hfind⟩

theorem earlyFilters_kind (preds : List Predicate) : ∀ s ∈ earlyFilters preds, s.kind = .earlyFilter := by
  unfold earlyFilters
  split
  · intro s hs
    exact absurd hs List.not_mem_nil
  · intro s hs
    obtain ⟨⟨p, i⟩, -, hs⟩ := List.mem_filterMap.mp hs
    dsimp only at hs
    split at hs
    · cases hs
    · cases hs
      rfl

end PushdownAdvisor

/-- A move towards an index among the predicates `preds`, given the indexed columns `indexed`:
it carries the predicate at its position and moves it one place up, and the predicate's column
is not empty and matches an indexed column up to ASCII case, as its reason says. -/
structure IndexMove (preds : List Predicate) (indexed : List String) (s : PushdownSuggestion) : Prop where
  kind_eq : s.kind = .indexFriendlyReorder
  predicate_eq : preds[s.fromPos]? = some s.predicate
  toPos_eq : s.toPos = s.fromPos - 1
  column : ∃ column, s.predicate.column? = some column ∧ column ≠ "" ∧
    (∃ c ∈ indexed, sameName (unqualified c) column = true) ∧
    s.reason = "Column '" ++ column ++ "' is indexed; evaluating `" ++ s.predicate.sql ++
      "` earlier lets the index narrow the scan"

namespace PushdownAdvisor

theorem forIndexes_moves (preds : List Predicate) (indexed : List String) :
    OkOnly (fun moves => ∀ s ∈ moves, IndexMove preds indexed s) (forIndexes preds indexed) := by
  unfold forIndexes
  refine (OkOnly.mapM (R := fun found => ∀ s, found = some s → IndexMove preds indexed s)
    (fun pi hpi => ?_)).bind (fun found hfound => OkOnly.ok ?_)
  · obtain ⟨p, i⟩ := pi
    have hget : preds[i]? = some p := List.mk_mem_zipIdx_iff_getElem?.mp hpi
    simp only [indexMove]
    split
    · exact OkOnly.ok (fun _ h => by cases h)
    · next column hcol =>
      split
      · exact OkOnly.error _
      · next hne =>
        split
        · next hany =>
          refine OkOnly.ok (fun s hs => ?_)
          cases hs
          have hne' : column ≠ "" := by simpa [String.isEmpty_iff] using hne
          exact ⟨rfl, hget, rfl, column, hcol, hne', List.any_eq_true.mp hany, rfl⟩
        · exact OkOnly.ok (fun _ h => by cases h)
  · intro s hs
    exact hfound (some s) (List.reduceOption_mem_iff.mp hs) s rfl

/-! ## The moves returned -/

/-- **Every move the advisor returns is a candidate**, gathered with the moves towards indexes
that it found. -/
theorem mem_candidates_of_analyze (a : PushdownAdvisor) {q : Query} {moves : List PushdownSuggestion}
    (h : a.analyze q = .ok moves) {s : PushdownSuggestion} (hs : s ∈ moves) :
    ∃ toIndexes, forIndexes q.predicates (a.indexedColumns q) = .ok toIndexes ∧ s ∈ a.candidates q toIndexes := by
  cases hq : isBlankText q.table
  · rw [a.analyze_eq q hq] at h
    obtain ⟨toIndexes, hidx, hmoves⟩ := Except.bind_eq_ok.mp h
    refine ⟨toIndexes, hidx, ?_⟩
    cases hmoves
    have hkept := (List.mergeSort_perm (((a.candidates q toIndexes).foldl keepBest [])) _).mem_iff.mp hs
    exact ((keepsBest_foldl _ _ (a.candidates q toIndexes)).best s hkept).mem
  · simp [analyze, hq] at h

/-- Once the moves towards indexes are found, the advisor returns the kept candidates, sorted
by position. -/
theorem analyze_eq_kept (a : PushdownAdvisor) {q : Query} (hq : isBlankText q.table = false)
    {toIndexes : List PushdownSuggestion} (hidx : forIndexes q.predicates (a.indexedColumns q) = .ok toIndexes) :
    ∃ moves, a.analyze q = .ok moves ∧ ∀ s, s ∈ moves ↔ s ∈ (a.candidates q toIndexes).foldl keepBest [] := by
  rw [a.analyze_eq q hq, hidx]
  exact ⟨_, rfl, fun s => (List.mergeSort_perm _ _).mem_iff⟩

/-- A kind of move found among the kept candidates, before they are sorted, is among the moves
the advisor returns. The check is computable: sorting is what stops evaluation. -/
theorem exists_move_of_kept (a : PushdownAdvisor) {q : Query} (hq : isBlankText q.table = false) (k : PushdownKind)
    (hkept : (forIndexes q.predicates (a.indexedColumns q)).toOption.any
      (fun t => ((a.candidates q t).foldl keepBest []).any (·.kind == k)) = true) :
    ∃ moves, a.analyze q = .ok moves ∧ ∃ s ∈ moves, s.kind = k := by
  cases hidx : forIndexes q.predicates (a.indexedColumns q) with
  | error e => simp [hidx, Except.toOption] at hkept
  | ok toIndexes =>
    obtain ⟨s, hs, hkind⟩ : ∃ s ∈ (a.candidates q toIndexes).foldl keepBest [], s.kind = k := by
      simpa [hidx, Except.toOption] using hkept
    obtain ⟨moves, hm, hmem⟩ := a.analyze_eq_kept hq hidx
    exact ⟨moves, hm, s, (hmem s).mpr hs, hkind⟩

/-- **A candidate's kind names its producer**: a push below a join comes from the pushes of a
query with joins, and a move towards an index from the moves towards indexes. -/
theorem candidates_of_kind (a : PushdownAdvisor) (q : Query) {toIndexes : List PushdownSuggestion}
    (hidx : ∀ s ∈ toIndexes, s.kind = .indexFriendlyReorder) {s : PushdownSuggestion}
    (hs : s ∈ a.candidates q toIndexes) :
    (s.kind = .pushToJoinSource → q.hasJoins = true ∧ s ∈ pushToJoins q.predicates (JoinGraph.ofQuery q)) ∧
      (s.kind = .indexFriendlyReorder → s ∈ toIndexes) := by
  simp only [candidates, List.mem_append] at hs
  rcases hs with ((hs | hs) | hs) | hs
  · have hk := a.reorder_kind _ s hs
    simp [hk]
  · split at hs
    · next hj =>
      have hk := (pushToJoins_target _ _ s hs).1
      simp [hk, hj, hs]
    · exact absurd hs List.not_mem_nil
  · have hk := earlyFilters_kind _ s hs
    simp [hk]
  · have hk := hidx s hs
    simp [hk, hs]

end PushdownAdvisor

end QueryAdvisor
