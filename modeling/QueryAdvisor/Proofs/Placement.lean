import Mathlib.Data.List.ReduceOption
import QueryAdvisor.Proofs.KeepBest
import QueryAdvisor.Proofs.Success
import QueryAdvisor.Advisor.Pushdown
/-!
# What the placement advisor returns

The placement advisor gathers candidate moves of four kinds and keeps one per position. Each
kind draws its moves from the predicates with their positions. So every candidate carries the
predicate at its position and moves it to a position of the list. A reordering moves it to its
place in the order by selectivity. A push below a join and an early filter move it to the front.
A move towards an index moves it one place up. Only the moves towards indexes can fail, and
they fail on the first predicate whose column is empty.

The candidates then go through `keepBestBy` keyed by position (`Proofs/KeepBest`) and are
sorted by position. So the list names each position that some candidate names, once, in
increasing order, and at each position it has the first candidate of the highest priority.

* `PushdownSuggestion.MovesWithin`: a move of one of the predicates to one of their positions.
* `reorder_movesWithin`, `pushToJoins_movesWithin`, `earlyFilters_movesWithin`,
  `forIndexes_movesWithin`: every kind of suggestion moves within the predicates.
* `forIndexes_outcome`: the moves towards indexes fail exactly at the first predicate whose
  column is empty.
* `placementSpec_keepBest`: what keeping the best move of each position and sorting give.
* `placement_contract`: **for a query with a base table, the advisor fails exactly at the first
  predicate whose column is empty. Otherwise it lists one move for each position that a
  candidate names, by increasing position. Each move stays within the predicates and is the
  first candidate of the highest priority at its position.**
-/

namespace QueryAdvisor

namespace PushdownSuggestion

/-- A move of one of the predicates `preds`: it carries the predicate at its position, which is
then a position of `preds`, and moves it to a position of `preds`. -/
structure MovesWithin (preds : List Predicate) (s : PushdownSuggestion) : Prop where
  predicate_eq : preds[s.fromPos]? = some s.predicate
  toPos_lt : s.toPos < preds.length

theorem MovesWithin.fromPos_lt {preds : List Predicate} {s : PushdownSuggestion} (h : s.MovesWithin preds) :
    s.fromPos < preds.length :=
  (List.getElem?_eq_some_iff.mp h.predicate_eq).1

end PushdownSuggestion

/-- A traversal of a list with positions counted from `n` fails at the first element it fails
on, with that element's position, and succeeds when it fails on none. -/
theorem mapM_zipIdx_outcome {α β ε : Type} {f : α × Nat → Except ε β} {bad : α → Bool} {err : Nat → ε}
    (hbad : ∀ a i, bad a = true → f (a, i) = .error (err i))
    (hgood : ∀ a i, bad a = false → ∃ b, f (a, i) = .ok b) :
    ∀ (l : List α) (n : Nat),
      (∃ i, l.findIdx? bad = some i ∧ (l.zipIdx n).mapM f = .error (err (n + i))) ∨
        (l.findIdx? bad = none ∧ ∃ bs, (l.zipIdx n).mapM f = .ok bs)
  | [], _ => .inr ⟨rfl, [], rfl⟩
  | a :: l, n => by
    rw [List.zipIdx_cons, List.mapM_cons, List.findIdx?_cons]
    cases ha : bad a
    · obtain ⟨b, hb⟩ := hgood a n ha
      rcases mapM_zipIdx_outcome hbad hgood l (n + 1) with ⟨i, hi, herr⟩ | ⟨hnone, bs, hok⟩
      · refine .inl ⟨i + 1, by simp [hi], ?_⟩
        rw [hb, show n + (i + 1) = n + 1 + i by omega]
        simp [herr, bind, Except.bind]
      · refine .inr ⟨by simp [hnone], b :: bs, ?_⟩
        simp [hb, hok, bind, Except.bind, pure, Except.pure]
    · refine .inl ⟨0, by simp, ?_⟩
      simp [hbad a n ha, bind, Except.bind]

namespace PushdownAdvisor

open PushdownSuggestion

/-! ## Every kind of suggestion moves within the predicates -/

/-- Moves drawn from the predicates with their positions move within the predicates when each
keeps its predicate's position and moves to a position of the list. -/
theorem movesWithin_filterMap {preds : List Predicate} {f : Predicate × Nat → Option PushdownSuggestion}
    (hf : ∀ p i s, preds[i]? = some p → f (p, i) = some s →
      s.fromPos = i ∧ s.predicate = p ∧ s.toPos < preds.length) :
    ∀ s ∈ preds.zipIdx.filterMap f, s.MovesWithin preds := by
  intro s hs
  obtain ⟨⟨p, i⟩, hmem, hfs⟩ := List.mem_filterMap.mp hs
  have hget : preds[i]? = some p := List.mk_mem_zipIdx_iff_getElem?.mp hmem
  obtain ⟨hpos, hpred, hto⟩ := hf p i s hget hfs
  exact ⟨hpos ▸ hpred ▸ hget, hto⟩

theorem idxOf?_getD_lt {order : List Nat} {i n : Nat} (hlen : order.length = n) (hi : i < n) :
    (order.idxOf? i).getD i < n := by
  cases h : order.idxOf? i with
  | none => exact hi
  | some k =>
    obtain ⟨hk, -⟩ := List.findIdx?_eq_some_iff_getElem.mp h
    exact hlen ▸ hk

theorem reorder_movesWithin (a : PushdownAdvisor) (preds : List Predicate) :
    ∀ s ∈ a.reorder preds, s.MovesWithin preds := by
  unfold reorder
  dsimp only
  split
  · intro s hs
    exact absurd hs List.not_mem_nil
  · refine movesWithin_filterMap (fun p i s hget hs => ?_)
    have hi : i < preds.length := (List.getElem?_eq_some_iff.mp hget).1
    dsimp only at hs
    split at hs
    · cases hs
    · cases hs
      exact ⟨rfl, rfl, idxOf?_getD_lt (by simp) hi⟩

theorem pushToJoins_movesWithin (preds : List Predicate) (g : JoinGraph) :
    ∀ s ∈ pushToJoins preds g, s.MovesWithin preds := by
  unfold pushToJoins
  refine movesWithin_filterMap (fun p i s hget hs => ?_)
  obtain ⟨table, -, rfl⟩ := Option.map_eq_some_iff.mp hs
  exact ⟨rfl, rfl, Nat.lt_of_le_of_lt (Nat.zero_le i) (List.getElem?_eq_some_iff.mp hget).1⟩

theorem earlyFilters_movesWithin (preds : List Predicate) :
    ∀ s ∈ earlyFilters preds, s.MovesWithin preds := by
  unfold earlyFilters
  split
  · intro s hs
    exact absurd hs List.not_mem_nil
  · refine movesWithin_filterMap (fun p i s hget hs => ?_)
    dsimp only at hs
    split at hs
    · cases hs
    · cases hs
      exact ⟨rfl, rfl, Nat.lt_of_le_of_lt (Nat.zero_le i) (List.getElem?_eq_some_iff.mp hget).1⟩

theorem forIndexes_movesWithin (preds : List Predicate) (indexed : List String) :
    OkOnly (fun moves => ∀ s ∈ moves, s.MovesWithin preds) (forIndexes preds indexed) := by
  unfold forIndexes
  refine (OkOnly.mapM (R := fun found => ∀ s, found = some s → s.MovesWithin preds)
    (fun pi hpi => ?_)).bind (fun found hfound => OkOnly.ok ?_)
  · obtain ⟨p, i⟩ := pi
    have hget : preds[i]? = some p := List.mk_mem_zipIdx_iff_getElem?.mp hpi
    have hi : i < preds.length := (List.getElem?_eq_some_iff.mp hget).1
    simp only [indexMove]
    split
    · exact OkOnly.ok (fun _ h => by cases h)
    · split
      · exact OkOnly.error _
      · split
        · refine OkOnly.ok (fun s hs => ?_)
          cases hs
          exact ⟨hget, by dsimp only [move]; omega⟩
        · exact OkOnly.ok (fun _ h => by cases h)
  · intro s hs
    exact hfound (some s) (List.reduceOption_mem_iff.mp hs) s rfl

/-! ## Where the moves towards indexes fail -/

/-- **The moves towards indexes fail exactly at the first predicate whose column is empty**,
naming its position. -/
theorem forIndexes_outcome (preds : List Predicate) (indexed : List String) :
    (∃ i, preds.findIdx? (·.column? == some "") = some i ∧
        forIndexes preds indexed =
          .error (.extraction ("predicate at position " ++ toString i ++ " has no field reference"))) ∨
      (preds.findIdx? (·.column? == some "") = none ∧ ∃ moves, forIndexes preds indexed = .ok moves) := by
  unfold forIndexes
  have hempty : ∀ p i, (p.column? == some "") = true → indexMove indexed (p, i) =
      .error (.extraction ("predicate at position " ++ toString i ++ " has no field reference")) := by
    intro p i hp
    have hcol : p.column? = some "" := by simpa using hp
    simp only [indexMove, hcol]
    rfl
  have hnamed : ∀ p i, (p.column? == some "") = false → ∃ found, indexMove indexed (p, i) = .ok found := by
    intro p i hp
    cases hcol : p.column? with
    | none => exact ⟨none, by simp only [indexMove, hcol]⟩
    | some column =>
      have hne : column.isEmpty = false := by
        rw [hcol] at hp
        simpa [String.isEmpty_iff] using hp
      simp only [indexMove, hcol, hne, Bool.false_eq_true, ↓reduceIte]
      split
      · exact ⟨_, rfl⟩
      · exact ⟨none, rfl⟩
  rcases mapM_zipIdx_outcome hempty hnamed preds 0 with ⟨i, hi, herr⟩ | ⟨hnone, found, hok⟩
  · refine .inl ⟨i, hi, ?_⟩
    rw [herr, Nat.zero_add]
    rfl
  · refine .inr ⟨hnone, found.reduceOption, ?_⟩
    rw [hok]
    rfl

/-! ## The moves kept -/

/-- The candidate moves for a query, in the order the advisor gathers them: reorderings, pushes
below joins when the query has joins, early filters, then the moves towards indexes
`toIndexes`. -/
def candidates (a : PushdownAdvisor) (q : Query) (toIndexes : List PushdownSuggestion) :
    List PushdownSuggestion :=
  a.reorder q.predicates ++ (if q.hasJoins then pushToJoins q.predicates (JoinGraph.ofQuery q) else []) ++
    earlyFilters q.predicates ++ toIndexes

theorem candidates_movesWithin (a : PushdownAdvisor) (q : Query) {toIndexes : List PushdownSuggestion}
    (h : ∀ s ∈ toIndexes, s.MovesWithin q.predicates) :
    ∀ s ∈ a.candidates q toIndexes, s.MovesWithin q.predicates := by
  intro s hs
  simp only [candidates, List.mem_append] at hs
  rcases hs with ((hs | hs) | hs) | hs
  · exact a.reorder_movesWithin _ s hs
  · split at hs
    · exact pushToJoins_movesWithin _ _ s hs
    · exact absurd hs List.not_mem_nil
  · exact earlyFilters_movesWithin _ s hs
  · exact h s hs

/-- For a query with a base table, the advisor keeps the best candidate of each position and
sorts them, once the moves towards indexes are found. -/
theorem analyze_eq (a : PushdownAdvisor) (q : Query) (hq : isBlankText q.table = false) :
    a.analyze q = forIndexes q.predicates (a.indexedColumns q) >>= fun toIndexes =>
      .ok (((a.candidates q toIndexes).foldl keepBest []).mergeSort (fun x y => x.fromPos ≤ y.fromPos)) := by
  simp only [analyze, hq, Bool.false_eq_true, ↓reduceIte]
  rfl

end PushdownAdvisor

open PushdownSuggestion in
/-- What a list of moves says of the candidates `cands` for the predicates `preds`: positions
strictly increase, every move stays within `preds`, the positions are those of the candidates,
and the move at each position is its first candidate of the highest priority. -/
structure PlacementSpec (preds : List Predicate) (cands moves : List PushdownSuggestion) : Prop where
  increasing : (moves.map (·.fromPos)).Pairwise (· < ·)
  within : ∀ s ∈ moves, s.MovesWithin preds
  positions : ∀ i, i ∈ moves.map (·.fromPos) ↔ i ∈ cands.map (·.fromPos)
  best : ∀ s ∈ moves, FirstBest (·.fromPos) (·.priority.rank) cands s

/-- Keeping the best candidate of each position and sorting by position gives the moves that
`PlacementSpec` describes. -/
theorem placementSpec_keepBest {preds : List Predicate} {cands : List PushdownSuggestion}
    (hc : ∀ s ∈ cands, s.MovesWithin preds) :
    PlacementSpec preds cands
      ((cands.foldl PushdownAdvisor.keepBest []).mergeSort (fun x y => x.fromPos ≤ y.fromPos)) := by
  have hkept : KeepsBest (·.fromPos) (·.priority.rank) cands (cands.foldl PushdownAdvisor.keepBest []) :=
    keepsBest_foldl _ _ cands
  have hperm := List.mergeSort_perm (cands.foldl PushdownAdvisor.keepBest []) (fun x y => x.fromPos ≤ y.fromPos)
  have hsorted : ((cands.foldl PushdownAdvisor.keepBest []).mergeSort (fun x y => x.fromPos ≤ y.fromPos)).Pairwise
      (fun x y => decide (x.fromPos ≤ y.fromPos)) :=
    List.pairwise_mergeSort (fun x y z hxy hyz => by simp only [decide_eq_true_eq] at *; omega)
      (fun x y => by simp only [Bool.or_eq_true, decide_eq_true_eq]; omega) _
  have hnodup := (hperm.map (·.fromPos)).nodup_iff.mpr hkept.nodup
  refine ⟨?_, fun s hs => hc s (hkept.best s (hperm.mem_iff.mp hs)).mem, fun i => ?_,
    fun s hs => hkept.best s (hperm.mem_iff.mp hs)⟩
  · rw [List.pairwise_map]
    refine (hsorted.and (List.pairwise_map.mp hnodup)).imp (fun ⟨hle, hne⟩ => ?_)
    simp only [decide_eq_true_eq] at hle
    omega
  · rw [(hperm.map _).mem_iff]
    exact hkept.keys i

/-- **What the placement advisor returns.** For a query with a base table, whatever the
statistics and the threshold, the advisor fails exactly when some top-level predicate has an
empty column, and then names the first such position. Otherwise it returns moves that keep,
for each position some candidate names, the first candidate of the highest priority there,
listed by strictly increasing position, each carrying the predicate at its position and moving
it to a position of the list. -/
theorem placement_contract (a : PushdownAdvisor) (q : Query) (hq : isBlankText q.table = false) :
    (∃ i, q.predicates.findIdx? (·.column? == some "") = some i ∧
        a.analyze q = .error (.extraction ("predicate at position " ++ toString i ++ " has no field reference"))) ∨
      (q.predicates.findIdx? (·.column? == some "") = none ∧
        ∃ toIndexes moves, PushdownAdvisor.forIndexes q.predicates (a.indexedColumns q) = .ok toIndexes ∧
          a.analyze q = .ok moves ∧ PlacementSpec q.predicates (a.candidates q toIndexes) moves) := by
  rw [a.analyze_eq q hq]
  rcases PushdownAdvisor.forIndexes_outcome q.predicates (a.indexedColumns q) with ⟨i, hi, herr⟩ | ⟨hnone, toIndexes, hok⟩
  · exact .inl ⟨i, hi, by rw [herr]; rfl⟩
  · refine .inr ⟨hnone, toIndexes, _, hok, by rw [hok]; rfl, placementSpec_keepBest ?_⟩
    exact a.candidates_movesWithin q (PushdownAdvisor.forIndexes_movesWithin _ _ toIndexes hok)

theorem placement_contract_on_orders :
    let a : PushdownAdvisor := ⟨0.2, {}⟩
    let q : Query :=
      { table := "orders"
        predicates := [.comparison "o.status" .eq (.string "open"), .nullCheck "o." true] }
    isBlankText q.table = false ∧
      ((∃ i, q.predicates.findIdx? (·.column? == some "") = some i ∧
          a.analyze q = .error (.extraction ("predicate at position " ++ toString i ++ " has no field reference"))) ∨
        (q.predicates.findIdx? (·.column? == some "") = none ∧
          ∃ toIndexes moves, PushdownAdvisor.forIndexes q.predicates (a.indexedColumns q) = .ok toIndexes ∧
            a.analyze q = .ok moves ∧ PlacementSpec q.predicates (a.candidates q toIndexes) moves)) :=
  ⟨by decide, placement_contract _ _ (by decide)⟩

theorem placement_contract_on_joined_filter :
    let a : PushdownAdvisor :=
      ⟨0.1, ({ rows := [("orders", 1000000), ("users", 100)], indexes := [("users", "id")] } : Statistics)⟩
    let q : Query :=
      { table := "orders"
        predicates := [.comparison "u.status" .eq (.string "active")]
        joins := [⟨"users", some "u", .inner, "orders.user_id", "u.id"⟩] }
    isBlankText q.table = false ∧
      (a.analyze q).toOption.map (·.map (fun s => (s.fromPos, s.toPos, s.target))) = some [(0, 0, some "users")] ∧
      ((∃ i, q.predicates.findIdx? (·.column? == some "") = some i ∧
          a.analyze q = .error (.extraction ("predicate at position " ++ toString i ++ " has no field reference"))) ∨
        (q.predicates.findIdx? (·.column? == some "") = none ∧
          ∃ toIndexes moves, PushdownAdvisor.forIndexes q.predicates (a.indexedColumns q) = .ok toIndexes ∧
            a.analyze q = .ok moves ∧ PlacementSpec q.predicates (a.candidates q toIndexes) moves)) :=
  ⟨by decide, by decide +kernel, placement_contract _ _ (by decide)⟩

end QueryAdvisor
