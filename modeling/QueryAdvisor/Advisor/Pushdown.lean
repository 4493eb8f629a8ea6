import QueryAdvisor.Suggestion.Pushdown
import QueryAdvisor.Advisor.Index
import QueryAdvisor.Statistics
import QueryAdvisor.Decimal.TotalOrder
/-!
# The predicate placement advisor

The placement advisor looks at the top-level predicates of a query in the order written and
suggests moves of four kinds.

* Reordering: ordered by selectivity (stable, most selective first), a predicate whose share of
  positions moved exceeds the threshold should move; by more than half the positions it matters
  much, else moderately.
* Pushing below a join: a predicate whose leaves all name one inner- or cross-joined table can
  filter that table before the join; the first such table in join order is named.
* Early filtering: with two predicates or more, one that keeps a tenth of the rows or less
  should run first.
* Index use: a predicate on a column that is indexed should move up one place.

Of the moves suggested for one position the first is kept, replaced by a later one of strictly
higher priority, and the moves are listed by position.
-/

namespace QueryAdvisor

/-- The settings of the placement advisor and the statistics it consults. -/
structure PushdownAdvisor where
  threshold : Float
  stats : TableStatistics

namespace PushdownAdvisor

/-- The placement advisor of a configuration. -/
def ofConfig (c : Config) (stats : TableStatistics) : PushdownAdvisor := ⟨c.predicateReorderingThreshold, stats⟩

/-- The structural dump of the advisor. -/
def dump (a : PushdownAdvisor) : String :=
  "PredicatePushdownOptimizer \x7b reordering_threshold: " ++ Decimal.Layout.debug.write a.threshold ++ ", .. \x7d"

/-- A move without reason, impact and target. -/
def move (p : Predicate) (fromPos toPos : Nat) (selectivity : Float) (kind : PushdownKind) (priority : Priority) :
    PushdownSuggestion :=
  ⟨p, fromPos, toPos, selectivity, kind, "", "", priority, none⟩

/-- The distance between two positions. -/
def distance (a b : Nat) : Nat := max a b - min a b

/-- The reordering moves: each predicate to its place in the stable order by selectivity. -/
def reorder (a : PushdownAdvisor) (preds : List Predicate) : List PushdownSuggestion :=
  let n := preds.length
  if n ≤ 1 then []
  else
    let sel (i : Nat) : Float := ((preds[i]?).map Predicate.selectivity).getD 0
    let order := (List.range n).mergeSort (fun i j => Decimal.totalLe (sel i) (sel j))
    (preds.zipIdx).filterMap (fun (p, i) =>
      let target := (order.idxOf? i).getD i
      let moved := distance i target
      let improvement := moved.toFloat / n.toFloat
      if improvement ≤ a.threshold then none
      else
        let priority : Priority := if improvement > 0.5 then .high else .medium
        let s := sel i
        let reason :=
          if target < i then
            "Predicate `" ++ p.sql ++ "` (selectivity " ++ showSelectivity s ++
              ") is more selective than the predicates before it"
          else
            "Predicate `" ++ p.sql ++ "` (selectivity " ++ showSelectivity s ++
              ") filters fewer rows than the predicates after it"
        some { move p i target s .reorderBySelectivity priority with
          reason := reason,
          impact := "Fewer rows reach later predicates (moves " ++ toString moved ++ " of " ++ toString n ++ " positions)" })

/-- The pushes below joins: each predicate to the first table of the graph it can filter. -/
def pushToJoins (preds : List Predicate) (g : JoinGraph) : List PushdownSuggestion :=
  let tables := g.tableNames.foldl (fun seen t => if seen.any (sameName · t) then seen else seen ++ [t]) []
  (preds.zipIdx).filterMap (fun (p, i) =>
    (tables.find? (g.canPush p)).map (fun table =>
      { move p i 0 p.selectivity .pushToJoinSource .high with
        reason := "Predicate `" ++ p.sql ++ "` only references '" ++ table ++ "' and can filter it before the join",
        impact := "Fewer '" ++ table ++ "' rows enter the join",
        target := some table }))

/-- The move towards an index of the predicate `p` at position `i`: up one place if its column
is indexed. A predicate whose column is empty is a fault. -/
def indexMove (indexed : List String) : Predicate × Nat → Except AdviceError (Option PushdownSuggestion)
  | (p, i) =>
    match p.column? with
    | none => .ok none
    | some column =>
      if column.isEmpty then
        .error (.extraction ("predicate at position " ++ toString i ++ " has no field reference"))
      else if indexed.any (fun c => sameName (unqualified c) column) then
        .ok (some { move p i (i - 1) p.selectivity .indexFriendlyReorder .medium with
          reason := "Column '" ++ column ++ "' is indexed; evaluating `" ++ p.sql ++ "` earlier lets the index narrow the scan",
          impact := "Index lookup replaces a row-by-row filter" })
      else .ok none

/-- The moves towards indexes: each predicate on an indexed column up one place. -/
def forIndexes (preds : List Predicate) (indexed : List String) : Except AdviceError (List PushdownSuggestion) := do
  let found ← (preds.zipIdx).mapM (indexMove indexed)
  .ok found.reduceOption

/-- The early filters: with two predicates or more, each that keeps a tenth or less. -/
def earlyFilters (preds : List Predicate) : List PushdownSuggestion :=
  if preds.length < 2 then []
  else
    (preds.zipIdx).filterMap (fun (p, i) =>
      let s := p.selectivity
      if s > 0.1 then none
      else
        some { move p i 0 s .earlyFilter .high with
          reason := "Highly selective predicate `" ++ p.sql ++ "` (selectivity " ++ showSelectivity s ++
            ") should be evaluated first",
          impact := "Discards most rows before other predicates run" })

/-- The columns of the top-level predicates that the statistics say are indexed, each once. -/
def indexedColumns (a : PushdownAdvisor) (q : Query) : List String :=
  q.predicates.foldl (fun cols p =>
    match p.column? with
    | some column =>
      if column.isEmpty then cols
      else
        let table := q.tableOf p.qualifier?
        if a.stats.hasIndex table column && !cols.any (sameName · column) then cols ++ [column] else cols
    | none => cols) []

/-- Keeps the first move of each position, replaced by a later one of strictly higher
priority. -/
def keepBest : List PushdownSuggestion → PushdownSuggestion → List PushdownSuggestion :=
  keepBestBy (·.fromPos) (·.priority.rank)

/-- The moves suggested for a query. -/
def analyze (a : PushdownAdvisor) (q : Query) : Except AdviceError (List PushdownSuggestion) := do
  if isBlankText q.table then .error (.invalidArgument "query model has no base table")
  else
    let preds := q.predicates
    let pushed := if q.hasJoins then pushToJoins preds (JoinGraph.ofQuery q) else []
    let toIndexes ← forIndexes preds (a.indexedColumns q)
    let candidates := a.reorder preds ++ pushed ++ earlyFilters preds ++ toIndexes
    .ok ((candidates.foldl keepBest []).mergeSort (fun x y => x.fromPos ≤ y.fromPos))

end PushdownAdvisor

end QueryAdvisor
