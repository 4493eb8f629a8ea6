import QueryAdvisor.Suggestion.Index
import QueryAdvisor.Config.Basic
import QueryAdvisor.Query.Basic
import QueryAdvisor.JoinGraph
/-!
# The index advisor

The index advisor suggests an index for each filter on a column, one for the key of each join
on the joined table, and one composite index over the columns of the base table that filters,
joins, groupings and orderings use together.

A filter gets a B-tree index, a null check a partial one. A join key always matters much. Two
suggestions for the same table and columns are merged: the first stays in place, replaced by a
later one of strictly higher priority.

A column of the base table counts once for each filter on it that got a suggestion, each join
whose left field is on the base table, and each grouping or ordering entry. The composite index
covers the columns that count more than once and more than the threshold times the number of
columns counted, in sorted order, if there are at least two and at most the widest composite
width. Its selectivity is three tenths to the power of its width.

A filter without a column name, a join without a table or without a key column are faults of
extraction; with the policy to degrade the advisor notes each and goes on.
-/

namespace QueryAdvisor

/-- `a` to the power `b` by repeated squaring, rounding after each product. -/
def powi (a : Float) (b : Nat) : Float :=
  go a b 1
where
  /-- Squares `a` while halving `b`, multiplying `r` by `a` at each odd `b`. -/
  go (a : Float) (b : Nat) (r : Float) : Float :=
    let r := if b % 2 = 1 then r * a else r
    if h : b / 2 = 0 then r
    else go (a * a) (b / 2) r
  termination_by b
  decreasing_by exact Nat.div_lt_self (Nat.pos_of_ne_zero (fun hb => h (by rw [hb]))) (by decide)

/-- A selectivity as reasons show it: two places, trailing zeros and point dropped. -/
def showSelectivity (s : Float) : String :=
  let cs := ((Decimal.fixed s 2).toList.reverse.dropWhile (· = '0')).dropWhile (· = '.')
  if cs.isEmpty then "0" else String.ofList cs.reverse

/-- What a priority promises a filter. -/
def filterImpact : Priority → String
  | .high => "Large reduction in rows read for this filter"
  | .medium => "Moderate reduction in rows read for this filter"
  | .low => "Small benefit; the filter matches a large share of rows"

/-- A table name must not be blank. -/
def requireTable (table : String) : Except AdviceError Unit :=
  if isBlankText table then .error (.invalidArgument "table name must not be empty") else .ok ()

/-- Adds one to the count of a column. -/
def bumpUsage (usage : List (String × Nat)) (column : String) : List (String × Nat) :=
  if usage.any (·.1 == column) then usage.map (fun u => if u.1 == column then (u.1, u.2 + 1) else u)
  else usage ++ [(column, 1)]

/-- Adds `s` to the entries kept, one per key: appended if no kept entry has its key, otherwise
in place of the kept entry of its key if `s` ranks strictly higher. -/
def keepBestBy {α κ : Type} [BEq κ] (key : α → κ) (rank : α → Nat) (kept : List α) (s : α) : List α :=
  match kept.findIdx? (fun k => key k == key s) with
  | some i =>
    match kept[i]? with
    | some k => if rank k < rank s then kept.set i s else kept
    | none => kept
  | none => kept ++ [s]

/-- The settings of the index advisor. -/
structure IndexAdvisor where
  maxComposite : Nat
  threshold : Float
  policy : FailurePolicy

/-- The index suggestions of an analysis and the notes of the parts it stepped over. -/
structure IndexAdvice where
  suggestions : List IndexSuggestion
  notes : List String

namespace IndexAdvisor

/-- The index advisor of a configuration; the composite width is at least one. -/
def ofConfig (c : Config) : IndexAdvisor :=
  ⟨max c.maxCompositeIndexColumns 1, c.indexSelectivityThreshold, c.policies.index⟩

/-- The kind and reason of the index for a filter on a column. -/
def leafReason (leaf : Predicate) (column shown : String) : Option (IndexKind × String) :=
  let on := " on '" ++ column ++ "' (selectivity " ++ shown ++ ")"
  match leaf with
  | .comparison _ .eq _ => some (.btree, "Equality filter" ++ on ++ " can use a B-tree lookup")
  | .comparison _ .notEq _ =>
    some (.btree, "Inequality filter" ++ on ++ " matches most rows; an index helps little")
  | .comparison _ _ _ => some (.btree, "Range filter" ++ on ++ " can use a B-tree range scan")
  | .inList _ _ true | .like _ _ true =>
    some (.btree, "Negated filter `" ++ leaf.sql ++ "` (selectivity " ++ shown ++
      ") matches most rows; an index helps little")
  | .inList _ values false =>
    some (.btree, "IN-list filter with " ++ toString values.length ++ " value(s)" ++ on ++
      " can use B-tree lookups")
  | .between _ _ _ => some (.btree, "BETWEEN filter" ++ on ++ " can use a B-tree range scan")
  | .like _ pattern false =>
    some (.btree, "LIKE '" ++ pattern ++ "'" ++ on ++
      "; a full-text index may outperform a B-tree index for complex patterns")
  | .nullCheck _ isNull =>
    some (.conditional, (if isNull then "IS NULL" else "IS NOT NULL") ++ " check" ++ on ++
      "; a partial index over matching rows stays small")
  | .subquery _ _ => some (.btree, "Sub-select membership test" ++ on ++ " can use B-tree lookups")
  | .logical _ _ | .raw _ => none

/-- The index suggested for a filter on one column of `table`, if any. -/
def forLeaf (leaf : Predicate) (table : String) : Except AdviceError (Option IndexSuggestion) :=
  match leaf.column? with
  | none => .ok none
  | some column =>
    if column.isEmpty then
      .error (.extraction ("predicate `" ++ leaf.sql ++ "` has no field reference"))
    else
      let selectivity := leaf.selectivity
      match leafReason leaf column (showSelectivity selectivity) with
      | none => .ok none
      | some (kind, reason) => do
        let s ← IndexSuggestion.make table [column] kind selectivity
        .ok (some { s with reason := reason, impact := filterImpact s.priority })

/-- The indexes suggested for the filters of `table`. -/
def forPredicates (predicates : List Predicate) (table : String) : Except AdviceError (List IndexSuggestion) := do
  requireTable table
  let found ← (predicates.flatMap Predicate.leaves).mapM (fun leaf => forLeaf leaf table)
  .ok found.reduceOption

/-- The indexes suggested for join keys on `table`. -/
def forJoinKeys (fields : List String) (table : String) : Except AdviceError (List IndexSuggestion) := do
  requireTable table
  fields.mapM (fun field => do
    let column := unqualified field
    if column.isEmpty then
      .error (.extraction ("join key on '" ++ table ++ "' has no column name"))
    else
      let s ← IndexSuggestion.make table [column] .btree 0.3
      .ok { s with priority := .high,
                   reason := "Join key '" ++ column ++ "' on '" ++ table ++ "' is looked up once per row of the joined input",
                   impact := "Avoids a full scan of the joined table for every probe" })

/-- The composite index over the columns used together, if it qualifies. -/
def composite (a : IndexAdvisor) (usage : List (String × Nat)) (table : String) (threshold : Float) :
    Except AdviceError (List IndexSuggestion) := do
  checkFraction "threshold" threshold
  requireTable table
  let cutoff := threshold * usage.length.toFloat
  let columns := ((usage.filter (fun u => u.2 > 1 && u.2.toFloat > cutoff)).map (·.1)).mergeSort
    (fun x y => decide (x ≤ y))
  if columns.length < 2 || columns.length > a.maxComposite then .ok []
  else
    let s ← IndexSuggestion.make table columns .composite (powi 0.3 columns.length)
    .ok [{ s with reason := "Columns (" ++ ", ".intercalate columns ++ ") of '" ++ table ++ "' are frequently used together",
                  impact := "A single index can satisfy filters, joins and sorts over these columns" }]

/-- Merges suggestions for the same index: the first stays in place, replaced by a later one of
strictly higher priority. -/
def merge : List IndexSuggestion → IndexSuggestion → List IndexSuggestion :=
  keepBestBy (fun s => (s.table, s.columns)) (·.priority.rank)

/-- The state of an analysis: suggestions so far, notes, and the use of base-table columns. -/
structure Run where
  suggestions : List IndexSuggestion := []
  notes : List String := []
  usage : List (String × Nat) := []

/-- Steps over a fault that the policy lets the advisor degrade on, or fails. -/
def absorb (a : IndexAdvisor) (run : Run) (e : AdviceError) : Except AdviceError Run :=
  if a.policy == .degrade && e.isRecoverable then .ok { run with notes := run.notes ++ [e.message] }
  else .error e

/-- Takes in the filter `leaf` of the query. -/
def leafStep (a : IndexAdvisor) (q : Query) (run : Run) (leaf : Predicate) : Except AdviceError Run :=
  let table := q.tableOf leaf.qualifier?
  match forLeaf leaf table with
  | .ok (some s) =>
    .ok { run with suggestions := run.suggestions ++ [s],
                   usage := if q.isBaseTable table then s.columns.foldl bumpUsage run.usage else run.usage }
  | .ok none => .ok run
  | .error e => a.absorb run e

/-- Takes in the join `j` of the query. -/
def joinStep (a : IndexAdvisor) (q : Query) (run : Run) (j : Join) : Except AdviceError Run := do
  if isBlankText j.table then
    a.absorb run (.extraction ("join on '" ++ j.rightField ++ "' has no table name"))
  else
    let run ← match forJoinKeys [j.rightField] j.table with
      | .ok ss => .ok { run with suggestions := run.suggestions ++ ss }
      | .error e => a.absorb run e
    let leftOnBase :=
      match splitLastDot? j.leftField with
      | none => true
      | some (qualifier, _) => q.isBaseTable qualifier
    let column := unqualified j.leftField
    .ok (if leftOnBase && !column.isEmpty then { run with usage := bumpUsage run.usage column } else run)

/-- Analyses a whole query: filters, joins, groupings and orderings, then the composite index. -/
def analyze (a : IndexAdvisor) (q : Query) : Except AdviceError IndexAdvice := do
  if isBlankText q.table then .error (.invalidArgument "query model has no base table")
  else
    let run ← (q.predicates.flatMap Predicate.leaves).foldlM (a.leafStep q) {}
    let run ← q.joins.foldlM (a.joinStep q) run
    let sortColumns := (q.groupBy ++ q.orderBy.map (·.column)).map unqualified
    let run := { run with usage := (sortColumns.filter (!·.isEmpty)).foldl bumpUsage run.usage }
    let run ← match a.composite run.usage q.table a.threshold with
      | .ok ss => .ok { run with suggestions := run.suggestions ++ ss }
      | .error e => a.absorb run e
    .ok ⟨run.suggestions.foldl merge [], run.notes⟩

end IndexAdvisor

end QueryAdvisor
