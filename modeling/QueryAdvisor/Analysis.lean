import QueryAdvisor.Advice
import QueryAdvisor.Advisor.Index
import QueryAdvisor.Advisor.Pushdown
import QueryAdvisor.Advisor.JoinOrder
/-!
# Analysing a query

An analysis runs the enabled advisors in turn: indexes, placement, join order. The index
advisor applies its failure policy itself; for the other two a fault of extraction under the
policy to degrade becomes a note and an empty list of suggestions, and any other failure ends
the analysis.

An analysis is a list of phases run one after another over the parts gathered so far: the turn
of each enabled advisor, a check of the budget after the index and the placement advisor, and
a last check at the end. A check reads the elapsed time from a clock and fails the analysis when
the time exceeds the budget; without a budget every check passes. The advice reports one more
reading of the clock.

`analyzeWith` takes the clock as an argument, giving the elapsed time at each point where it is
read. `analyze` counts time in units of work, one nanosecond each, so that one query always
gets one answer. The index advisor does a unit per filter, join, grouping and ordering entry;
the placement advisor a unit per predicate for each table of the query; the join order advisor,
when it weighs orders, the cube of the number of tables.
-/

namespace QueryAdvisor

/-- The work of the index advisor on a query. -/
def indexWork (q : Query) : Nat :=
  (q.predicates.flatMap Predicate.leaves).length + q.joins.length + q.groupBy.length + q.orderBy.length + 1

/-- The work of the placement advisor on a query. -/
def pushdownWork (q : Query) : Nat := (q.predicates.length + 1) * (q.joins.length + 1)

/-- The work of the join order advisor on a query: the cube of the number of tables when the
order is free to change. -/
def joinWork (q : Query) : Nat :=
  let n := q.joins.length + 1
  if q.hasJoins && q.joins.all (fun j => j.kind == .inner || j.kind == .cross) then n * n * n else n

/-- Fails when the time exceeds the budget. -/
def checkBudget (budgetMs : Option Nat) (elapsedNs : Nat) : Except AdviceError Unit :=
  match budgetMs with
  | some b => if elapsedNs > b * 1000000 then .error (.timeoutExceeded (elapsedNs / 1000000) b) else .ok ()
  | none => .ok ()

/-- Turns a fault of extraction under the policy to degrade into a note. -/
def applyPolicy {α : Type} (advisor : AdvisorKind) (policy : FailurePolicy) (outcome : Except AdviceError (List α)) :
    Except AdviceError (List α × List DegradedNote) :=
  match outcome with
  | .ok xs => .ok (xs, [])
  | .error e =>
    if policy == .degrade && e.isRecoverable then .ok ([], [⟨advisor, e.message⟩]) else .error e

/-- The points where an analysis reads its clock: the checks after the index advisor, after the
placement advisor and after all advisors, and the time the advice reports. -/
inductive Checkpoint where
  | afterIndex
  | afterPushdown
  | afterAll
  | report
deriving DecidableEq, Repr

/-- A step of an analysis: the turn of one advisor, or a check of the budget. -/
inductive Phase where
  | index
  | pushdown
  | joinOrder
  | check (point : Checkpoint)
deriving DecidableEq, Repr

/-- What an analysis has gathered so far: the suggestions of each advisor and the notes. -/
structure Parts where
  indexes : List IndexSuggestion := []
  moves : List PushdownSuggestion := []
  joinOrders : List JoinOrderSuggestion := []
  notes : List DegradedNote := []

/-- The phases of an analysis: each enabled advisor in turn, the index and placement advisors
each followed by a check, and a last check. -/
def Config.phases (c : Config) : List Phase :=
  (if c.indexSuggestions then [.index, .check .afterIndex] else []) ++
    (if c.predicatePushdown then [.pushdown, .check .afterPushdown] else []) ++
    (if c.joinReordering then [.joinOrder] else []) ++ [.check .afterAll]

/-- Runs one phase of the analysis of `q`, with `clock` the elapsed time at each checkpoint in
nanoseconds. -/
def Phase.run (c : Config) (stats : TableStatistics) (q : Query) (clock : Checkpoint → Nat) :
    Phase → Parts → Except AdviceError Parts
  | .index, p => do
    let advice ← (IndexAdvisor.ofConfig c).analyze q
    pure { p with indexes := advice.suggestions, notes := p.notes ++ advice.notes.map (⟨.index, ·⟩) }
  | .pushdown, p => do
    let (moves, more) ← applyPolicy .pushdown c.policies.pushdown ((PushdownAdvisor.ofConfig c stats).analyze q)
    pure { p with moves := moves, notes := p.notes ++ more }
  | .joinOrder, p => do
    let (orders, more) ← applyPolicy .joinReorder c.policies.joinReorder ((JoinOrderAdvisor.ofConfig c stats).analyze q)
    pure { p with joinOrders := orders, notes := p.notes ++ more }
  | .check point, p => do
    checkBudget c.budgetMs (clock point)
    pure p

/-- Analyses a query with a configuration and statistics, reading the elapsed time from
`clock`. -/
def analyzeWith (clock : Checkpoint → Nat) (c : Config) (stats : TableStatistics) (q : Query) :
    Except AdviceError Advice :=
  if isBlankText q.table then .error (.invalidArgument "query model has no base table")
  else do
    let p ← c.phases.foldlM (fun p ph => ph.run c stats q clock p) {}
    .ok (Advice.ofParts p.indexes p.moves p.joinOrders (clock .report) p.notes c.target c.verbose)

/-- The clock of units of work: at each checkpoint, the work of the enabled advisors run
before it. -/
def workClock (c : Config) (q : Query) : Checkpoint → Nat
  | .afterIndex => indexWork q
  | .afterPushdown => (if c.indexSuggestions then indexWork q else 0) + pushdownWork q
  | .afterAll | .report =>
    (if c.indexSuggestions then indexWork q else 0) + (if c.predicatePushdown then pushdownWork q else 0) +
      (if c.joinReordering then joinWork q else 0)

/-- Analyses a query with a configuration and statistics, counting time in units of work. -/
def analyze (c : Config) (stats : TableStatistics) (q : Query) : Except AdviceError Advice :=
  analyzeWith (workClock c q) c stats q

end QueryAdvisor
