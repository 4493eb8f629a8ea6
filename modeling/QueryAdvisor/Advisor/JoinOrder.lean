import QueryAdvisor.Suggestion.JoinOrder
import QueryAdvisor.Config.Basic
import QueryAdvisor.Query.Basic
import QueryAdvisor.JoinGraph
import QueryAdvisor.Decimal.TotalOrder
/-!
# The join order advisor

The join order advisor estimates the rows that each prefix of a join order produces and
suggests a greedy order when it shrinks the total.

The tables of a query are its steps: the base table, then each joined table. Each join that is
not a cross join is an edge from the step its left field names (the first earlier step whose
name or alias matches the part before the last point, else the base table) to the joined step.

The cost model reads the estimated rows of each step and, for each edge, the join selectivity
and whether the key on either side is indexed. Joining a step to a set of joined steps keeps
the least selectivity of the edges between them, halved for an indexed key when indexes are
used, or all rows when no edge connects them. The cost of an order sums the estimated rows
after each join.

The greedy order starts at the step with the fewest rows (the first of those) and then, while
steps remain, joins the one that gives the fewest rows, the first of those, among the steps
connected to the joined ones if any are. Two greedy orders are tried: without indexes, and, if
some key is indexed, with them. An order is suggested when it differs from the written one and
improves the cost by more than the threshold; of two, the one that improves more, the first on
a tie. Outer joins fix the order, so a query with one gets no suggestion.
-/

namespace QueryAdvisor

/-- A table of the join order, with its alias. -/
structure JoinStep where
  table : String
  aliasName : Option String

/-- Whether a name refers to the step's table or alias. -/
def JoinStep.matches (s : JoinStep) (name : String) : Bool :=
  sameName s.table name || (s.aliasName.map (sameName · name)).getD false

/-- A join condition between two steps, by position. -/
structure JoinEdge where
  parent : Nat
  child : Nat
  parentColumn : String
  childColumn : String

/-- Adds the joins of a query as steps and edges. -/
def addJoinSteps : List JoinStep → List JoinEdge → List Join → Except AdviceError (List JoinStep × List JoinEdge)
  | steps, edges, [] => .ok (steps, edges)
  | steps, edges, j :: rest =>
    if isBlankText j.table then
      .error (.extraction ("join on '" ++ j.rightField ++ "' has no table name"))
    else
      let child := steps.length
      let steps' := steps ++ [⟨j.table, j.aliasName⟩]
      if j.kind == .cross then addJoinSteps steps' edges rest
      else
        let childColumn := j.column
        let parentColumn := unqualified j.leftField
        if childColumn.isEmpty || parentColumn.isEmpty then
          .error (.extraction ("join with '" ++ j.table ++ "' has no key column"))
        else
          let parent :=
            match splitLastDot? j.leftField with
            | some (q, _) => (steps.findIdx? (·.matches q)).getD 0
            | none => 0
          addJoinSteps steps' (edges ++ [⟨parent, child, parentColumn, childColumn⟩]) rest

/-- The steps and edges of a query. -/
def joinSteps (q : Query) : Except AdviceError (List JoinStep × List JoinEdge) :=
  addJoinSteps [⟨q.table, q.aliasName⟩] [] q.joins

/-- What the statistics say of an edge. -/
structure EdgeEstimate where
  parent : Nat
  child : Nat
  selectivity : Float
  parentIndexed : Bool
  childIndexed : Bool

/-- The estimated rows of each step and the estimates of each edge. -/
structure CostModel where
  rows : Array Float
  edges : List EdgeEstimate

namespace CostModel

/-- The table of a step. -/
def tableOf (steps : List JoinStep) (i : Nat) : String := ((steps[i]?).map (·.table)).getD ""

/-- Reads the statistics for the steps and edges. -/
def collect (steps : List JoinStep) (edges : List JoinEdge) (stats : TableStatistics) : CostModel :=
  let rows := (steps.map (fun s => (stats.rowCount s.table).toFloat)).toArray
  let estimates := edges.map (fun e =>
    let parent := tableOf steps e.parent
    let child := tableOf steps e.child
    ⟨e.parent, e.child, clampUnit (stats.joinSelectivity parent child e.childColumn),
      stats.hasIndex parent e.parentColumn, stats.hasIndex child e.childColumn⟩)
  ⟨rows, estimates⟩

/-- The estimated rows of a step. -/
def rowsOf (m : CostModel) (i : Nat) : Float := m.rows.getD i 0

/-- Whether some key of an edge is indexed. -/
def hasIndexedEdge (m : CostModel) : Bool := m.edges.any (fun e => e.parentIndexed || e.childIndexed)

/-- The least selectivity of the edges between the joined steps and the next one, halved for
an indexed key on the probed side when indexes are used. -/
def joinFactor (m : CostModel) (joined : List Nat) (next : Nat) (useIndexes : Bool) : Option Float :=
  m.edges.foldl (fun best e =>
    let probed : Option Bool :=
      if e.child == next && joined.contains e.parent then some e.childIndexed
      else if e.parent == next && joined.contains e.child then some e.parentIndexed
      else none
    match probed with
    | none => best
    | some indexed =>
      let f := if useIndexes && indexed then e.selectivity * 0.5 else e.selectivity
      match best with
      | none => some f
      | some b => if Decimal.totalLt f b then some f else some b) none

/-- The sum of the estimated rows after each join of an order. -/
def cost (m : CostModel) (order : List Nat) (useIndexes : Bool) : Float :=
  match order with
  | [] => 0
  | first :: rest =>
    let start := m.rowsOf first
    let (_, total, _) := rest.foldl (fun (acc : Float × Float × List Nat) next =>
      let (card, total, joined) := acc
      let factor := (m.joinFactor joined next useIndexes).getD 1
      let card := card * (m.rowsOf next * factor)
      (card, total + card, next :: joined)) (start, start, [first])
    total

/-- The first step with the fewest rows. -/
def smallest (m : CostModel) : Nat :=
  (List.range m.rows.size).foldl (fun best i => if m.rowsOf i < m.rowsOf best then i else best) 0

/-- Joins the remaining steps greedily; `fuel` is the number of steps left. -/
def greedyFrom (m : CostModel) (useIndexes : Bool) : Nat → List Nat → List Nat → Float → List Nat
  | 0, _, order, _ => order
  | fuel + 1, remaining, order, card =>
    if remaining.isEmpty then order
    else
      let factors := remaining.map (fun c => (c, m.joinFactor order c useIndexes))
      let anyConnected := factors.any (·.2.isSome)
      let best : Option (Nat × Float) := factors.foldl (fun best cf =>
        let (c, factor) := cf
        if anyConnected && factor.isNone then best
        else
          let next := card * m.rowsOf c * factor.getD 1
          match best with
          | none => some (c, next)
          | some (_, b) => if next < b then some (c, next) else best) none
      match best with
      | none => order
      | some (c, next) => greedyFrom m useIndexes fuel (remaining.erase c) (order ++ [c]) next

/-- The greedy join order. -/
def greedy (m : CostModel) (useIndexes : Bool) : List Nat :=
  let start := m.smallest
  let remaining := (List.range m.rows.size).filter (· != start)
  m.greedyFrom useIndexes remaining.length remaining [start] (m.rowsOf start)

/-- The share of the cost of `original` that `candidate` saves, clamped to `[0, 1]`. -/
def improvement (m : CostModel) (original candidate : List Nat) (useIndexes : Bool) : Float :=
  let before := m.cost original useIndexes
  if before ≤ 0 then 0 else clampUnit ((before - m.cost candidate useIndexes) / before)

end CostModel

/-- A join order under consideration. -/
structure JoinCandidate where
  kind : JoinOrderKind
  order : List Nat
  improvement : Float
  costBefore : Float
  costAfter : Float

/-- The settings of the join order advisor and the statistics it consults. -/
structure JoinOrderAdvisor where
  threshold : Float
  stats : TableStatistics

namespace JoinOrderAdvisor

/-- The join order advisor of a configuration. -/
def ofConfig (c : Config) (stats : TableStatistics) : JoinOrderAdvisor := ⟨c.joinReorderingThreshold, stats⟩

/-- The structural dump of the advisor. -/
def dump (a : JoinOrderAdvisor) : String :=
  "JoinReorderOptimizer \x7b threshold: " ++ Decimal.Layout.debug.write a.threshold ++ ", .. \x7d"

/-- Keeps a candidate that differs from the written order and improves by more than the
threshold, if it improves more than the one kept so far. -/
def consider (a : JoinOrderAdvisor) (original : List Nat) (chosen : Option JoinCandidate) (c : JoinCandidate) :
    Option JoinCandidate :=
  if c.order == original || c.improvement ≤ a.threshold then chosen
  else
    match chosen with
    | none => some c
    | some k => if c.improvement > k.improvement then some c else chosen

/-- The candidate of one greedy order. -/
def candidate (m : CostModel) (original : List Nat) (kind : JoinOrderKind) (useIndexes : Bool) : JoinCandidate :=
  let order := m.greedy useIndexes
  ⟨kind, order, m.improvement original order useIndexes, m.cost original useIndexes, m.cost order useIndexes⟩

/-- The candidate the advisor settles on: the greedy order without indexes, replaced by the
greedy order with indexes when some key is indexed and that order improves more. -/
def choose (a : JoinOrderAdvisor) (m : CostModel) (original : List Nat) : Option JoinCandidate :=
  let bySelectivity := candidate m original .selectivityBased false
  let chosen := a.consider original none bySelectivity
  if m.hasIndexedEdge then a.consider original chosen (candidate m original .indexDriven true) else chosen

/-- The keys named in the reason of an index-driven order. -/
def indexedKeys (steps : List JoinStep) (edges : List JoinEdge) (m : CostModel) : List String :=
  (edges.zip m.edges).flatMap (fun (e, est) =>
    (if est.parentIndexed then [CostModel.tableOf steps e.parent ++ "." ++ e.parentColumn] else []) ++
    (if est.childIndexed then [CostModel.tableOf steps e.child ++ "." ++ e.childColumn] else []))

/-- The join order suggested for a query, if any. -/
def analyze (a : JoinOrderAdvisor) (q : Query) : Except AdviceError (List JoinOrderSuggestion) := do
  if isBlankText q.table then .error (.invalidArgument "query model has no base table")
  else if !q.hasJoins then .ok []
  else
    let (steps, edges) ← joinSteps q
    if q.joins.any (fun j => j.kind != .inner && j.kind != .cross) then .ok []
    else
      let m := CostModel.collect steps edges a.stats
      let original := List.range steps.length
      match a.choose m original with
      | none => .ok []
      | some c =>
        let first := c.order.headD 0
        let percent := Decimal.fixed (c.improvement * 100) 0
        let reason :=
          match c.kind with
          | .selectivityBased =>
            "Starting from '" ++ CostModel.tableOf steps first ++ "' (~" ++ toString (m.rowsOf first).toUInt64.toNat ++
              " rows) and joining the most selective tables next shrinks intermediate results by " ++ percent ++ "%"
          | .indexDriven =>
            "Joining through indexed keys (" ++ ", ".intercalate (indexedKeys steps edges m) ++
              ") earlier shrinks intermediate results by " ++ percent ++ "%"
        let s ← JoinOrderSuggestion.make q.joinSequence (c.order.map (CostModel.tableOf steps)) c.kind c.improvement
        .ok [{ s with reason := reason,
                      impact := "Estimated intermediate rows drop from " ++ Decimal.fixed c.costBefore 0 ++ " to " ++
                        Decimal.fixed c.costAfter 0 }]

end JoinOrderAdvisor

end QueryAdvisor
