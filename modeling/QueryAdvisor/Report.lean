import QueryAdvisor.Advice
import QueryAdvisor.Text.BoxTable
/-!
# The report of an analysis

The report is the summary, then a table for each kind of suggestion there is (indexes,
predicate moves, join orders), then a warning for each advisor that stepped over part of the
query, all separated by blank lines.
-/

namespace QueryAdvisor

namespace Advice

/-- The table of index suggestions. -/
def indexTable (a : Advice) : BoxTable :=
  ⟨["Priority", "Kind", "Table", "Columns", "Selectivity", "DDL"],
    a.indexes.map (fun s => [s.priority.name, s.kind.name, s.table, ", ".intercalate s.columns,
      Decimal.fixed s.selectivity 3, s.ddl])⟩

/-- The table of predicate moves. -/
def moveTable (a : Advice) : BoxTable :=
  ⟨["Priority", "Kind", "Predicate", "Move", "Target", "Reason"],
    a.moves.map (fun s => [s.priority.name, s.kind.description, s.predicate.sql,
      toString s.fromPos ++ " -> " ++ toString s.toPos, s.target.getD "-", s.reason])⟩

/-- The table of join orders. -/
def joinTable (a : Advice) : BoxTable :=
  ⟨["Kind", "Original", "Suggested", "Improvement", "Reason"],
    a.joinOrders.map (fun s => [s.kind.description, " > ".intercalate s.original, " > ".intercalate s.suggested,
      Decimal.fixed (s.improvement * 100) 1 ++ "%", s.reason])⟩

/-- The report of the advice. -/
def report (a : Advice) : String :=
  let part (title : String) (present : Bool) (t : BoxTable) : List String :=
    if present then [title ++ "\n" ++ t.render] else []
  "\n\n".intercalate ([a.summary] ++
    part "Index suggestions" (!a.indexes.isEmpty) a.indexTable ++
    part "Predicate suggestions" (!a.moves.isEmpty) a.moveTable ++
    part "Join order suggestions" (!a.joinOrders.isEmpty) a.joinTable ++
    a.degraded.map (fun n => "warning: " ++ n.advisor.name ++ " advisor degraded: " ++ n.reason))

end Advice

end QueryAdvisor
