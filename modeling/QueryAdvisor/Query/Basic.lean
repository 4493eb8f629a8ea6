import QueryAdvisor.Predicate.Basic
/-!
# Query models

A query model describes a query without its SQL text: a base table with an optional alias,
the top-level predicates of its filter, its joins in the order written, its grouping and
ordering columns, and its aggregates.

A join names the joined table, an optional alias, the kind of join, and the two fields of its
condition: the left field, on a table already in the query, and the right field, on the joined
table. A name matches a table when it equals the table's name or alias up to ASCII case.
-/

namespace QueryAdvisor

/-- The kind of a join. -/
inductive JoinKind where
  | inner
  | left
  | right
  | full
  | cross
deriving DecidableEq, Repr

/-- The SQL keywords of a join kind. -/
def JoinKind.sql : JoinKind → String
  | .inner => "INNER JOIN"
  | .left => "LEFT JOIN"
  | .right => "RIGHT JOIN"
  | .full => "FULL JOIN"
  | .cross => "CROSS JOIN"

/-- A join of a table into the query. -/
structure Join where
  table : String
  aliasName : Option String
  kind : JoinKind
  leftField : String
  rightField : String

namespace Join

/-- The key column on the joined table. -/
def column (j : Join) : String := unqualified j.rightField

/-- Whether a name refers to the joined table or its alias. -/
def matchesName (j : Join) (name : String) : Bool :=
  sameName j.table name || (j.aliasName.map (sameName · name)).getD false

end Join

/-- An entry of the ordering. -/
structure OrderKey where
  column : String
  descending : Bool

/-- An aggregate function. -/
inductive AggregateFn where
  | count
  | sum
  | avg
  | min
  | max
deriving DecidableEq, Repr

/-- The SQL name of an aggregate function. -/
def AggregateFn.name : AggregateFn → String
  | .count => "COUNT"
  | .sum => "SUM"
  | .avg => "AVG"
  | .min => "MIN"
  | .max => "MAX"

/-- An aggregate expression. -/
structure Aggregate where
  fn : AggregateFn
  column : Option String
  aliasName : Option String

/-- A query model. -/
structure Query where
  table : String
  aliasName : Option String := none
  predicates : List Predicate := []
  joins : List Join := []
  groupBy : List String := []
  orderBy : List OrderKey := []
  aggregates : List Aggregate := []

namespace Query

/-- Whether the query joins any table. -/
def hasJoins (q : Query) : Bool := !q.joins.isEmpty

/-- The base table followed by each joined table. -/
def joinSequence (q : Query) : List String := q.table :: q.joins.map (·.table)

/-- Whether a name refers to the base table or its alias. -/
def isBaseTable (q : Query) (name : String) : Bool :=
  sameName q.table name || (q.aliasName.map (sameName · name)).getD false

/-- The table a qualifier names: the first join that it matches, else the base table. -/
def tableOf (q : Query) (qualifier : Option String) : String :=
  match qualifier with
  | some name =>
    match q.joins.find? (·.matchesName name) with
    | some j => j.table
    | none => q.table
  | none => q.table

end Query

end QueryAdvisor
