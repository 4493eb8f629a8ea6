import QueryAdvisor.Query.Basic
/-!
# The join graph of a query

The tables of a query in join order, each with its alias and the kind of join that brought it
in (none for the base table), and one relationship per join: from the table its left field
names to the joined table, on the two key columns.

The left field names a table by the part before its last point, taken as written: the first
table already in the graph whose name or alias matches it, and the base table when none does
or the field has no point.

A predicate can be pushed to a table when it has leaves, the table came in by an inner or a
cross join, and every leaf is qualified by that table's name or alias. The empty graph has no
tables, so nothing can be pushed to it.
-/

namespace QueryAdvisor

/-- Splits a text at its last point: the parts before and after it. -/
def splitLastDot? (s : String) : Option (String × String) :=
  match s.toList.reverse.span (· != '.') with
  | (after, _ :: before) => some (String.ofList before.reverse, String.ofList after.reverse)
  | (_, []) => none

/-- A table of the join graph. -/
structure GraphTable where
  name : String
  aliasName : Option String
  kind : Option JoinKind

/-- Whether a name refers to the table or its alias. -/
def GraphTable.matches (t : GraphTable) (name : String) : Bool :=
  sameName t.name name || (t.aliasName.map (sameName · name)).getD false

/-- A join between two tables of the graph. -/
structure Relationship where
  leftTable : String
  rightTable : String
  leftField : String
  rightField : String
  kind : JoinKind

/-- The tables of a query in join order and the joins between them. -/
structure JoinGraph where
  tables : List GraphTable := []
  relationships : List Relationship := []

namespace JoinGraph

/-- Adds the joins of a query one by one. -/
def addJoins (base : String) : List GraphTable → List Relationship → List Join → List GraphTable × List Relationship
  | tables, rels, [] => (tables, rels)
  | tables, rels, j :: rest =>
    let leftTable :=
      match splitLastDot? j.leftField with
      | some (q, _) => ((tables.find? (·.matches q)).map (·.name)).getD base
      | none => base
    let rel : Relationship := ⟨leftTable, j.table, unqualified j.leftField, j.column, j.kind⟩
    addJoins base (tables ++ [⟨j.table, j.aliasName, some j.kind⟩]) (rels ++ [rel]) rest

/-- The join graph of a query. -/
def ofQuery (q : Query) : JoinGraph :=
  let (tables, rels) := addJoins q.table [⟨q.table, q.aliasName, none⟩] [] q.joins
  ⟨tables, rels⟩

/-- The names of the tables. -/
def tableNames (g : JoinGraph) : List String := g.tables.map (·.name)

/-- Whether a predicate can filter a table before the joins. -/
def canPush (g : JoinGraph) (p : Predicate) (table : String) : Bool :=
  let leaves := p.leaves
  !leaves.isEmpty &&
    g.tables.any (fun t =>
      sameName t.name table && (t.kind == some .inner || t.kind == some .cross) &&
        leaves.all (fun l => (l.qualifier?.map t.matches).getD false))

end JoinGraph

end QueryAdvisor
