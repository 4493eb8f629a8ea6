import QueryAdvisor.Predicate.Selectivity
/-!
# Table statistics

What the advisors know of the data comes from a source of estimates (`TableStatistics`): a
table's estimated row count, the selectivity of a join of two tables on a column, and whether a
column of a table is indexed. The advisors take any source; without one they assume a thousand
rows a table, a tenth for every join and no index.

A snapshot (`Statistics`) is one source: an estimated row count per table, a selectivity per
join key, and which columns are indexed. Tables are named without white space around them and
without regard to ASCII case; a join key is the two tables in either order and the key's
column. A table without a count has the default count, a join key without a selectivity the
default selectivity, and join selectivities are clamped to `[0, 1]`. Entries are kept in a
list; a later entry of the same key replaces an earlier one.
-/

namespace QueryAdvisor

/-- A source of estimates: the rows of a table, the share of the cross product of two tables
that a join on a column keeps, and whether a table has an index led by a column. -/
structure TableStatistics where
  rowCount : String → Nat := fun _ => 1000
  joinSelectivity : String → String → String → Float := fun _ _ _ => 0.1
  hasIndex : String → String → Bool := fun _ _ => false

/-- A name as the statistics key it: no white space around it, ASCII letters in lower case. -/
def normalizeName (name : String) : String := (trimBlank name).toLower

/-- The key of a join: the two tables, the lesser first, and the key column. -/
def joinKey (left right field : String) : String × String × String :=
  let l := normalizeName left
  let r := normalizeName right
  let f := normalizeName (unqualified field)
  if l ≤ r then (l, r, f) else (r, l, f)

/-- Replaces the entry of a key, or adds one. -/
def setEntry {κ α : Type} [BEq κ] (entries : List (κ × α)) (key : κ) (value : α) : List (κ × α) :=
  (key, value) :: entries.filter (fun e => !(e.1 == key))

/-- Estimates of the data. -/
structure Statistics where
  rows : List (String × Nat) := []
  joins : List ((String × String × String) × Float) := []
  indexes : List (String × String) := []
  defaultRows : Nat := 1000
  defaultJoinSelectivity : Float := 0.1

namespace Statistics

/-- Sets the row count of a table. -/
def withRowCount (s : Statistics) (table : String) (rows : Nat) : Statistics :=
  { s with rows := setEntry s.rows (normalizeName table) rows }

/-- Sets the selectivity of a join key, clamped to `[0, 1]`. -/
def withJoinSelectivity (s : Statistics) (left right field : String) (selectivity : Float) : Statistics :=
  { s with joins := setEntry s.joins (joinKey left right field) (clampUnit selectivity) }

/-- Records an index on a column of a table. -/
def withIndex (s : Statistics) (table field : String) : Statistics :=
  let key := (normalizeName table, normalizeName field)
  { s with indexes := key :: s.indexes.filter (· != key) }

/-- Sets the row count of tables without one. -/
def withDefaultRowCount (s : Statistics) (rows : Nat) : Statistics := { s with defaultRows := rows }

/-- Sets the selectivity of join keys without one, clamped to `[0, 1]`. -/
def withDefaultJoinSelectivity (s : Statistics) (selectivity : Float) : Statistics :=
  { s with defaultJoinSelectivity := clampUnit selectivity }

/-- The estimated row count of a table. -/
def rowCount (s : Statistics) (table : String) : Nat :=
  match s.rows.find? (·.1 == normalizeName table) with
  | some (_, n) => n
  | none => s.defaultRows

/-- The selectivity of joining two tables on a column. -/
def joinSelectivity (s : Statistics) (left right field : String) : Float :=
  let key := joinKey left right field
  match s.joins.find? (·.1 == key) with
  | some (_, x) => x
  | none => s.defaultJoinSelectivity

/-- Whether a column of a table is indexed; the field's qualifier does not count. -/
def hasIndex (s : Statistics) (table field : String) : Bool :=
  s.indexes.contains (normalizeName table, normalizeName (unqualified field))

/-- The snapshot as a source of estimates. -/
def toTableStatistics (s : Statistics) : TableStatistics := ⟨s.rowCount, s.joinSelectivity, s.hasIndex⟩

instance : Coe Statistics TableStatistics := ⟨toTableStatistics⟩

end Statistics

end QueryAdvisor
