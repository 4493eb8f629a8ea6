import QueryAdvisor.Predicate.Selectivity
import QueryAdvisor.Error
import QueryAdvisor.Json.Basic
/-!
# Index suggestions

A suggestion to index columns of a table: the kind of index, the estimated selectivity of the
filters it serves, why, what it brings, and how much it matters. A suggestion needs a table
name that is not blank and at least one column, none blank. The selectivity is clamped to
`[0, 1]` and sets the priority, which a caller may then raise or lower.

The index is named `idx_<table>_<columns>`, points in the table name turned into underscores
and columns joined by underscores, and is created by `CREATE INDEX <name> ON <table>
(<columns>)`. Two suggestions aim at the same index when table and columns are equal.
-/

namespace QueryAdvisor

/-- The kind of an index. -/
inductive IndexKind where
  | btree
  | hash
  | composite
  | unique
  | conditional
deriving DecidableEq, Repr

namespace IndexKind

/-- The name of a kind. -/
def name : IndexKind → String
  | .btree => "BTREE"
  | .hash => "HASH"
  | .composite => "COMPOSITE"
  | .unique => "UNIQUE"
  | .conditional => "PARTIAL"

/-- What a kind of index is. -/
def description : IndexKind → String
  | .btree => "Ordered index supporting equality and range lookups"
  | .hash => "Hash index supporting equality lookups only"
  | .composite => "Multi-column index for columns filtered together"
  | .unique => "Index enforcing uniqueness of the indexed columns"
  | .conditional => "Index covering only rows matching a condition"

/-- All kinds, in order. -/
def all : List IndexKind := [.btree, .hash, .composite, .unique, .conditional]

end IndexKind

/-- A suggestion to create an index. -/
structure IndexSuggestion where
  table : String
  columns : List String
  kind : IndexKind
  selectivity : Float
  reason : String
  impact : String
  priority : Priority

namespace IndexSuggestion

/-- A suggestion without reason and impact, its priority set by its selectivity. -/
def make (table : String) (columns : List String) (kind : IndexKind) (selectivity : Float) :
    Except AdviceError IndexSuggestion :=
  if isBlankText table then .error (.invalidArgument "index suggestion requires a table name")
  else if columns.isEmpty || columns.any isBlankText then
    .error (.invalidArgument ("index suggestion on '" ++ table ++ "' requires at least one named column"))
  else
    let s := clampUnit selectivity
    .ok ⟨table, columns, kind, s, "", "", Priority.ofSelectivity s⟩

/-- The name of the index. -/
def indexName (s : IndexSuggestion) : String :=
  "idx_" ++ String.map (fun c => if c = '.' then '_' else c) s.table ++ "_" ++ "_".intercalate s.columns

/-- The statement that creates the index. -/
def ddl (s : IndexSuggestion) : String :=
  "CREATE INDEX " ++ s.indexName ++ " ON " ++ s.table ++ " (" ++ ", ".intercalate s.columns ++ ")"

/-- Whether two suggestions aim at the same index. -/
def sameTarget (a b : IndexSuggestion) : Bool := a.table == b.table && a.columns == b.columns

/-- The JSON form of a suggestion. -/
def toJson (s : IndexSuggestion) : Json :=
  .object [("table", .string s.table), ("columns", Json.ofStrings s.columns), ("kind", .string s.kind.name),
    ("estimated_selectivity", Json.ofFloat s.selectivity), ("reason", .string s.reason),
    ("expected_impact", .string s.impact), ("priority", .string s.priority.name)]

end IndexSuggestion

end QueryAdvisor
