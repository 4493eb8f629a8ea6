import QueryAdvisor.Predicate.Json
import QueryAdvisor.Predicate.Selectivity
/-!
# Predicate placement suggestions

A suggestion to move a top-level predicate of a query: from its position to another, with its
estimated selectivity, the kind of move, why, what it brings, how much it matters, and the
table it should filter when it is pushed below a join. Its displacement is how far it moves.
-/

namespace QueryAdvisor

/-- The kind of a predicate move. -/
inductive PushdownKind where
  | reorderBySelectivity
  | pushToJoinSource
  | pushToSubquery
  | earlyFilter
  | indexFriendlyReorder
deriving DecidableEq, Repr

namespace PushdownKind

/-- The name of a kind. -/
def name : PushdownKind → String
  | .reorderBySelectivity => "REORDER_BY_SELECTIVITY"
  | .pushToJoinSource => "PUSH_TO_JOIN_SOURCE"
  | .pushToSubquery => "PUSH_TO_SUBQUERY"
  | .earlyFilter => "EARLY_FILTER"
  | .indexFriendlyReorder => "INDEX_FRIENDLY_REORDER"

/-- What a kind of move does. -/
def description : PushdownKind → String
  | .reorderBySelectivity => "Reorder predicates by selectivity"
  | .pushToJoinSource => "Push filter down to join source"
  | .pushToSubquery => "Push filter into subquery"
  | .earlyFilter => "Apply filter early"
  | .indexFriendlyReorder => "Reorder predicate to use an index"

/-- All kinds, in order. -/
def all : List PushdownKind :=
  [.reorderBySelectivity, .pushToJoinSource, .pushToSubquery, .earlyFilter, .indexFriendlyReorder]

end PushdownKind

/-- A suggestion to move a predicate. -/
structure PushdownSuggestion where
  predicate : Predicate
  fromPos : Nat
  toPos : Nat
  selectivity : Float
  kind : PushdownKind
  reason : String
  impact : String
  priority : Priority
  target : Option String

namespace PushdownSuggestion

/-- How far the predicate moves. -/
def displacement (s : PushdownSuggestion) : Nat := max s.fromPos s.toPos - min s.fromPos s.toPos

/-- The JSON form of a suggestion. -/
def toJson (s : PushdownSuggestion) : Json :=
  .object [("predicate", s.predicate.toJson), ("original_position", Json.ofNat s.fromPos),
    ("suggested_position", Json.ofNat s.toPos), ("estimated_selectivity", Json.ofFloat s.selectivity),
    ("kind", .string s.kind.name), ("reason", .string s.reason), ("expected_impact", .string s.impact),
    ("priority", .string s.priority.name), ("target_table", Json.ofOption s.target)]

end PushdownSuggestion

end QueryAdvisor
