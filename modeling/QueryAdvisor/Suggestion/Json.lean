import QueryAdvisor.Suggestion.Index
import QueryAdvisor.Suggestion.Pushdown
import QueryAdvisor.Suggestion.JoinOrder
import QueryAdvisor.Json.Decode
/-!
# Kinds of suggestions as JSON

Each kind of suggestion, and the priority, is read from its name.
-/

namespace QueryAdvisor

/-- All priorities, lowest first. -/
def Priority.all : List Priority := [.low, .medium, .high]

/-- Reads a priority. -/
def Priority.ofJson (j : Json) (path : List Nat) : Json.Decoded Priority :=
  Json.asNamed Priority.all Priority.name .low j path

/-- Reads a kind of index. -/
def IndexKind.ofJson (j : Json) (path : List Nat) : Json.Decoded IndexKind :=
  Json.asNamed IndexKind.all IndexKind.name .btree j path

/-- Reads a kind of placement suggestion. -/
def PushdownKind.ofJson (j : Json) (path : List Nat) : Json.Decoded PushdownKind :=
  Json.asNamed PushdownKind.all PushdownKind.name .reorderBySelectivity j path

/-- All kinds of join order suggestion. -/
def JoinOrderKind.all : List JoinOrderKind := [.selectivityBased, .indexDriven]

/-- Reads a kind of join order suggestion. -/
def JoinOrderKind.ofJson (j : Json) (path : List Nat) : Json.Decoded JoinOrderKind :=
  Json.asNamed JoinOrderKind.all JoinOrderKind.name .selectivityBased j path

end QueryAdvisor
