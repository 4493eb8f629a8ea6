import QueryAdvisor.Statistics
import QueryAdvisor.Error
import QueryAdvisor.Json.Basic
/-!
# Join order suggestions

A suggestion to join the tables of a query in another order: the order written, the order
suggested, the kind of reasoning, the estimated improvement (clamped to `[0, 1]`), why, and
what it brings. The suggested order must hold the same tables as the written one, each as often.
-/

namespace QueryAdvisor

/-- The reasoning behind a join order. -/
inductive JoinOrderKind where
  | selectivityBased
  | indexDriven
deriving DecidableEq, Repr

namespace JoinOrderKind

/-- The name of a kind. -/
def name : JoinOrderKind → String
  | .selectivityBased => "SELECTIVITY_BASED"
  | .indexDriven => "INDEX_DRIVEN"

/-- What a kind of reasoning does. -/
def description : JoinOrderKind → String
  | .selectivityBased => "Join smaller, more selective tables first"
  | .indexDriven => "Join order chosen to probe indexed join keys"

end JoinOrderKind

/-- A suggestion to reorder joins. -/
structure JoinOrderSuggestion where
  original : List String
  suggested : List String
  kind : JoinOrderKind
  improvement : Float
  reason : String
  impact : String

namespace JoinOrderSuggestion

/-- A suggestion without reason and impact, if the suggested order rearranges the written
one. -/
def make (original suggested : List String) (kind : JoinOrderKind) (improvement : Float) :
    Except AdviceError JoinOrderSuggestion :=
  if original.isPerm suggested then .ok ⟨original, suggested, kind, clampUnit improvement, "", ""⟩
  else
    .error (.invalidArgument ("suggested join order [" ++ ", ".intercalate suggested ++
      "] is not a permutation of [" ++ ", ".intercalate original ++ "]"))

/-- The JSON form of a suggestion. -/
def toJson (s : JoinOrderSuggestion) : Json :=
  .object [("original_sequence", Json.ofStrings s.original), ("suggested_sequence", Json.ofStrings s.suggested),
    ("kind", .string s.kind.name), ("estimated_improvement", Json.ofFloat s.improvement),
    ("reason", .string s.reason), ("expected_impact", .string s.impact)]

end JoinOrderSuggestion

end QueryAdvisor
