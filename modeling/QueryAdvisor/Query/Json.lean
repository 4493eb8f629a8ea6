import QueryAdvisor.Query.Basic
import QueryAdvisor.Predicate.Json
/-!
# Query models as JSON

A query model is an object with the members `table`, `alias`, `predicates`, `joins`,
`group_by`, `order_by` and `aggregates`; only `table` must be present. A join has `table`,
`alias`, `join_type` (`inner` when absent), `left_field` and `right_field`; an ordering entry
has `column` and `descending` (false when absent); an aggregate has `function`, `column` and
`alias`.
-/

namespace QueryAdvisor

namespace JoinKind

/-- The names of the join kinds, in their order. -/
def names : List String := ["inner", "left", "right", "full", "cross"]

/-- The name of a join kind. -/
def name : JoinKind → String
  | .inner => "inner"
  | .left => "left"
  | .right => "right"
  | .full => "full"
  | .cross => "cross"

/-- The join kind with an index. -/
def ofIndex : Nat → JoinKind
  | 0 => .inner
  | 1 => .left
  | 2 => .right
  | 3 => .full
  | _ => .cross

/-- Reads a join kind. -/
def ofJson (j : Json) (path : List Nat) : Json.Decoded JoinKind :=
  (Json.asVariant (Json.numbered names) j path).map ofIndex

end JoinKind

namespace AggregateFn

/-- The names of the aggregate functions, in their order. -/
def names : List String := ["COUNT", "SUM", "AVG", "MIN", "MAX"]

/-- Reads an aggregate function. -/
def ofJson (j : Json) (path : List Nat) : Json.Decoded AggregateFn :=
  (Json.asVariant (Json.numbered names) j path).map
    (fun i => match i with
      | 0 => .count
      | 1 => .sum
      | 2 => .avg
      | 3 => .min
      | _ => .max)

end AggregateFn

namespace Join

/-- The JSON form of a join. -/
def toJson (j : Join) : Json :=
  .object [("table", .string j.table), ("alias", Json.ofOption j.aliasName), ("join_type", .string j.kind.name),
    ("left_field", .string j.leftField), ("right_field", .string j.rightField)]

/-- Reads a join. -/
def ofJson (j : Json) (path : List Nat) : Json.Decoded Join := do
  let r ← Json.Record.of j path "struct JoinClause"
    [("table", Json.check Json.asString), ("alias", Json.check (Json.asOption Json.asString)),
     ("join_type", Json.check JoinKind.ofJson), ("left_field", Json.check Json.asString),
     ("right_field", Json.check Json.asString)]
    ["table", "left_field", "right_field"]
  let table ← r.need "table" Json.asString
  let aliasName ← r.opt "alias" Json.asString
  let kind ← r.withDefault "join_type" JoinKind.ofJson .inner
  let leftField ← r.need "left_field" Json.asString
  let rightField ← r.need "right_field" Json.asString
  .ok ⟨table, aliasName, kind, leftField, rightField⟩

end Join

namespace OrderKey

/-- The JSON form of an ordering entry. -/
def toJson (o : OrderKey) : Json := .object [("column", .string o.column), ("descending", .bool o.descending)]

/-- Reads an ordering entry. -/
def ofJson (j : Json) (path : List Nat) : Json.Decoded OrderKey := do
  let r ← Json.Record.of j path "struct OrderBy"
    [("column", Json.check Json.asString), ("descending", Json.check Json.asBool)] ["column"]
  let column ← r.need "column" Json.asString
  let descending ← r.withDefault "descending" Json.asBool false
  .ok ⟨column, descending⟩

end OrderKey

namespace Aggregate

/-- The JSON form of an aggregate. -/
def toJson (a : Aggregate) : Json :=
  .object [("function", .string a.fn.name), ("column", Json.ofOption a.column), ("alias", Json.ofOption a.aliasName)]

/-- Reads an aggregate. -/
def ofJson (j : Json) (path : List Nat) : Json.Decoded Aggregate := do
  let r ← Json.Record.of j path "struct Aggregate"
    [("function", Json.check AggregateFn.ofJson), ("column", Json.check (Json.asOption Json.asString)),
     ("alias", Json.check (Json.asOption Json.asString))] ["function"]
  let fn ← r.need "function" AggregateFn.ofJson
  let column ← r.opt "column" Json.asString
  let aliasName ← r.opt "alias" Json.asString
  .ok ⟨fn, column, aliasName⟩

end Aggregate

namespace Query

/-- The JSON form of a query model. -/
def toJson (q : Query) : Json :=
  .object [("table", .string q.table), ("alias", Json.ofOption q.aliasName),
    ("predicates", .array (Predicate.toJsonList q.predicates)), ("joins", .array (q.joins.map Join.toJson)),
    ("group_by", Json.ofStrings q.groupBy), ("order_by", .array (q.orderBy.map OrderKey.toJson)),
    ("aggregates", .array (q.aggregates.map Aggregate.toJson))]

/-- Reads a query model. -/
def ofJson (j : Json) (path : List Nat) : Json.Decoded Query := do
  let r ← Json.Record.of j path "struct QueryModel"
    [("table", Json.check Json.asString), ("alias", Json.check (Json.asOption Json.asString)),
     ("predicates", Json.check (Json.asList Predicate.ofJson)), ("joins", Json.check (Json.asList Join.ofJson)),
     ("group_by", Json.check (Json.asList Json.asString)), ("order_by", Json.check (Json.asList OrderKey.ofJson)),
     ("aggregates", Json.check (Json.asList Aggregate.ofJson))]
    ["table"]
  let table ← r.need "table" Json.asString
  let aliasName ← r.opt "alias" Json.asString
  let predicates ← r.withDefault "predicates" (Json.asList Predicate.ofJson) []
  let joins ← r.withDefault "joins" (Json.asList Join.ofJson) []
  let groupBy ← r.withDefault "group_by" (Json.asList Json.asString) []
  let orderBy ← r.withDefault "order_by" (Json.asList OrderKey.ofJson) []
  let aggregates ← r.withDefault "aggregates" (Json.asList Aggregate.ofJson) []
  .ok ⟨table, aliasName, predicates, joins, groupBy, orderBy, aggregates⟩

end Query

end QueryAdvisor
