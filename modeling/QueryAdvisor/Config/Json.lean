import QueryAdvisor.Config.Basic
import QueryAdvisor.Json.Decode
/-!
# Configurations as JSON

A configuration is an object with one member per setting, named in snake case; every member
may be left out and then has its default, and members of other names are passed over. The
target is one of `GENERIC`, `POSTGRESQL`, `MYSQL`, `H2`, `ORACLE` and `SQL_SERVER`; the
policies are an object with the members `index`, `pushdown` and `join_reorder`, each
`degrade` or `propagate`.
-/

namespace QueryAdvisor

/-- Reads a target database. -/
def TargetDatabase.ofJson (j : Json) (path : List Nat) : Json.Decoded TargetDatabase :=
  (Json.asVariant (Json.numbered (TargetDatabase.all.map TargetDatabase.key)) j path).map
    (fun i => (TargetDatabase.all[i]?).getD .generic)

/-- Reads a failure policy. -/
def FailurePolicy.ofJson (j : Json) (path : List Nat) : Json.Decoded FailurePolicy :=
  (Json.asVariant (Json.numbered ["degrade", "propagate"]) j path).map
    (fun i => if i = 0 then .degrade else .propagate)

namespace FailurePolicies

/-- The JSON form of the policies. -/
def toJson (p : FailurePolicies) : Json :=
  .object [("index", .string p.index.key), ("pushdown", .string p.pushdown.key),
    ("join_reorder", .string p.joinReorder.key)]

/-- Reads the policies; absent members keep their defaults. -/
def ofJson (j : Json) (path : List Nat) : Json.Decoded FailurePolicies := do
  let r ← Json.Record.of j path "struct FailurePolicies"
    [("index", Json.check FailurePolicy.ofJson), ("pushdown", Json.check FailurePolicy.ofJson),
     ("join_reorder", Json.check FailurePolicy.ofJson)] []
  let d : FailurePolicies := {}
  let index ← r.withDefault "index" FailurePolicy.ofJson d.index
  let pushdown ← r.withDefault "pushdown" FailurePolicy.ofJson d.pushdown
  let joinReorder ← r.withDefault "join_reorder" FailurePolicy.ofJson d.joinReorder
  .ok ⟨index, pushdown, joinReorder⟩

end FailurePolicies

namespace Config

/-- The JSON form of a configuration. -/
def toJson (c : Config) : Json :=
  .object [("index_suggestions_enabled", .bool c.indexSuggestions),
    ("predicate_pushdown_enabled", .bool c.predicatePushdown),
    ("join_reordering_enabled", .bool c.joinReordering),
    ("index_selectivity_threshold", Json.ofFloat c.indexSelectivityThreshold),
    ("predicate_reordering_threshold", Json.ofFloat c.predicateReorderingThreshold),
    ("join_reordering_threshold", Json.ofFloat c.joinReorderingThreshold),
    ("max_analysis_time_ms", Json.ofInt c.maxAnalysisTimeMs),
    ("max_composite_index_columns", Json.ofNat c.maxCompositeIndexColumns),
    ("verbose_output", .bool c.verbose), ("target_database", .string c.target.key),
    ("failure_policy", c.policies.toJson)]

/-- Reads a configuration; absent members keep their defaults. -/
def ofJson (j : Json) (path : List Nat) : Json.Decoded Config := do
  let usize := Json.asNatNamed "usize"
  let r ← Json.Record.of j path "struct OptimizerConfig"
    [("index_suggestions_enabled", Json.check Json.asBool), ("predicate_pushdown_enabled", Json.check Json.asBool),
     ("join_reordering_enabled", Json.check Json.asBool),
     ("index_selectivity_threshold", Json.check Json.asFloat),
     ("predicate_reordering_threshold", Json.check Json.asFloat),
     ("join_reordering_threshold", Json.check Json.asFloat),
     ("max_analysis_time_ms", Json.check Json.asInt64), ("max_composite_index_columns", Json.check usize),
     ("verbose_output", Json.check Json.asBool), ("target_database", Json.check TargetDatabase.ofJson),
     ("failure_policy", Json.check FailurePolicies.ofJson)] []
  let d : Config := {}
  .ok {
    indexSuggestions := ← r.withDefault "index_suggestions_enabled" Json.asBool d.indexSuggestions
    predicatePushdown := ← r.withDefault "predicate_pushdown_enabled" Json.asBool d.predicatePushdown
    joinReordering := ← r.withDefault "join_reordering_enabled" Json.asBool d.joinReordering
    indexSelectivityThreshold := ← r.withDefault "index_selectivity_threshold" Json.asFloat d.indexSelectivityThreshold
    predicateReorderingThreshold :=
      ← r.withDefault "predicate_reordering_threshold" Json.asFloat d.predicateReorderingThreshold
    joinReorderingThreshold := ← r.withDefault "join_reordering_threshold" Json.asFloat d.joinReorderingThreshold
    maxAnalysisTimeMs := ← r.withDefault "max_analysis_time_ms" Json.asInt64 d.maxAnalysisTimeMs
    maxCompositeIndexColumns := ← r.withDefault "max_composite_index_columns" usize d.maxCompositeIndexColumns
    verbose := ← r.withDefault "verbose_output" Json.asBool d.verbose
    target := ← r.withDefault "target_database" TargetDatabase.ofJson d.target
    policies := ← r.withDefault "failure_policy" FailurePolicies.ofJson d.policies }

end Config

end QueryAdvisor
