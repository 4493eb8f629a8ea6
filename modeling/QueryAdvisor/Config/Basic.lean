import QueryAdvisor.Error
import QueryAdvisor.Decimal.Layout
/-!
# Advisor configuration

Which advisors run, their thresholds, the time budget, the widest composite index, whether
the summary is detailed, the database the advice is for, and what each advisor does when part
of the query cannot be analysed: degrade (note it and go on) or propagate (fail the whole
analysis).

A configuration is valid when its three thresholds are numbers within `[0, 1]`, checked in
the order index, predicate, join, and a composite index may have at least one column. A budget
of zero or less milliseconds means no budget.
-/

namespace QueryAdvisor

/-- The database the advice is for. -/
inductive TargetDatabase where
  | generic
  | postgresql
  | mysql
  | h2
  | oracle
  | sqlServer
deriving DecidableEq, Repr

namespace TargetDatabase

/-- The name a person reads. -/
def displayName : TargetDatabase → String
  | .generic => "Generic SQL"
  | .postgresql => "PostgreSQL"
  | .mysql => "MySQL"
  | .h2 => "H2"
  | .oracle => "Oracle"
  | .sqlServer => "SQL Server"

/-- The name in configuration documents. -/
def key : TargetDatabase → String
  | .generic => "GENERIC"
  | .postgresql => "POSTGRESQL"
  | .mysql => "MYSQL"
  | .h2 => "H2"
  | .oracle => "ORACLE"
  | .sqlServer => "SQL_SERVER"

/-- The name in the structural dump. -/
def title : TargetDatabase → String
  | .generic => "Generic"
  | .postgresql => "Postgresql"
  | .mysql => "Mysql"
  | .h2 => "H2"
  | .oracle => "Oracle"
  | .sqlServer => "SqlServer"

/-- All targets, in order. -/
def all : List TargetDatabase := [.generic, .postgresql, .mysql, .h2, .oracle, .sqlServer]

end TargetDatabase

/-- What an advisor does when part of the query cannot be analysed. -/
inductive FailurePolicy where
  | degrade
  | propagate
deriving DecidableEq, Repr

/-- The name in configuration documents. -/
def FailurePolicy.key : FailurePolicy → String
  | .degrade => "degrade"
  | .propagate => "propagate"

/-- The name in the structural dump. -/
def FailurePolicy.title : FailurePolicy → String
  | .degrade => "Degrade"
  | .propagate => "Propagate"

/-- The policy of each advisor. -/
structure FailurePolicies where
  index : FailurePolicy := .degrade
  pushdown : FailurePolicy := .propagate
  joinReorder : FailurePolicy := .propagate
deriving DecidableEq, Repr

/-- Every advisor degrades. -/
def FailurePolicies.degradeAll : FailurePolicies := ⟨.degrade, .degrade, .degrade⟩

/-- Every advisor propagates. -/
def FailurePolicies.propagateAll : FailurePolicies := ⟨.propagate, .propagate, .propagate⟩

/-- The configuration of an analysis. -/
structure Config where
  indexSuggestions : Bool := true
  predicatePushdown : Bool := true
  joinReordering : Bool := true
  indexSelectivityThreshold : Float := 0.3
  predicateReorderingThreshold : Float := 0.1
  joinReorderingThreshold : Float := 0.1
  maxAnalysisTimeMs : Int := 5000
  maxCompositeIndexColumns : Nat := 3
  verbose : Bool := false
  target : TargetDatabase := .generic
  policies : FailurePolicies := {}

/-- A threshold is a number within `[0, 1]`. -/
def checkFraction (name : String) (value : Float) : Except AdviceError Unit :=
  if value.isFinite && 0 ≤ value && value ≤ 1 then .ok ()
  else .error (.invalidArgument (name ++ " must be within [0, 1], got " ++ Decimal.Layout.plain.write value))

namespace Config

/-- Checks the thresholds and the composite width. -/
def validate (c : Config) : Except AdviceError Unit := do
  checkFraction "index_selectivity_threshold" c.indexSelectivityThreshold
  checkFraction "predicate_reordering_threshold" c.predicateReorderingThreshold
  checkFraction "join_reordering_threshold" c.joinReorderingThreshold
  if c.maxCompositeIndexColumns < 1 then
    .error (.invalidArgument "max_composite_index_columns must be at least 1")
  else .ok ()

/-- The time budget in milliseconds, if there is one. -/
def budgetMs (c : Config) : Option Nat :=
  if c.maxAnalysisTimeMs > 0 then some c.maxAnalysisTimeMs.toNat else none

/-- The structural dump of a configuration. -/
def dump (c : Config) : String :=
  let b (x : Bool) := if x then "true" else "false"
  let f := Decimal.Layout.debug.write
  "OptimizerConfig \x7b index_suggestions_enabled: " ++ b c.indexSuggestions ++
    ", predicate_pushdown_enabled: " ++ b c.predicatePushdown ++
    ", join_reordering_enabled: " ++ b c.joinReordering ++
    ", index_selectivity_threshold: " ++ f c.indexSelectivityThreshold ++
    ", predicate_reordering_threshold: " ++ f c.predicateReorderingThreshold ++
    ", join_reordering_threshold: " ++ f c.joinReorderingThreshold ++
    ", max_analysis_time_ms: " ++ toString c.maxAnalysisTimeMs ++
    ", max_composite_index_columns: " ++ toString c.maxCompositeIndexColumns ++
    ", verbose_output: " ++ b c.verbose ++
    ", target_database: " ++ c.target.title ++
    ", failure_policy: FailurePolicies \x7b index: " ++ c.policies.index.title ++
    ", pushdown: " ++ c.policies.pushdown.title ++
    ", join_reorder: " ++ c.policies.joinReorder.title ++ " \x7d \x7d"

end Config

end QueryAdvisor
