import QueryAdvisor.Config.Json
import QueryAdvisor.Toml.Reader
/-!
# Configurations as TOML

A configuration document gives any of the configuration's fields by name, in the root table,
and the failure policies in a table `failure_policy`, inline or under a header. Missing fields
keep their defaults, unknown ones are passed over, and the fields are read in the order the
document gives them, so the first bad one is the one reported.

An integer stands for a float where a float is wanted. A name of a target database or policy
is a string; a table with the name as its single key and an empty value also names it.

A configuration read from a document is checked as a whole afterwards: a text that reads but
holds a threshold outside `[0, 1]` is an invalid argument, not a configuration fault.
-/

namespace QueryAdvisor

namespace Toml

/-- A complaint about a value, pointing at it. -/
def complain {α : Type} (v : Toml) (p : Json.Problem) : Except TomlFault α :=
  .error ⟨v.start, v.stop, p.message⟩

/-- Reads a boolean. -/
def asBool (v : Toml) : Except TomlFault Bool :=
  match v with
  | .boolean b _ _ => .ok b
  | _ => complain v (.invalidType v.found "a boolean")

/-- Reads a float; an integer is taken as the float nearest to it. -/
def asFloat (v : Toml) : Except TomlFault Float :=
  match v with
  | .float x _ _ => .ok x
  | .integer n _ _ => .ok (Float.ofInt n)
  | _ => complain v (.invalidType v.found "f64")

/-- Reads a signed 64-bit integer. -/
def asInt64 (v : Toml) : Except TomlFault Int :=
  match v with
  | .integer n _ _ => .ok n
  | _ => complain v (.invalidType v.found "i64")

/-- Reads a count. -/
def asCount (v : Toml) : Except TomlFault Nat :=
  match v with
  | .integer n _ _ => if n < 0 then complain v (.invalidValue v.found "usize") else .ok n.toNat
  | _ => complain v (.invalidType v.found "usize")

/-- Reads one of finitely many names: a string, or a table whose single key is the name and
whose value is empty. The name is looked up before the value is looked at, and an unknown one
points at the key. -/
def asNamed {α : Type} (all : List α) (name : α → String) (v : Toml) : Except TomlFault α :=
  let lookup (s : String) (start stop : Nat) : Except TomlFault α :=
    match all.find? (name · == s) with
    | some x => .ok x
    | none => .error ⟨start, stop, (Json.Problem.unknownVariant s (all.map name)).message⟩
  match v with
  | .string s start stop => lookup s start stop
  | .table [] _ s e => .error ⟨s, e, "wanted exactly 1 element, found 0 elements"⟩
  | .table [(k, inner)] _ _ _ => do
    let x ← lookup k.name k.start k.stop
    match inner with
    | .table [] _ _ _ | .array [] _ _ => .ok x
    | .table _ _ s e => .error ⟨s, e, "expected empty table"⟩
    | .array _ s e | .tables _ s e => .error ⟨s, e, "expected empty array"⟩
    | other => .error ⟨other.start, other.stop, "expected table, found " ++ other.typeName⟩
  | .table _ _ s e => .error ⟨s, e, "wanted exactly 1 element, more than 1 element"⟩
  | _ => .error ⟨v.start, v.stop, "wanted string or table"⟩

/-- The entries of a table, or the complaint that the value is none. -/
def entriesOf (v : Toml) (expected : String) : Except TomlFault (List (TomlKey × Toml)) :=
  match v with
  | .table entries _ _ _ => .ok entries
  | _ => complain v (.invalidType v.found expected)

end Toml

/-- Reads the failure policies from a table, or from an array of the policies of the index,
pushdown and join order advisors in that order, where missing ones keep their defaults and
further items are passed over. -/
def FailurePolicies.ofToml (v : Toml) : Except TomlFault FailurePolicies := do
  let policy := Toml.asNamed [FailurePolicy.degrade, .propagate] FailurePolicy.key
  let d : FailurePolicies := {}
  match v with
  | .array items _ _ | .tables items _ _ =>
    let item (i : Nat) (default : FailurePolicy) : Except TomlFault FailurePolicy :=
      match items[i]? with
      | some x => policy x
      | none => .ok default
    let index ← item 0 d.index
    let pushdown ← item 1 d.pushdown
    let joinReorder ← item 2 d.joinReorder
    .ok ⟨index, pushdown, joinReorder⟩
  | _ =>
    let entries ← Toml.entriesOf v "struct FailurePolicies"
    entries.foldlM (fun (p : FailurePolicies) (k, x) =>
      match k.name with
      | "index" => return { p with index := ← policy x }
      | "pushdown" => return { p with pushdown := ← policy x }
      | "join_reorder" => return { p with joinReorder := ← policy x }
      | _ => pure p) d

namespace Config

/-- Reads a configuration from the entries of a document's root table. -/
def ofTomlEntries (entries : List (TomlKey × Toml)) : Except TomlFault Config :=
  entries.foldlM (fun (c : Config) (k, v) =>
    match k.name with
    | "index_suggestions_enabled" => return { c with indexSuggestions := ← Toml.asBool v }
    | "predicate_pushdown_enabled" => return { c with predicatePushdown := ← Toml.asBool v }
    | "join_reordering_enabled" => return { c with joinReordering := ← Toml.asBool v }
    | "index_selectivity_threshold" => return { c with indexSelectivityThreshold := ← Toml.asFloat v }
    | "predicate_reordering_threshold" => return { c with predicateReorderingThreshold := ← Toml.asFloat v }
    | "join_reordering_threshold" => return { c with joinReorderingThreshold := ← Toml.asFloat v }
    | "max_analysis_time_ms" => return { c with maxAnalysisTimeMs := ← Toml.asInt64 v }
    | "max_composite_index_columns" => return { c with maxCompositeIndexColumns := ← Toml.asCount v }
    | "verbose_output" => return { c with verbose := ← Toml.asBool v }
    | "target_database" => return { c with target := ← Toml.asNamed TargetDatabase.all TargetDatabase.key v }
    | "failure_policy" => return { c with policies := ← FailurePolicies.ofToml v }
    | _ => pure c) {}

/-- Reads and checks a configuration document. -/
def ofToml (text : String) : Except AdviceError Config := do
  let c ← match Toml.read text >>= ofTomlEntries with
    | .ok c => .ok c
    | .error f => .error (.configuration (f.describe text))
  c.validate
  .ok c

end Config

end QueryAdvisor
