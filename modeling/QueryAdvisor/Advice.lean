import QueryAdvisor.Suggestion.Json
import QueryAdvisor.Config.Basic
/-!
# The advice for a query

The advice of one analysis: the index, placement and join order suggestions, the time the
analysis took, a one-line summary, a note for each advisor that stepped over part of the query,
and the database the advice is for.

The summary counts the suggestions: none found; or how many, of which how many index and
placement suggestions matter much, and how many of each kind. A detailed summary adds the time
and the database, and each note.
-/

namespace QueryAdvisor

/-- One of the three advisors. -/
inductive AdvisorKind where
  | index
  | pushdown
  | joinReorder
deriving DecidableEq, Repr

namespace AdvisorKind

/-- The name of an advisor. -/
def name : AdvisorKind → String
  | .index => "index"
  | .pushdown => "pushdown"
  | .joinReorder => "join_reorder"

/-- All advisors, in order. -/
def all : List AdvisorKind := [.index, .pushdown, .joinReorder]

/-- Reads an advisor by its name. -/
def ofJson (j : Json) (path : List Nat) : Json.Decoded AdvisorKind := Json.asNamed all name .index j path

end AdvisorKind

/-- An advisor that stepped over part of the query, and why. -/
structure DegradedNote where
  advisor : AdvisorKind
  reason : String

/-- The advice of one analysis. -/
structure Advice where
  indexes : List IndexSuggestion
  moves : List PushdownSuggestion
  joinOrders : List JoinOrderSuggestion
  /-- The time the analysis took, in nanoseconds. -/
  elapsedNs : Nat
  summary : String
  degraded : List DegradedNote
  target : TargetDatabase

/-- The summary of SQL text, which is not analysed. -/
def sqlTextUnsupported : String :=
  "SQL text analysis is not supported; build a QueryModel to receive suggestions."

/-- A time in nanoseconds as milliseconds with three places. -/
def showMillis (ns : Nat) : String :=
  let us := (ns + 500) / 1000
  toString (us / 1000) ++ "." ++ String.ofList ((toString (us % 1000 + 1000)).toList.drop 1)

namespace Advice

/-- The number of suggestions. -/
def total (a : Advice) : Nat := a.indexes.length + a.moves.length + a.joinOrders.length

/-- Whether there is any suggestion. -/
def hasSuggestions (a : Advice) : Bool := a.total > 0

/-- Whether there is neither a suggestion nor a note. -/
def isEmpty (a : Advice) : Bool := !a.hasSuggestions && a.degraded.isEmpty

/-- Whether some advisor stepped over part of the query. -/
def isDegraded (a : Advice) : Bool := !a.degraded.isEmpty

/-- The number of index suggestions that matter much. -/
def highIndexes (a : Advice) : Nat := (a.indexes.filter (·.priority == .high)).length

/-- The summary line. -/
def summarize (a : Advice) (verbose : Bool) : String :=
  let high := a.highIndexes + (a.moves.filter (·.priority == .high)).length
  let counts := toString a.indexes.length ++ " index, " ++ toString a.moves.length ++ " predicate, " ++
    toString a.joinOrders.length ++ " join order."
  let head :=
    if !a.hasSuggestions then "No optimization opportunities found."
    else if high > 0 then
      "Found " ++ toString a.total ++ " suggestion(s), " ++ toString high ++ " high priority: " ++ counts
    else "Found " ++ toString a.total ++ " suggestion(s): " ++ counts
  if verbose then
    head ++ " Analyzed in " ++ showMillis a.elapsedNs ++ "ms for " ++ a.target.displayName ++ "." ++
      String.join (a.degraded.map (fun n => " " ++ n.advisor.name ++ " advisor degraded: " ++ n.reason ++ "."))
  else head

/-- The advice of the parts of an analysis, with its summary. -/
def ofParts (indexes : List IndexSuggestion) (moves : List PushdownSuggestion)
    (joinOrders : List JoinOrderSuggestion) (elapsedNs : Nat) (degraded : List DegradedNote)
    (target : TargetDatabase) (verbose : Bool) : Advice :=
  let a : Advice := ⟨indexes, moves, joinOrders, elapsedNs, "", degraded, target⟩
  { a with summary := a.summarize verbose }

/-- The advice for SQL text: nothing, and a summary that says why. -/
def forSqlText (target : TargetDatabase) : Advice := ⟨[], [], [], 0, sqlTextUnsupported, [], target⟩

/-- The JSON form of the advice, the time as seconds and nanoseconds. -/
def toJson (a : Advice) : Json :=
  .object [("index_suggestions", .array (a.indexes.map IndexSuggestion.toJson)),
    ("pushdown_suggestions", .array (a.moves.map PushdownSuggestion.toJson)),
    ("join_suggestions", .array (a.joinOrders.map JoinOrderSuggestion.toJson)),
    ("analysis_time", .object [("secs", Json.ofNat (a.elapsedNs / 1000000000)),
      ("nanos", Json.ofNat (a.elapsedNs % 1000000000))]),
    ("summary", .string a.summary),
    ("degraded", .array (a.degraded.map (fun n => .object [("advisor", .string n.advisor.name), ("reason", .string n.reason)]))),
    ("target_database", .string a.target.key)]

end Advice

end QueryAdvisor
