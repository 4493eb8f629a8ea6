import QueryAdvisor.Decimal.Shortest
import QueryAdvisor.Decimal.Layout
import QueryAdvisor.Decimal.Reader
import QueryAdvisor.Json.Basic
import QueryAdvisor.Json.Reader
import QueryAdvisor.Json.Decode
import QueryAdvisor.Json.Stream
import QueryAdvisor.Text.Blank
import QueryAdvisor.Value.Calendar
import QueryAdvisor.Value.Uuid
import QueryAdvisor.Value.Basic
import QueryAdvisor.Predicate.Basic
import QueryAdvisor.Query.Basic
import QueryAdvisor.Predicate.Selectivity
import QueryAdvisor.Value.Json
import QueryAdvisor.Predicate.Json
import QueryAdvisor.Query.Json
import QueryAdvisor.Query.Text
import QueryAdvisor.Error
import QueryAdvisor.Statistics
import QueryAdvisor.JoinGraph
import QueryAdvisor.Config.Basic
import QueryAdvisor.Config.Json
import QueryAdvisor.Suggestion.Index
import QueryAdvisor.Suggestion.Pushdown
import QueryAdvisor.Suggestion.JoinOrder
import QueryAdvisor.Advisor.Index
import QueryAdvisor.Decimal.TotalOrder
import QueryAdvisor.Advisor.Pushdown
import QueryAdvisor.Advisor.JoinOrder
import QueryAdvisor.Suggestion.Json
import QueryAdvisor.Advice
import QueryAdvisor.Analysis
import QueryAdvisor.Text.CharClass
import QueryAdvisor.Text.Width
import QueryAdvisor.Text.BoxTable
import QueryAdvisor.Report
import QueryAdvisor.Text.Jaro
import QueryAdvisor.Cli.Args
import QueryAdvisor.Cli.Run
import QueryAdvisor.Main
import QueryAdvisor.Toml.Basic
import QueryAdvisor.Toml.Scalar
import QueryAdvisor.Toml.Reader
import QueryAdvisor.Config.Toml
import QueryAdvisor.Proofs.Leaves
import QueryAdvisor.Proofs.Composition
import QueryAdvisor.Proofs.Policy
import QueryAdvisor.Proofs.JoinOrder
import QueryAdvisor.Proofs.Faults
import QueryAdvisor.Proofs.Budget
import QueryAdvisor.Proofs.Degrade
import QueryAdvisor.Proofs.KeepBest
import QueryAdvisor.Proofs.Success
import QueryAdvisor.Proofs.Placement
import QueryAdvisor.Proofs.IndexShape
import QueryAdvisor.Proofs.IndexMerge
import QueryAdvisor.Proofs.FloatOrder
import QueryAdvisor.Proofs.FloatRound
import QueryAdvisor.Proofs.FloatValue
import QueryAdvisor.Proofs.ReorderRank
import QueryAdvisor.Proofs.CompositeIndex
import QueryAdvisor.Proofs.ReorderThreshold
import QueryAdvisor.Proofs.JoinChoice
import QueryAdvisor.Proofs.GreedyRound
import QueryAdvisor.Proofs.JoinLinks
import QueryAdvisor.Proofs.ClauseOrder
import QueryAdvisor.Proofs.JsonTokens
import QueryAdvisor.Proofs.JsonDocuments
import QueryAdvisor.Proofs.Decoding
import QueryAdvisor.Proofs.QueryText
import QueryAdvisor.Proofs.StatisticsSnapshot
import QueryAdvisor.Proofs.JoinFaults
import QueryAdvisor.Proofs.MoveSources
import QueryAdvisor.Proofs.PushTargets
import QueryAdvisor.Proofs.IndexCitations
import QueryAdvisor.Proofs.GreedyLoop
import QueryAdvisor.Proofs.ResultCache
