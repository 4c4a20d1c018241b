import UsageRules.CommandLine.Arguments
import UsageRules.CommandLine.Command
import UsageRules.CommandLine.Report
import UsageRules.Config
import UsageRules.Convention.Known
import UsageRules.Convention.Reduction
import UsageRules.Convention.Selection
import UsageRules.Convention.Validity
import UsageRules.Corpus
import UsageRules.Decimal.Double
import UsageRules.Decimal.Numeral
import UsageRules.Decimal.Shortest
import UsageRules.Decimal.Style
import UsageRules.Declaration
import UsageRules.Digest
import UsageRules.Fact
import UsageRules.Files.Error
import UsageRules.Files.Host
import UsageRules.Files.Path
import UsageRules.Files.Tree
import UsageRules.Frequent.Basic
import UsageRules.Frequent.Mining
import UsageRules.Frequent.PrefixTree
import UsageRules.Graph.Edge
import UsageRules.Graph.Json
import UsageRules.Graph.Node
import UsageRules.History
import UsageRules.ItemSet
import UsageRules.Json.Parser
import UsageRules.Json.Printer
import UsageRules.Json.Reader
import UsageRules.Json.Value
import UsageRules.Label
import UsageRules.Location
import UsageRules.Main
import UsageRules.Miner
import UsageRules.Pattern.Basic
import UsageRules.Pattern.CharSet
import UsageRules.Pattern.Parser
import UsageRules.Pattern.Program
import UsageRules.Pattern.Search
import UsageRules.Proofs.CommandLine.Failure
import UsageRules.Proofs.CommandLine.Labelling
import UsageRules.Proofs.CommandLine.MiningReport
import UsageRules.Proofs.CommandLine.MiningSteps
import UsageRules.Proofs.CommandLine.Running
import UsageRules.Proofs.Config
import UsageRules.Proofs.Convention.Consequent
import UsageRules.Proofs.Convention.Labelling
import UsageRules.Proofs.Convention.MaximalSets
import UsageRules.Proofs.Convention.Pruning
import UsageRules.Proofs.Convention.RequiredParams
import UsageRules.Proofs.Convention.RuleChoice
import UsageRules.Proofs.Convention.RuleValidity
import UsageRules.Proofs.Convention.Selection
import UsageRules.Proofs.Corpus.Batches
import UsageRules.Proofs.Corpus.Preparation
import UsageRules.Proofs.Decimal.Comparison
import UsageRules.Proofs.Decimal.Quotient
import UsageRules.Proofs.Decimal.Rounding
import UsageRules.Proofs.Digest.Collision
import UsageRules.Proofs.Digest.Stream
import UsageRules.Proofs.Fact
import UsageRules.Proofs.Files.Change
import UsageRules.Proofs.Files.Directory
import UsageRules.Proofs.Files.Path
import UsageRules.Proofs.Files.Tree
import UsageRules.Proofs.Frequent.Exactness
import UsageRules.Proofs.Frequent.PathWeights
import UsageRules.Proofs.Frequent.RankSearch
import UsageRules.Proofs.Frequent.SearchRuns
import UsageRules.Proofs.Frequent.TreeCounts
import UsageRules.Proofs.Frequent.TreeLinks
import UsageRules.Proofs.Frequent.TreePaths
import UsageRules.Proofs.Frequent.TreeWeights
import UsageRules.Proofs.Graph.Readings
import UsageRules.Proofs.History.CarryOver
import UsageRules.Proofs.History.Lookup
import UsageRules.Proofs.History.Order
import UsageRules.Proofs.History.Sightings
import UsageRules.Proofs.History.Storing
import UsageRules.Proofs.Json.Blank
import UsageRules.Proofs.Json.Literal
import UsageRules.Proofs.Json.Number
import UsageRules.Proofs.Json.Reader
import UsageRules.Proofs.Json.RoundTrip
import UsageRules.Proofs.Mining.Filters
import UsageRules.Proofs.Mining.ItemSets
import UsageRules.Proofs.Mining.Rearrangement
import UsageRules.Proofs.Mining.Rules
import UsageRules.Proofs.Mining.Stages
import UsageRules.Proofs.Record
import UsageRules.Proofs.Redundancy
import UsageRules.Proofs.Rule.Basic
import UsageRules.Proofs.Rule.Generation
import UsageRules.Proofs.Rule.Operations
import UsageRules.Proofs.RuleFile
import UsageRules.Proofs.RuleFile.AsConfig
import UsageRules.Proofs.RuleFile.Loading
import UsageRules.Proofs.RuleFile.Names
import UsageRules.Proofs.SetSize
import UsageRules.Proofs.SortedMap
import UsageRules.Proofs.Stability.Accounts
import UsageRules.Proofs.Stability.MissLabels
import UsageRules.Proofs.Stability.Novelty
import UsageRules.Proofs.Stability.Recall
import UsageRules.Proofs.Support
import UsageRules.Proofs.Traversal
import UsageRules.Proofs.Version
import UsageRules.Proofs.Version.Numerals
import UsageRules.Record
import UsageRules.Redundancy
import UsageRules.Rule.Basic
import UsageRules.Rule.Generation
import UsageRules.RuleFile
import UsageRules.RulesError
import UsageRules.SortedMap
import UsageRules.SortedSet
import UsageRules.Stability
import UsageRules.SupportIndex
import UsageRules.Text.CaseData
import UsageRules.Text.CharClass
import UsageRules.Text.Lowercase
import UsageRules.Text.Search
import UsageRules.Usage
import UsageRules.Version
