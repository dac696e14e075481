import ModulePolicy.Number.Decimal
import ModulePolicy.Text.Lowercase
import ModulePolicy.Collection.OrderedMap
import ModulePolicy.Module.Alias
import ModulePolicy.Glob.Matching
import ModulePolicy.Ownership
import ModulePolicy.Similarity.Ranking
import ModulePolicy.Resolution.LookupCache
import ModulePolicy.Graph.Neighborhood
import ModulePolicy.Scan.Check
import ModulePolicy.Json.Quoted
import ModulePolicy.Json.Skipped
import ModulePolicy.Json.PolicyFormat
import ModulePolicy.Json.ScanFormat
import ModulePolicy.Toml.Quoted
import ModulePolicy.Resolution.SettingsFile
import ModulePolicy.Workspace
import ModulePolicy.Proofs.Workspace.Transparency
import ModulePolicy.Proofs.Graph.Neighborhood
import ModulePolicy.Glob.Translation
import ModulePolicy.Proofs.Glob.Matching
import ModulePolicy.Proofs.Glob.Translation
import ModulePolicy.Proofs.Glob.Segments
import ModulePolicy.Proofs.Collection.List
import ModulePolicy.Proofs.Ownership.Index
import ModulePolicy.Proofs.Scan.Rules
import ModulePolicy.Proofs.Scan.Pass
import ModulePolicy.Proofs.Scan.Breach
import ModulePolicy.Proofs.Scan.Callers
import ModulePolicy.Proofs.Number.Order
import ModulePolicy.Proofs.Number.Rounding
import ModulePolicy.Proofs.Similarity.Alignment
import ModulePolicy.Proofs.Similarity.LeastEdits
import ModulePolicy.Proofs.Similarity.TwoRows
import ModulePolicy.Proofs.Similarity.Score
import ModulePolicy.Proofs.Similarity.Ranking
import ModulePolicy.Proofs.Similarity.Containment
import ModulePolicy.Proofs.Workspace.Reachable
import ModulePolicy.Proofs.Resolution.Answer
import ModulePolicy.Proofs.Resolution.Tiers
import ModulePolicy.Proofs.Resolution.Batch
import ModulePolicy.Proofs.Resolution.Suggestions
import ModulePolicy.Proofs.Json.Lossless
import ModulePolicy.Proofs.Json.RoundTrip
import ModulePolicy.Proofs.Ownership.Agreement
import ModulePolicy.Proofs.Ownership.DeclarationOrder
import ModulePolicy.Proofs.Scan.FileOrder
import ModulePolicy.Proofs.Graph.Radius
import ModulePolicy.Proofs.Module.History
import ModulePolicy.Proofs.Module.Slots
import ModulePolicy.Proofs.Workspace.Step
import ModulePolicy.Proofs.Workspace.Stamps
import ModulePolicy.Proofs.Workspace.Histories
import ModulePolicy.Proofs.Resolution.Content
import ModulePolicy.Proofs.Graph.Edges
import ModulePolicy.Proofs.Graph.Expansion
import ModulePolicy.Proofs.Graph.Extensionality
import ModulePolicy.Proofs.Resolution.WellFormed
import ModulePolicy.Proofs.Resolution.Repair
import ModulePolicy.Proofs.Resolution.Dangling
import ModulePolicy.Proofs.Workspace.CacheLog
import ModulePolicy.Proofs.Workspace.Counters
import ModulePolicy.Proofs.Glob.StarRuns
import ModulePolicy.Proofs.Scan.MissingChecks
import ModulePolicy.Proofs.Collection.PlaceByPlace
import ModulePolicy.Proofs.Scan.CallerFrame
import ModulePolicy.Proofs.Scan.CallerEdits
import ModulePolicy.Proofs.Ownership.NewModule
import ModulePolicy.Proofs.Ownership.Separators
import ModulePolicy.Proofs.Number.Exactness
import ModulePolicy.Proofs.Similarity.PerfectScore
import ModulePolicy.Proofs.Resolution.FirstSuggestion
import ModulePolicy.Proofs.Number.Shortest
import ModulePolicy.Proofs.Toml.Word
import ModulePolicy.Proofs.Toml.Document
import ModulePolicy.Proofs.Resolution.SettingsFile
import ModulePolicy.Proofs.Scan.BadPatterns
import ModulePolicy.Proofs.Graph.Frontier
