import Mendpoint.Calls.Build
import Mendpoint.Calls.CallerClosure
import Mendpoint.Calls.Forward
import Mendpoint.Calls.Impact
import Mendpoint.Calls.Incremental
import Mendpoint.Calls.Materialize
import Mendpoint.Calls.Persistent
import Mendpoint.Calls.Query
import Mendpoint.Calls.RedGreen
import Mendpoint.Calls.Saving
import Mendpoint.Calls.Soundness
import Mendpoint.Calls.VersionIndex
import Mendpoint.Campaign.Cohorts
import Mendpoint.Campaign.Discipline
import Mendpoint.Campaign.Executable
import Mendpoint.Campaign.Rollback
import Mendpoint.Catalog.Concurrency
import Mendpoint.ChangeGraph.Cache
import Mendpoint.ChangeGraph.Merge
import Mendpoint.ChangeIntel.GraphqlTypes
import Mendpoint.ChangeIntel.OpenApiCoverage
import Mendpoint.ChangeIntel.Reachable
import Mendpoint.Egraph.DisjointSets
import Mendpoint.Graph.Coverage
import Mendpoint.Graph.Dependencies
import Mendpoint.Graph.Isolation
import Mendpoint.Jobs.Safety
import Mendpoint.Library.BreadthFirst
import Mendpoint.Library.CanonicalJson
import Mendpoint.Library.Collation
import Mendpoint.Library.Counting
import Mendpoint.Library.Delimited
import Mendpoint.Library.Fallible
import Mendpoint.Library.GreedyMatching
import Mendpoint.Library.IsoTime
import Mendpoint.Library.Json
import Mendpoint.Library.JsonCodec
import Mendpoint.Library.JsonReader
import Mendpoint.Library.JsonText
import Mendpoint.Library.KeyedSort
import Mendpoint.Library.Numbers
import Mendpoint.Library.OrderedMap
import Mendpoint.Library.PointerForest
import Mendpoint.Library.PosixPath
import Mendpoint.Library.Run
import Mendpoint.Library.Succession
import Mendpoint.Library.Text
import Mendpoint.Library.TextOrder
import Mendpoint.Migration.Agents
import Mendpoint.Migration.Comparison
import Mendpoint.Mission.Register
import Mendpoint.Mission.Retelling
import Mendpoint.Mission.Starts
import Mendpoint.Ops.QuotaIsolation
import Mendpoint.Ops.RateLimit
import Mendpoint.Outage.Queued
import Mendpoint.Outage.Redelivery
import Mendpoint.Policy.Config
import Mendpoint.Policy.Coverage
import Mendpoint.Policy.Simulation
import Mendpoint.Repair.LineEdits
import Mendpoint.Secrets.Lifecycle
import Mendpoint.SoftwareGraph.Answers
import Mendpoint.SoftwareGraph.FirstChains
import Mendpoint.StagedPr.Completion
import Mendpoint.StagedPr.Determinism
import Mendpoint.StructuralGraph.Diff
import Mendpoint.Trust.EventAudit
import Mendpoint.Trust.TamperEvidence
import Mendpoint.Trust.TenantLogs
import Mendpoint.Usage.Billing
import Mendpoint.Usage.Bookkeeping
import Mendpoint.Usage.Money
import Mendpoint.Usage.Store
import Mendpoint.Usage.Tamper
import Mendpoint.Vault.Orders
import Mendpoint.Verifier.Evidence
import Mendpoint.Verifier.ScoreCache
import Mendpoint.Warden.Correspondence
