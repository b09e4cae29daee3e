import Atelia.Domain.Identifiers
import Atelia.Domain.Jobs
import Atelia.Domain.Records
import Atelia.Foundation.Attempt
import Atelia.Foundation.Catalog
import Atelia.Foundation.Chain
import Atelia.Foundation.Excerpt
import Atelia.Foundation.Feed
import Atelia.Foundation.Ipv6
import Atelia.Foundation.Layers
import Atelia.Foundation.Listing
import Atelia.Foundation.Mutex
import Atelia.Foundation.Occurrence
import Atelia.Foundation.Outcome
import Atelia.Foundation.Path
import Atelia.Foundation.Pool
import Atelia.Foundation.Program
import Atelia.Foundation.Readable
import Atelia.Foundation.Table
import Atelia.Foundation.Text
import Atelia.Foundation.Utf8
import Atelia.Ledger.AppendOnly
import Atelia.Ledger.Belonging
import Atelia.Ledger.BlockedRoots
import Atelia.Ledger.Commits
import Atelia.Ledger.EventJobs
import Atelia.Ledger.EventLinks
import Atelia.Ledger.EventLog
import Atelia.Ledger.EventRepository
import Atelia.Ledger.Growth
import Atelia.Ledger.Invariant
import Atelia.Ledger.JobEnds
import Atelia.Ledger.JobEvents
import Atelia.Ledger.JobLifecycle
import Atelia.Ledger.JobLog
import Atelia.Ledger.JobMoves
import Atelia.Ledger.LiveDelivery
import Atelia.Ledger.LiveWatch
import Atelia.Ledger.MigrationLocks
import Atelia.Ledger.PageReading
import Atelia.Ledger.Publish
import Atelia.Ledger.ReceiptRuns
import Atelia.Ledger.Receipts
import Atelia.Ledger.Reload
import Atelia.Ledger.Resumption
import Atelia.Ledger.Selection
import Atelia.Ledger.Versions
import Atelia.Registry.AuditChecks
import Atelia.Registry.Blocking
import Atelia.Registry.Changes
import Atelia.Registry.Consistency
import Atelia.Registry.DigestBlocks
import Atelia.Registry.Invariant
import Atelia.Registry.Manifest
import Atelia.Registry.ManifestChecks
import Atelia.Registry.Operations
import Atelia.Registry.Queries
import Atelia.Registry.Records
import Atelia.Registry.Reinstall
import Atelia.Registry.Reload
import Atelia.Registry.Revalidation
import Atelia.Registry.Rollback
import Atelia.Registry.Snapshots
import Atelia.Rpc.Daemon
import Atelia.Rpc.Errors
import Atelia.Rpc.Packages
import Atelia.Rpc.RegistryVerdicts
import Atelia.Rpc.ToolArguments
import Atelia.Rpc.Watch
import Atelia.Rpc.WatchStream
import Atelia.Runtime.Cancellation
import Atelia.Runtime.Commands
import Atelia.Runtime.CommittedReceipt
import Atelia.Runtime.Conformance
import Atelia.Runtime.EventReplay
import Atelia.Runtime.Histories
import Atelia.Runtime.JobCalls
import Atelia.Runtime.JobHistory
import Atelia.Runtime.Paths
import Atelia.Runtime.Policy
import Atelia.Runtime.PolicyGate
import Atelia.Runtime.PoolHistory
import Atelia.Runtime.Protocol
import Atelia.Runtime.Race
import Atelia.Runtime.ReceiptStages
import Atelia.Runtime.RenderBudget
import Atelia.Runtime.RunToolJob
import Atelia.Runtime.Scripted
import Atelia.Runtime.Settings
import Atelia.Runtime.ToolOutput
import Atelia.Runtime.ToonBody
import Atelia.Runtime.ToonBudget
import Atelia.Runtime.ToonLines
import Atelia.Runtime.ToonText
import Atelia.Runtime.Tracking
import Atelia.Runtime.Truncation
import Atelia.Service.PackageAudit
import Atelia.Service.PackageViews
import Atelia.Service.Packages
import Atelia.Service.RollbackPreview
import Atelia.Service.ToolArguments
import Atelia.Settings.Books
import Atelia.Settings.Migration
import Atelia.Settings.Service
import Atelia.Settings.Updates
import Atelia.Store.Drafts
import Atelia.Store.Effects
import Atelia.Store.EventChecks
import Atelia.Store.EventPages
import Atelia.Store.EventQueries
import Atelia.Store.JobChecks
import Atelia.Store.Load
import Atelia.Store.Operations
import Atelia.Store.ReceiptChecks
import Atelia.Store.RecordChecks
import Atelia.Store.Runs
import Atelia.Store.State
import Atelia.Store.Watch
import Atelia.Tools.LineDiff
import Atelia.Tools.Patch
import Atelia.Tools.ReadWindow
import Atelia.Tools.WindowFill
import Atelia.Tools.WindowLimits
import Atelia.Tools.WindowLines
import Atelia.Tools.WindowRefinement
import Atelia.Tools.WindowText
