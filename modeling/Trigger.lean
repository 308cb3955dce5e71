import Trigger.Api.Authorization
import Trigger.Attributes.Flatten
import Trigger.Attributes.Sharing
import Trigger.Attributes.Trace
import Trigger.BatchQueue.CompletionTracker
import Trigger.BatchQueue.Finalize
import Trigger.BatchQueue.Streaming
import Trigger.EventRepository.DateTime
import Trigger.EventRepository.Merge
import Trigger.EventRepository.OverrideOrder
import Trigger.EventRepository.Overrides
import Trigger.FairQueue.Availability
import Trigger.FairQueue.Commands
import Trigger.FairQueue.Consumer
import Trigger.FairQueue.DeadLetter
import Trigger.FairQueue.Deficit
import Trigger.FairQueue.Descriptors
import Trigger.FairQueue.Frame
import Trigger.FairQueue.Heartbeat
import Trigger.FairQueue.Keys
import Trigger.FairQueue.Lease
import Trigger.FairQueue.MasterQueue
import Trigger.FairQueue.Outcome
import Trigger.FairQueue.Reclaim
import Trigger.FairQueue.Retry
import Trigger.FairQueue.RoundRobin
import Trigger.FairQueue.Slots
import Trigger.FairQueue.Stage
import Trigger.FairQueue.System
import Trigger.FairQueue.View
import Trigger.FairQueue.Weighted
import Trigger.Flush.Accounting
import Trigger.Flush.Moves
import Trigger.Flush.Parallelism
import Trigger.Flush.Scheduler
import Trigger.Flush.Shutdown
import Trigger.Idempotency.Keys
import Trigger.Idempotency.Reset
import Trigger.Infra.Decimal
import Trigger.Infra.Double
import Trigger.Infra.Glob
import Trigger.Infra.Grouping
import Trigger.Infra.History
import Trigger.Infra.JsString
import Trigger.Infra.JsonText
import Trigger.Infra.Keyset
import Trigger.Infra.Keyspace
import Trigger.Infra.Machine
import Trigger.Infra.Number
import Trigger.Infra.Orbit
import Trigger.Infra.Record
import Trigger.Infra.Redis
import Trigger.Infra.Replace
import Trigger.Infra.Rotation
import Trigger.Infra.Sampling
import Trigger.Infra.SortedSet
import Trigger.Infra.SqlText
import Trigger.Infra.StateE
import Trigger.Infra.Text
import Trigger.Infra.Triple
import Trigger.Ipc.Connection
import Trigger.Ipc.Exact
import Trigger.Isomorphic.Duration
import Trigger.RateLimit.Exact
import Trigger.RateLimit.Gcra
import Trigger.Realtime.RunsClause
import Trigger.Realtime.StreamReader
import Trigger.Realtime.StreamResume
import Trigger.Realtime.Subscription
import Trigger.Realtime.Upload
import Trigger.Replication.Acknowledge
import Trigger.Replication.BadStrings
import Trigger.Replication.Converge
import Trigger.Replication.Decoders
import Trigger.Replication.Durable
import Trigger.Replication.Layout
import Trigger.Replication.Pgoutput
import Trigger.Replication.Pipeline
import Trigger.Replication.Rows
import Trigger.Replication.Service
import Trigger.Replication.Subscribe
import Trigger.Replication.Versions
import Trigger.RunEngine.Attempts
import Trigger.RunEngine.BatchIndex
import Trigger.RunEngine.BatchSystem
import Trigger.RunEngine.Database
import Trigger.RunEngine.Debounce
import Trigger.RunEngine.Delayed
import Trigger.RunEngine.Delivery
import Trigger.RunEngine.Lifecycle
import Trigger.RunEngine.Locking
import Trigger.RunEngine.Operations
import Trigger.RunEngine.QueueMessage
import Trigger.RunEngine.Retrying
import Trigger.RunEngine.Wakeup
import Trigger.RunMetadata.Culling
import Trigger.RunMetadata.Json
import Trigger.RunMetadata.Manager
import Trigger.RunMetadata.Operations
import Trigger.RunMetadata.UpdateService
import Trigger.RunQueue.Commands
import Trigger.RunQueue.Dequeue
import Trigger.RunQueue.DequeuedKey
import Trigger.RunQueue.Distribution
import Trigger.RunQueue.Invariant
import Trigger.RunQueue.KeyAgreement
import Trigger.RunQueue.KeyRoles
import Trigger.RunQueue.Keys
import Trigger.RunQueue.Limits
import Trigger.RunQueue.Redrive
import Trigger.RunQueue.RemoveQueues
import Trigger.RunQueue.RepairSnapshot
import Trigger.RunQueue.Report
import Trigger.RunQueue.Representation
import Trigger.RunQueue.Selection
import Trigger.Runner.Forward
import Trigger.Runner.SnapshotManager
import Trigger.Runner.Suspendable
import Trigger.Runs.BulkAction
import Trigger.Runs.Pages
import Trigger.Runs.Repository
import Trigger.Runtime.SharedRuntimeManager
import Trigger.Schedule.Engine
import Trigger.Schedule.Once
import Trigger.Sharding.JumpHash
import Trigger.TreeView.Invariant
import Trigger.TreeView.State
import Trigger.TreeView.Tree
import Trigger.Tsql.Allowlist
import Trigger.Tsql.Boolean
import Trigger.Tsql.Case
import Trigger.Tsql.Converter
import Trigger.Tsql.Emission
import Trigger.Tsql.Escape
import Trigger.Tsql.Fallback
import Trigger.Tsql.Frame
import Trigger.Tsql.Functions
import Trigger.Tsql.Injection
import Trigger.Tsql.Literal
import Trigger.Tsql.Metadata
import Trigger.Tsql.Printer
import Trigger.Tsql.Resolve
import Trigger.Tsql.Results
import Trigger.Tsql.RowCap
import Trigger.Tsql.Schema
import Trigger.Tsql.Select
import Trigger.Tsql.Sql
import Trigger.Tsql.Syntax
import Trigger.Tsql.Template
import Trigger.Tsql.ValueFilter
import Trigger.Tsql.Visitors
import Trigger.Worker.Attempts
import Trigger.Worker.Generations
import Trigger.Worker.Job
import Trigger.Worker.Redrive
import Trigger.Worker.SimpleQueue
