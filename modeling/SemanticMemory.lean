import SemanticMemory.Lib.Runs
import SemanticMemory.Lib.Replay
import SemanticMemory.Lib.AsOf
import SemanticMemory.Lib.Climb
import SemanticMemory.Lib.Components
import SemanticMemory.Lib.KeyedMap
import SemanticMemory.Lib.Mirror
import SemanticMemory.Lib.Pool
import SemanticMemory.Lib.Framing
import SemanticMemory.Lib.Json
import SemanticMemory.Lib.Binary64
import SemanticMemory.Lib.Utf8
import SemanticMemory.Lib.Utf8Text
import SemanticMemory.Lib.Windows
import SemanticMemory.Lib.Ranking
import SemanticMemory.Lib.Register
import SemanticMemory.Basic
import SemanticMemory.Facts.Store
import SemanticMemory.Facts.Clock
import SemanticMemory.Facts.AsOf
import SemanticMemory.Recorder.GapRecord
import SemanticMemory.Recorder.Coordinator
import SemanticMemory.Recorder.Conservation
import SemanticMemory.Recorder.GapSteps
import SemanticMemory.Recorder.Counted
import SemanticMemory.Recorder.Shutdown
import SemanticMemory.Recorder.GapReport
import SemanticMemory.Session.Engine
import SemanticMemory.Session.RecorderSession
import SemanticMemory.Session.LlmRerankRecorder
import SemanticMemory.Session.Submitted
import SemanticMemory.Facts.Readers
import SemanticMemory.Delta.Snapshot
import SemanticMemory.Delta.Checkpoint
import SemanticMemory.Delta.Machine
import SemanticMemory.Delta.Serving
import SemanticMemory.Delta.Publish
import SemanticMemory.Evidence.Service
import SemanticMemory.Evidence.System
import SemanticMemory.Evidence.Named
import SemanticMemory.Evidence.Bound
import SemanticMemory.Maintenance.Coordinator
import SemanticMemory.Maintenance.Quiesce
import SemanticMemory.Maintenance.Recovery
import SemanticMemory.Maintenance.Restore
import SemanticMemory.Derived.Root
import SemanticMemory.Derived.Publish
import SemanticMemory.Derived.Undo
import SemanticMemory.Derived.Startup
import SemanticMemory.Derived.Commit
import SemanticMemory.Derived.Retention
import SemanticMemory.Derived.Rebuild
import SemanticMemory.Delta.Switchable
import SemanticMemory.Builders.Worker
import SemanticMemory.Derived.Hooks
import SemanticMemory.Derived.Handoff
import SemanticMemory.Staging.Compat
import SemanticMemory.Staging.Container
import SemanticMemory.Staging.Machine
import SemanticMemory.Staging.Records
import SemanticMemory.Staging.Restart
import SemanticMemory.Staging.Live
import SemanticMemory.Staging.Published
import SemanticMemory.Staging.Retry
import SemanticMemory.Maintenance.Control
import SemanticMemory.Operations.Record
import SemanticMemory.Operations.Runner
import SemanticMemory.Operations.Cancel
import SemanticMemory.Operations.Clear
import SemanticMemory.Operations.Cleared
import SemanticMemory.Maintenance.Replace
import SemanticMemory.Operations.Quarantine
import SemanticMemory.Operations.Drive
import SemanticMemory.Operations.Rebuild
import SemanticMemory.Operations.Rebuilt
import SemanticMemory.Staging.Ready
import SemanticMemory.Operations.Resumed
import SemanticMemory.Operations.Migrate
import SemanticMemory.Operations.Migrated
import SemanticMemory.Archive.Record
import SemanticMemory.Archive.Collector
import SemanticMemory.Archive.Published
import SemanticMemory.Archive.Queues
import SemanticMemory.Archive.Settled
import SemanticMemory.Archive.Identity
import SemanticMemory.Archive.Restarts
import SemanticMemory.Archive.Accounts
import SemanticMemory.Archive.Producer
import SemanticMemory.Archive.Notices
import SemanticMemory.Archive.Effective
import SemanticMemory.Archive.Jobs
import SemanticMemory.Native.Producer
import SemanticMemory.Native.Steps
import SemanticMemory.Native.Retarget
import SemanticMemory.Native.Retractions
import SemanticMemory.Native.Attempts
import SemanticMemory.Native.Losses
import SemanticMemory.Rerank.Plan
import SemanticMemory.Rerank.Replay
import SemanticMemory.Rerank.Build
import SemanticMemory.Rerank.PrecedingText
import SemanticMemory.Facts.Recode
import SemanticMemory.Rerank.Identity
import SemanticMemory.Tracing.Faults
import SemanticMemory.Scoring.MeanToken
import SemanticMemory.Staging.Chunks
import SemanticMemory.Scoring.Unload
import SemanticMemory.Evidence.Replay
import SemanticMemory.Evidence.Contributions
import SemanticMemory.Evidence.Exact
import SemanticMemory.Evidence.Ann
import SemanticMemory.Evidence.Keys
import SemanticMemory.Staging.Reopen
import SemanticMemory.Derived.Wiring
import SemanticMemory.Operations.Locks
import SemanticMemory.Operations.RestoreCleanup
import SemanticMemory.Operations.Sweep
import SemanticMemory.Operations.Unlink
import SemanticMemory.Operations.SchemaSeams
import SemanticMemory.Staging.Matrix
import SemanticMemory.Tracing.Apply
import SemanticMemory.Tracing.Alarms
import SemanticMemory.Tracing.OrderChange
import SemanticMemory.Querying.Timing
import SemanticMemory.Querying.Relations
import SemanticMemory.Scoring.CandidateSpan
import SemanticMemory.Scoring.AdapterIdentity
import SemanticMemory.Scoring.Connect
