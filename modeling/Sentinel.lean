import Sentinel.Cluster.SagaOverlays
import Sentinel.Cluster.EpochHistory
import Sentinel.Cluster.SnapshotPayload
import Sentinel.Cluster.SingleWriter
import Sentinel.Cluster.ConcurrentHandoffs
import Sentinel.EventStore.RestoreTruth
import Sentinel.EventStore.RestoreTargets
import Sentinel.EventStore.BoundedReplay
import Sentinel.EventStore.UsageFirst
import Sentinel.EventStore.SnapshotReencode
import Sentinel.EventStore.EventRetention
import Sentinel.EventStore.SnapshotRetention
import Sentinel.EventStore.ConfigApply
import Sentinel.Fs.PlaneCollection
import Sentinel.Fs.ChunkReads
import Sentinel.Fs.RestoredFiles
import Sentinel.Fs.SegmentStore
import Sentinel.Fs.GracePeriod
import Sentinel.Fs.BlobCounts
import Sentinel.Fs.ChunkIter
import Sentinel.Fs.ImportLinks
import Sentinel.Fs.ChunkCache
import Sentinel.Fs.BlockResolver
import Sentinel.Workflow.GovernedContinuation
import Sentinel.Workflow.CallWindows
import Sentinel.Workflow.DigestCache
import Sentinel.Workflow.CollaborationBudget
import Sentinel.Workflow.CommandOrder
import Sentinel.Workflow.SeparationOfDuties
import Sentinel.Workflow.WorkGraph
import Sentinel.Cluster.AntiEntropy
import Sentinel.Cluster.Membership
import Sentinel.Cluster.Idempotency
import Sentinel.Gateway.ForwardQueue
import Sentinel.Gateway.RateLimit
import Sentinel.Gateway.TickSync
import Sentinel.Redb.AgentDump
import Sentinel.Redb.ApiPatterns
import Sentinel.EventStore.SchemaRegistry
import Sentinel.Projection.ExactlyOnce
import Sentinel.Gateway.TokenBudget
import Sentinel.Gateway.BreakerAttribution
import Sentinel.Gateway.Sequencing
import Sentinel.Gateway.LearnedPatterns
import Sentinel.Workflow.ReadCache
import Sentinel.AgentRuntime.ControlFrames
