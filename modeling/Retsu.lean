import Retsu.Relational.Outcome
import Retsu.Relational.OrderBy
import Retsu.Relational.Table
import Retsu.Relational.GroupBy
import Retsu.Relational.Pattern
import Retsu.Relational.Batch
import Retsu.Relational.Lookup
import Retsu.Domain
import Retsu.Schema
import Retsu.Rollup
import Retsu.Statement
import Retsu.RollupInvariant
import Retsu.Repository
import Retsu.Integrity
import Retsu.Application
import Retsu.Effect
import Retsu.Validation
import Retsu.Lineage
import Retsu.History
import Retsu.Reports
import Retsu.Conservation
import Retsu.DeliveryOrder
import Retsu.StateCollector
import Retsu.CollectorView
import Retsu.Concurrency.Execution
import Retsu.Concurrency.LockTable
import Retsu.Concurrency.Scan
import Retsu.Concurrency.SkipLocked
import Retsu.Concurrency.RowVersion
import Retsu.Concurrency.SessionLock
import Retsu.Concurrency.Program
import Retsu.Concurrency.Overtaking
import Retsu.Concurrency.Linearizability
import Retsu.Sessions
import Retsu.SessionInvariant
import Retsu.LeaseExclusivity
import Retsu.DequeueConstraints
import Retsu.CounterLocks
import Retsu.CounterUpsert
import Retsu.LiveRows
import Retsu.CleanerBatches
import Retsu.Trace
import Retsu.DeliveryAccounting
import Retsu.QueueMetadata
import Retsu.DistributedCache
import Retsu.CachedRepository
import Retsu.CacheRefinement
import Retsu.CacheStaleness
import Retsu.CachedLookups
import Retsu.SingleFlight
import Retsu.WorkerSupervisor
import Retsu.Collectors
import Retsu.CollectorLeadership
import Retsu.CollectorPool
import Retsu.MemoryCache
import Retsu.RoundTrip
import Retsu.AcknowledgeSafety
import Retsu.QuietDequeue
import Retsu.ConcurrentDequeue
import Retsu.Overtaking
import Retsu.QueueView
import Retsu.QueueSimulation
import Retsu.Isolation
import Retsu.UseCases
import Retsu.Api
import Retsu.Ledger
import Retsu.Tasks
import Retsu.Service
import Retsu.ServiceInvariant
import Retsu.ServiceMetrics
import Retsu.QueueMetrics
import Retsu.ServiceResponses
import Retsu.ServiceQueues
import Retsu.ServiceOrder
import Retsu.ServiceAcknowledgements
import Retsu.MessageStore
import Retsu.StoreRefinement
import Retsu.Progress
import Retsu.ServiceLiveness
