import NativeLink.Lib.Lru
import NativeLink.Lib.Bound
import NativeLink.Lib.Invariant
import NativeLink.Util.EvictingMap
import NativeLink.Util.EvictingMap.Spec
import NativeLink.Util.EvictingMap.Accounting
import NativeLink.Util.EvictingMap.Invariant
import NativeLink.Util.EvictingMap.Filtering
import NativeLink.Store.MemoryStore
import NativeLink.Lib.Bytes
import NativeLink.Store.CompressionStore
import NativeLink.Util.FastCDC
import NativeLink.Store.DedupStore
import NativeLink.Store.FastSlowStore
import NativeLink.Lib.Overwrite
import NativeLink.Store.RedisStore
import NativeLink.Util.BufChannel
import NativeLink.Util.BufChannel.Delivery
import NativeLink.Util.BufChannel.Reset
import NativeLink.Scheduler.AwaitedAction
import NativeLink.Lib.AListCount
import NativeLink.Scheduler.MemoryAwaitedActionDb
import NativeLink.Scheduler.MemoryAwaitedActionDb.Spec
import NativeLink.Scheduler.MemoryAwaitedActionDb.Invariant
import NativeLink.Scheduler.MemoryAwaitedActionDb.Properties
import NativeLink.Util.ChunkedStream
import NativeLink.Scheduler.MemoryAwaitedActionDb.Range
import NativeLink.Scheduler.SimpleSchedulerStateManager
import NativeLink.Scheduler.SimpleSchedulerStateManager.Finality
import NativeLink.Scheduler.SimpleSchedulerStateManager.Retries
import NativeLink.Scheduler.ApiWorkerScheduler
import NativeLink.Scheduler.SimpleScheduler
import NativeLink.Scheduler.SimpleScheduler.Ownership
import NativeLink.Scheduler.SimpleScheduler.WorkerTimeout
import NativeLink.Util.EvictingMap.Eviction
import NativeLink.Util.EvictingMap.Expiry
import NativeLink.Store.FilesystemStore
import NativeLink.Service.CasServer
import NativeLink.Lib.Path
import NativeLink.Worker.RunningActionsManager
import NativeLink.Store.VerifyStore
import NativeLink.Scheduler.CacheLookupScheduler
import NativeLink.Lib.Fill
import NativeLink.Service.ByteStreamServer
import NativeLink.Store.CompletenessCheckingStore
import NativeLink.Store.CompletenessCheckingStore.Completeness
import NativeLink.Util.WriteState
import NativeLink.Store.FilesystemStore.Keys
import NativeLink.Store.GrpcStore
import NativeLink.Store.ShardStore
import NativeLink.Store.SizePartitioningStore
import NativeLink.Util.ConnectionManager
import NativeLink.Util.ConnectionManager.Conservation
import NativeLink.Lib.RelativePath
import NativeLink.Lib.Collect
import NativeLink.Worker.UploadResults
import NativeLink.Worker.UploadResults.Tree
import NativeLink.Worker.UploadResults.Outputs
import NativeLink.Worker.ExecuteResponse
import NativeLink.Util.Retry
