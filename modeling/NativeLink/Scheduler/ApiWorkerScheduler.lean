import NativeLink.Lib.Lru
import NativeLink.Scheduler.Worker
import NativeLink.Scheduler.SimpleSchedulerStateManager

-- Model of `nativelink-scheduler/src/api_worker_scheduler.rs`: the pool of workers, as an
-- `LruCache` least recently used first, and what the scheduler does to it. Every method runs under
-- the pool's lock, and the state manager calls it makes run inside it; so a method is one program
-- of `EStateM Stop ApiWorkerSchedulerImpl`, whose state holds the state manager's as well. The
-- state manager's `update_operation` is then one pass on the stored value
-- (`innerUpdateOperationOnce`). The matching engine's notifier is left out: a match may run at any
-- time.

namespace NativeLink.Scheduler

open Lru

-- `WorkerAllocationStrategy`.
inductive WorkerAllocationStrategy
  | leastRecentlyUsed
  | mostRecentlyUsed
  deriving DecidableEq, Repr

-- The settings of `ApiWorkerScheduler`, with those of the state manager its workers report to.
structure ApiWorkerScheduler where
  allocationStrategy : WorkerAllocationStrategy
  workerTimeoutS : UInt64
  workerStateManager : SimpleSchedulerStateManager

-- `ApiWorkerSchedulerImpl`: the pool, the state of the state manager, and the messages of
-- `operation_keep_alive_tx` that its task has not yet taken.
structure ApiWorkerSchedulerImpl where
  workers : LruCache WorkerId Worker
  workerStateManager : SimpleSchedulerStateManager.State
  operationKeepAliveTx : List (OperationId × WorkerId)

namespace ApiWorkerSchedulerImpl

abbrev M := EStateM Stop ApiWorkerSchedulerImpl

variable (cfg : ApiWorkerScheduler)

/-! ## The pool -/

-- `workers.get_mut(worker_id)`: the worker, which becomes the most recently used.
def getMut (workerId : WorkerId) : M (Option Worker) :=
  modifyGet fun s => (s.workers.peek workerId, { s with workers := s.workers.promote workerId })

-- A method of `worker`, the worker stored at `workerId`, run in place.
def onWorker {α : Type} (workerId : WorkerId) (worker : Worker) (x : Worker.M α) : M α := fun s =>
  match x.run worker with
  | .ok a worker' => .ok a { s with workers := s.workers.modify workerId fun _ => worker' }
  | .error e worker' => .error e { s with workers := s.workers.modify workerId fun _ => worker' }

-- `remove_worker`.
def removeWorker (workerId : WorkerId) : M (Option Worker) :=
  modifyGet fun s => (s.workers.peek workerId, { s with workers := s.workers.erase workerId })

-- `refresh_lifetime`: the worker's timestamp moves on, without moving the worker in the pool, and
-- each operation it runs is sent to the keep-alive task.
def refreshLifetime (workerId : WorkerId) (timestamp : WorkerTimestamp) : M Unit := do
  let s ← get
  match s.workers.peek workerId with
  | none => throw (.error (makeInputErr "Worker not found in worker map in refresh_lifetime()"))
  | some worker =>
    if worker.lastUpdateTimestamp > timestamp then
      throw (.error (makeInputErr "Worker already had a timestamp, but tried to update it with a smaller one"))
    else
      set { s with
        workers := s.workers.modify workerId fun worker => { worker with lastUpdateTimestamp := timestamp }
        operationKeepAliveTx := s.operationKeepAliveTx ++ worker.runningActionInfos.keys.map (·, workerId) }

-- `add_worker`: a worker of the same id is replaced.
def addWorker (worker : Worker) : M Unit := do
  modify fun s => { s with workers := (s.workers.put worker.id worker).2 }
  (onWorker worker.id worker Worker.sendInitialConnectionResult).adaptExcept
    (Stop.tip "Failed to send initial connection result to worker")

-- `set_drain_worker`.
def setDrainWorker (workerId : WorkerId) (isDraining : Bool) : M Unit := do
  let some worker ← getMut workerId
    | throw (.error (Error.new .internal "Worker doesn't exist in the pool"))
  onWorker workerId worker (modify fun worker => { worker with isDraining })

-- `inner_find_worker_for_action`: the least or the most recently used worker that accepts work and
-- has the properties the action asks for.
def innerFindWorkerForAction (s : ApiWorkerSchedulerImpl) (platformProperties : PlatformProperties) :
    Option WorkerId :=
  let satisfies := fun (entry : WorkerId × Worker) =>
    entry.2.canAcceptWork && platformProperties.isSatisfiedBy entry.2.platformProperties
  let found := match cfg.allocationStrategy with
    -- `rfind` on the iterator, which starts at the most recently used
    | .leastRecentlyUsed => s.workers.iter.reverse.find? satisfies
    | .mostRecentlyUsed => s.workers.iter.find? satisfies
  found.map fun entry => entry.2.id

@[simp] theorem getMut_run (s : ApiWorkerSchedulerImpl) (workerId : WorkerId) :
    (getMut workerId).run s = .ok (s.workers.peek workerId) { s with workers := s.workers.promote workerId } :=
  rfl

@[simp] theorem removeWorker_run (s : ApiWorkerSchedulerImpl) (workerId : WorkerId) :
    (removeWorker workerId).run s = .ok (s.workers.peek workerId) { s with workers := s.workers.erase workerId } :=
  rfl

/-! ## Reports to the state manager -/

-- The state manager's `update_operation` for a worker.
def updateOperation (operationId : OperationId) (workerId : WorkerId) (update : UpdateOperationType)
    (now : Nat) : M Unit := do
  let s ← get
  let (result, workerStateManager) :=
    cfg.workerStateManager.innerUpdateOperationOnce s.workerStateManager operationId (some workerId) update now
  set { s with workerStateManager }
  match result with
  | .ok () => pure ()
  | .error e => throw e

theorem updateOperation_run {s : ApiWorkerSchedulerImpl} {operationId : OperationId} {workerId : WorkerId}
    {update : UpdateOperationType} {now : Nat} {result : Except Stop Unit} {t : SimpleSchedulerStateManager.State}
    (h : cfg.workerStateManager.innerUpdateOperationOnce s.workerStateManager operationId (some workerId) update now =
      (result, t)) :
    (updateOperation cfg operationId workerId update now).run s =
      match result with
      | .ok () => .ok () { s with workerStateManager := t }
      | .error e => .error e { s with workerStateManager := t } := by
  show updateOperation cfg operationId workerId update now s = _
  unfold updateOperation
  simp only [bind, EStateM.bind, get, getThe, MonadStateOf.get, EStateM.get, h, set, EStateM.set]
  cases result <;> rfl

-- `immediate_evict_worker`: the worker leaves the pool, and each operation it ran goes back to the
-- state manager with the error. The disconnect sent to the worker is a best attempt that changes
-- nothing here. The operations come in the order of the map, which the source leaves to its hash.
def immediateEvictWorker (workerId : WorkerId) (err : Error) (now : Nat) : M Unit := do
  match ← removeWorker workerId with
  | none => pure ()
  | some worker =>
    let result ← worker.runningActionInfos.keys.foldlM (fun result operationId => do
        let updateResult ← catchError (updateOperation cfg operationId workerId (.updateWithError err) now)
        pure (ResultExt.merge result updateResult))
      (Except.ok ())
    liftError result

-- The worker's side of a finished update in `update_action`: the operation is completed, and the
-- worker is paused, if it was paused or pushed back, while it has work whose completion unpauses it.
def completeAndPause (operationId : OperationId) (wasPaused dueToBackpressure : Bool) :
    Worker.M (Except Error Unit) := do
  let completeActionRes ← catchError (Worker.completeAction operationId)
  if (wasPaused || dueToBackpressure) && (← get).hasActions then
    modify fun worker => { worker with isPaused := true }
  pure completeActionRes

-- `update_action`.
def updateAction (workerId : WorkerId) (operationId : OperationId) (update : UpdateOperationType)
    (now : Nat) : M Unit := do
  let some worker ← getMut workerId
    | throw (.error (Error.new .internal "Worker does not exist in SimpleScheduler::update_action"))
  -- a worker reporting on an operation it does not run is evicted
  if operationId ∉ worker.runningActionInfos then
    let err := Error.new .internal "Operation should not be running on worker in SimpleScheduler::update_action"
    let evictResult ← catchError (immediateEvictWorker cfg workerId err now)
    liftError (ResultExt.merge (Except.error err : Except Error Unit) evictResult)
  else
    let (isFinished, dueToBackpressure) := match update with
      | .updateWithActionStage actionStage => (actionStage.isFinished, false)
      | .keepAlive => (false, false)
      | .updateWithError err => (true, decide (err.code = .resourceExhausted))
    (updateOperation cfg operationId workerId update now).adaptExcept
      (Stop.tip "in update_operation on SimpleScheduler::update_action")
    if !isFinished then pure ()
    else
      let completeActionRes ←
        onWorker workerId worker (completeAndPause operationId (!worker.canAcceptWork) dueToBackpressure)
      liftError completeActionRes

-- `worker_notify_run_action`: a worker that cannot be sent the action is evicted.
def workerNotifyRunAction (workerId : WorkerId) (operationId : OperationId) (actionInfo : ActionInfoWithProps)
    (now : Nat) : M Unit := do
  match ← getMut workerId with
  | none => pure ()
  | some worker =>
    let notifyWorkerResult ← catchError (onWorker workerId worker (Worker.notifyUpdate (.runAction operationId actionInfo)))
    match notifyWorkerResult with
    | .ok () => pure ()
    | .error _ =>
      let err := Error.new .internal "Worker command failed, removing worker"
      let evictResult ← catchError (immediateEvictWorker cfg workerId err now)
      liftError (ResultExt.merge (Except.error err : Except Error Unit) evictResult)

end ApiWorkerSchedulerImpl

/-! ## The methods of `ApiWorkerScheduler`, each under the lock -/

namespace ApiWorkerScheduler

open ApiWorkerSchedulerImpl

variable (cfg : ApiWorkerScheduler)

-- `add_worker`: a worker that cannot be sent its connection result is evicted.
def addWorker (worker : Worker) (now : Nat) : M Unit := do
  let result ← catchError ((ApiWorkerSchedulerImpl.addWorker worker).adaptExcept
    (Stop.tip "Error while adding worker, removing from pool"))
  match result with
  | .ok () => pure ()
  | .error err =>
    let evictResult ← catchError (immediateEvictWorker cfg worker.id err now)
    liftError (ResultExt.merge (Except.error err : Except Error Unit) evictResult)

-- `worker_keep_alive_received`.
def workerKeepAliveReceived (workerId : WorkerId) (timestamp : WorkerTimestamp) : M Unit :=
  (refreshLifetime workerId timestamp).adaptExcept
    (Stop.tip "Error refreshing lifetime in worker_keep_alive_received()")

-- `remove_worker`.
def removeWorker (workerId : WorkerId) (now : Nat) : M Unit :=
  immediateEvictWorker cfg workerId (Error.new .internal "Received request to remove worker") now

-- `remove_timedout_workers`: from the least recently used on, the workers not heard from since
-- `worker_timeout_s` before `now_timestamp` are evicted. The subtraction is that of `u64`.
def removeTimedoutWorkers (nowTimestamp : WorkerTimestamp) (now : Nat) : M Unit := do
  let s ← get
  let workerIdsToRemove := (s.workers.iter.reverse.takeWhile fun entry =>
    entry.2.lastUpdateTimestamp ≤ nowTimestamp - cfg.workerTimeoutS).map Prod.fst
  let result ← workerIdsToRemove.foldlM (fun result workerId => do
      let evictResult ← catchError
        (immediateEvictWorker cfg workerId (Error.new .internal "Worker timed out, removing from pool") now)
      pure (ResultExt.merge result evictResult))
    (Except.ok ())
  liftError result

-- The task of `operation_keep_alive_rx`: the oldest keep-alive goes to the state manager, whose
-- error is only logged.
def operationKeepAlive (now : Nat) : M Unit := do
  let s ← get
  match s.operationKeepAliveTx with
  | [] => pure ()
  | (operationId, workerId) :: rest =>
    set { s with operationKeepAliveTx := rest }
    let _ ← catchError (updateOperation cfg operationId workerId .keepAlive now)

end ApiWorkerScheduler

end NativeLink.Scheduler
