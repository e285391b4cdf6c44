import NativeLink.Scheduler.ApiWorkerScheduler

-- The scheduler as a whole, from `nativelink-scheduler/src/simple_scheduler.rs` and the worker API
-- of `nativelink-service/src/worker_api_server.rs`: clients and the matching engine's reads and
-- timeouts act on the state manager, workers connect, report and go away, and `do_try_match` hands
-- queued operations to workers. Each call is one step on the shared state; the state manager's
-- own reads and writes stay separate steps, so they interleave with the rest.

namespace NativeLink.Scheduler

-- The state of the scheduler: the worker pool with the state manager, and the worker ids not yet
-- given out, since `Uuid::new_v4` gives none twice.
structure SimpleScheduler.State where
  workerScheduler : ApiWorkerSchedulerImpl
  nextWorkerId : WorkerId

namespace SimpleScheduler

open ApiWorkerSchedulerImpl

variable (cfg : ApiWorkerScheduler)

-- `match_action_to_worker` of `do_try_match`, for an operation of its listing of queued
-- operations. The listing is older than the match, so any operation may come. The subscriber's
-- value gives the action, and `as_state` its client operation id, under which `assign_operation`
-- finds the operation again. A worker that another assignment took is no error. The platform
-- properties are what `make_platform_properties` makes of the action's.
def matchActionToWorker (operationId : OperationId) (platformProperties : PlatformProperties) (now : Nat) :
    M Unit := do
  let s ← get
  match s.workerStateManager.db.getByOperationId operationId with
  | none => pure ()
  | some awaitedAction =>
    let actionInfo : ActionInfoWithProps := ⟨awaitedAction.actionInfo, platformProperties⟩
    match innerFindWorkerForAction cfg s actionInfo.platformProperties with
    | none => pure ()
    | some workerId =>
      let operationId := awaitedAction.state.clientOperationId
      let (maybeWorkerId, update) := SimpleSchedulerStateManager.assignOperation (.ok workerId)
      let (assignResult, workerStateManager) :=
        cfg.workerStateManager.innerUpdateOperationOnce s.workerStateManager operationId maybeWorkerId update now
      set { s with workerStateManager }
      match assignResult with
      | .error (.error err) =>
        if err.code = .aborted then pure ()
        else throw (.error (err.append "Failed to assign operation in do_try_match"))
      | .error (.panic msg) => throw (.panic msg)
      | .ok () =>
        (workerNotifyRunAction cfg workerId operationId actionInfo now).adaptExcept
          (Stop.tip "Failed to run worker_notify_run_action in SimpleScheduler::do_try_match")

inductive Call
  -- clients, the matching engine's reads and the timeouts, on the state manager
  | manager (call : SimpleSchedulerStateManager.Call)
  -- `connect_worker`: a new worker with the properties it supports
  | connectWorker (platformProperties : PlatformProperties) (timestamp : WorkerTimestamp)
  | workerKeepAliveReceived (workerId : WorkerId) (timestamp : WorkerTimestamp)
  -- `going_away`
  | removeWorker (workerId : WorkerId) (now : Nat)
  -- `execution_response`: a worker's report on an operation
  | updateAction (workerId : WorkerId) (operationId : OperationId) (update : UpdateOperationType) (now : Nat)
  | removeTimedoutWorkers (nowTimestamp : WorkerTimestamp) (now : Nat)
  | setDrainWorker (workerId : WorkerId) (isDraining : Bool)
  | operationKeepAlive (now : Nat)
  -- the worker's end of its channel closes
  | closeConnection (workerId : WorkerId)
  -- one operation of `do_try_match`
  | matchActionToWorker (operationId : OperationId) (platformProperties : PlatformProperties) (now : Nat)

-- A program on the worker pool. One that fails, or panics, leaves the pool as it has made it.
def State.exec (s : State) (x : M Unit) : State :=
  { s with workerScheduler := (x.run s.workerScheduler).state }

def step (s : State) : Call → State
  | .manager call => s.exec (modify fun s => { s with
      workerStateManager := SimpleSchedulerStateManager.step cfg.workerStateManager s.workerStateManager call })
  -- a new worker runs nothing, so its eviction reports nothing and reads no clock
  | .connectWorker platformProperties timestamp =>
    { s.exec (ApiWorkerScheduler.addWorker cfg (Worker.new s.nextWorkerId platformProperties timestamp) 0) with
      nextWorkerId := s.nextWorkerId + 1 }
  | .workerKeepAliveReceived workerId timestamp => s.exec (ApiWorkerScheduler.workerKeepAliveReceived workerId timestamp)
  | .removeWorker workerId now => s.exec (ApiWorkerScheduler.removeWorker cfg workerId now)
  | .updateAction workerId operationId update now => s.exec (updateAction cfg workerId operationId update now)
  | .removeTimedoutWorkers nowTimestamp now => s.exec (ApiWorkerScheduler.removeTimedoutWorkers cfg nowTimestamp now)
  | .setDrainWorker workerId isDraining => s.exec (setDrainWorker workerId isDraining)
  | .operationKeepAlive now => s.exec (ApiWorkerScheduler.operationKeepAlive cfg now)
  | .closeConnection workerId =>
    s.exec (modify fun s => { s with
      workers := s.workers.modify workerId fun worker => { worker with connected := false } })
  | .matchActionToWorker operationId platformProperties now =>
    s.exec (matchActionToWorker cfg operationId platformProperties now)

def init : State :=
  ⟨⟨Lru.LruCache.unbounded, SimpleSchedulerStateManager.init, []⟩, 0⟩

def run (calls : List Call) : State :=
  calls.foldl (step cfg) init

end SimpleScheduler

end NativeLink.Scheduler
