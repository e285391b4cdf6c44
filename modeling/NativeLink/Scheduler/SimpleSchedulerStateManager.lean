import NativeLink.Scheduler.MemoryAwaitedActionDb

-- Model of `nativelink-scheduler/src/simple_scheduler_state_manager.rs` over the memory
-- awaited-action database. The manager's writers (a worker's `update_operation`, the matching
-- engine's `assign_operation`, `timeout_operation_id` and the client timeout of
-- `apply_filter_predicate`) read an operation through a subscriber's `borrow()` and later submit a
-- value computed from what they read. Other calls run between the read and the write: only the
-- database's lock is held, and only inside each of its methods. So a read is a step of its own that
-- keeps the value it saw, and a writer's step computes its value from one of the values read. Each
-- pass of the retry loop of `inner_update_operation` is one read and one write. Times are seconds.

namespace NativeLink.Scheduler

inductive UpdateOperationType
  | keepAlive
  | updateWithActionStage (stage : ActionStage)
  | updateWithError (err : Error)
  deriving DecidableEq, Repr

-- `OperationStageFlags`, the bits of a `u32`.
structure OperationStageFlags where
  bits : UInt32
  deriving DecidableEq, Repr

namespace OperationStageFlags

def cacheCheck : OperationStageFlags := ⟨(1 : UInt32) <<< 1⟩
def queued : OperationStageFlags := ⟨(1 : UInt32) <<< 2⟩
def executing : OperationStageFlags := ⟨(1 : UInt32) <<< 3⟩
def completed : OperationStageFlags := ⟨(1 : UInt32) <<< 4⟩
def any : OperationStageFlags := ⟨0xFFFFFFFF⟩

def intersects (flags other : OperationStageFlags) : Bool :=
  flags.bits &&& other.bits != 0

end OperationStageFlags

-- `OperationFilter`, without the order of the results, which only `filter_operations` reads.
structure OperationFilter where
  stages : OperationStageFlags
  clientOperationId : Option OperationId
  operationId : Option OperationId
  workerId : Option WorkerId
  actionDigest : Option DigestInfo
  workerUpdateBefore : Option Nat
  completedBefore : Option Nat
  uniqueKey : Option ActionUniqueKey
  deriving DecidableEq, Repr

-- The settings of `SimpleSchedulerStateManager`.
structure SimpleSchedulerStateManager where
  maxJobRetries : Nat
  noEventActionTimeout : Nat
  clientActionTimeout : Nat

namespace SimpleSchedulerStateManager

/-! ## `apply_filter_predicate` -/

-- The flag of a stage, as `apply_filter_predicate` compares it with the filter's stages.
def stageFlag : ActionStage → OperationStageFlags
  | .unknown => .any
  | .cacheCheck => .cacheCheck
  | .queued => .queued
  | .executing => .executing
  | .completed _ | .completedFromCache _ => .completed

-- The checks of `apply_filter_predicate` after the client timeout, in the source's order.
def filterMatches (filter : OperationFilter) (awaitedAction : AwaitedAction) : Bool :=
  if filter.operationId.any (· != awaitedAction.operationId) then false
  else if filter.workerId.isSome && filter.workerId != awaitedAction.workerId then false
  else if (match filter.uniqueKey with
      | some filterUniqueKey =>
        match awaitedAction.actionInfo.uniqueQualifier with
        | .cachable uniqueKey => filterUniqueKey != uniqueKey
        | .uncachable _ => true
      | none => false) then false
  else if filter.actionDigest.any (· != awaitedAction.actionInfo.digest) then false
  else if filter.workerUpdateBefore.any (· < awaitedAction.lastWorkerUpdatedTimestamp) then false
  else if filter.completedBefore.any fun completedBefore =>
      awaitedAction.state.stage.isFinished && completedBefore < awaitedAction.lastWorkerUpdatedTimestamp then false
  else if filter.stages != .any && !filter.stages.intersects (stageFlag awaitedAction.state.stage) then false
  else true

-- The state the client timeout writes: the operation completes with a deadline error.
def clientTimeoutState (awaitedAction : AwaitedAction) : ActionState :=
  { awaitedAction.state with
    stage := .completed ⟨"", some (Error.new .deadlineExceeded
      "Operation timed out seconds of having no more clients listening")⟩ }

-- `apply_filter_predicate`: whether the operation passes the filter, and the value it submits to
-- `update_awaited_action` when no client has kept the operation alive.
def applyFilterPredicate (m : SimpleSchedulerStateManager) (now : Nat) (awaitedAction : AwaitedAction)
    (filter : OperationFilter) : Bool × Option AwaitedAction :=
  if awaitedAction.lastClientKeepaliveTimestamp + m.clientActionTimeout < now then
    if !awaitedAction.state.stage.isFinished then
      (false, some (awaitedAction.workerSetState (clientTimeoutState awaitedAction) now))
    else (false, none)
  else (filterMatches filter awaitedAction, none)

/-! ## `inner_update_operation` and its callers -/

-- The new stage with the worker that sent it, or with none for a queued operation.
def setStage (operationId : OperationId) (maybeWorkerId : Option WorkerId) (now : Nat)
    (awaitedAction : AwaitedAction) (stage : ActionStage) : AwaitedAction :=
  let awaitedAction :=
    if stage = .queued then awaitedAction.setWorkerId none now
    else awaitedAction.setWorkerId maybeWorkerId now
  awaitedAction.workerSetState ⟨stage, operationId, awaitedAction.actionInfo.digest⟩ now

-- One pass of the loop of `inner_update_operation` from the value it read: an early return, or the
-- value it submits to `update_awaited_action`.
def updateOperationValue (m : SimpleSchedulerStateManager) (operationId : OperationId)
    (maybeWorkerId : Option WorkerId) (update : UpdateOperationType) (now : Nat) (awaitedAction : AwaitedAction) :
    Except Error AwaitedAction :=
  if awaitedAction.workerId.isSome && maybeWorkerId.isSome && maybeWorkerId != awaitedAction.workerId then
    .error (Error.new .aborted "Worker ids do not match")
  else if awaitedAction.state.stage.isFinished then
    .error (Error.new .internal "Action is already completed with state")
  else
    match update with
    | .keepAlive => .ok (awaitedAction.workerKeepAlive now)
    | .updateWithActionStage stage => .ok (setStage operationId maybeWorkerId now awaitedAction stage)
    | .updateWithError err =>
      -- a backpressure failure is not counted as an attempt
      let awaitedAction :=
        if err.code = .resourceExhausted then awaitedAction
        else { awaitedAction with attempts := awaitedAction.attempts + 1 }
      let stage :=
        if awaitedAction.attempts > m.maxJobRetries then
          ActionStage.completed ⟨(maybeWorkerId.map toString).getD "",
            some (err.merge (Error.new .internal "Job cancelled because it attempted to execute too many times"))⟩
        else .queued
      .ok (setStage operationId maybeWorkerId now awaitedAction stage)

-- `assign_operation`: the worker and the update it makes of `inner_update_operation`.
def assignOperation (workerIdOrReasonForUnassign : Except Error WorkerId) :
    Option WorkerId × UpdateOperationType :=
  match workerIdOrReasonForUnassign with
  | .ok workerId => (some workerId, .updateWithActionStage .executing)
  | .error err => (none, .updateWithError err)

def timeoutError : Error :=
  Error.new .deadlineExceeded "Operation timed out after seconds"

-- `timeout_operation_id`, from the value it read: whether it calls `assign_operation` with the
-- timeout error. `elapsed` is what `now_fn().elapsed()` returns.
def timeoutOperationId (m : SimpleSchedulerStateManager) (awaitedAction : AwaitedAction) (elapsed : Nat) : Bool :=
  match awaitedAction.state.stage with
  | .executing => !(awaitedAction.lastWorkerUpdatedTimestamp + m.noEventActionTimeout < elapsed)
  | _ => false

/-! ## Runs -/

structure State where
  db : AwaitedActionDbImpl
  -- the values the manager's tasks have read through a subscriber, and may write back
  reads : List AwaitedAction

inductive Call
  -- the clients' side of the database
  | addAction (clientOperationId : OperationId) (actionInfo : ActionInfo) (now : Nat)
  | evictClient (clientOperationId : OperationId)
  | sendKeepAlive (clientOperationId : OperationId)
  | handleActionEvent
  -- a subscriber's `borrow()`; a client's subscriber puts its client operation id in the state
  | borrow (operationId : OperationId) (clientOperationId : Option OperationId)
  -- one pass of `inner_update_operation` on the `read`-th value read, for a worker's
  -- `update_operation`
  | updateOperation (read : Nat) (workerId : WorkerId) (update : UpdateOperationType) (now : Nat)
  -- the same for the matching engine's `assign_operation`
  | assignOperation (read : Nat) (workerIdOrReasonForUnassign : Except Error WorkerId) (now : Nat)
  -- `apply_filter_predicate` in `filter_operations`, on a value read
  | applyFilterPredicate (read : Nat) (filter : OperationFilter) (now : Nat)
  -- `timeout_operation_id`: its check on one value read, and its `assign_operation` on a later read
  -- of the same operation
  | timeoutOperationId (checked read : Nat) (now elapsed : Nat)

-- `update_awaited_action`, for a writer that only logs its error.
def submit (s : State) (awaitedAction : AwaitedAction) : State :=
  { s with db := ((AwaitedActionDbImpl.updateAwaitedAction awaitedAction).run s.db).state }

-- A pass of the loop of `inner_update_operation` on a value read, with what it returns: the early
-- error, or the result of `update_awaited_action`.
def innerUpdateOperation (m : SimpleSchedulerStateManager) (s : State) (maybeWorkerId : Option WorkerId)
    (update : UpdateOperationType) (now : Nat) (awaitedAction : AwaitedAction) : Except Stop Unit × State :=
  match m.updateOperationValue awaitedAction.operationId maybeWorkerId update now awaitedAction with
  | .ok newAwaitedAction =>
    ((match (AwaitedActionDbImpl.updateAwaitedAction newAwaitedAction).run s.db with
      | .ok () _ => .ok ()
      | .error e _ => .error e), submit s newAwaitedAction)
  | .error e => (.error (.error e), s)

-- `inner_update_operation` with no other call between its read and its write, as the worker
-- scheduler runs it under its lock: one pass on the stored value. A value computed from the stored
-- one is taken, so the loop makes no second pass; an operation no longer stored is no error.
def innerUpdateOperationOnce (m : SimpleSchedulerStateManager) (s : State) (operationId : OperationId)
    (maybeWorkerId : Option WorkerId) (update : UpdateOperationType) (now : Nat) : Except Stop Unit × State :=
  match s.db.getByOperationId operationId with
  | some awaitedAction => innerUpdateOperation m s maybeWorkerId update now awaitedAction
  | none => (.ok (), s)

def step (m : SimpleSchedulerStateManager) (s : State) : Call → State
  | .addAction c actionInfo now => { s with db := s.db.step (.addAction c actionInfo now) }
  | .evictClient c => { s with db := s.db.step (.evictClient c) }
  | .sendKeepAlive c => { s with db := s.db.step (.sendKeepAlive c) }
  | .handleActionEvent => { s with db := s.db.step .handleActionEvent }
  | .borrow operationId clientOperationId =>
    match s.db.getByOperationId operationId with
    | some awaitedAction =>
      { s with reads := s.reads ++ [match clientOperationId with
          | some c => awaitedAction.setClientOperationId c
          | none => awaitedAction] }
    | none => s
  | .updateOperation read workerId update now =>
    match s.reads[read]? with
    | some awaitedAction => (innerUpdateOperation m s (some workerId) update now awaitedAction).2
    | none => s
  | .assignOperation read workerIdOrReasonForUnassign now =>
    match s.reads[read]? with
    | some awaitedAction =>
      let (maybeWorkerId, update) := assignOperation workerIdOrReasonForUnassign
      (innerUpdateOperation m s maybeWorkerId update now awaitedAction).2
    | none => s
  | .applyFilterPredicate read filter now =>
    match s.reads[read]? with
    | some awaitedAction =>
      match (m.applyFilterPredicate now awaitedAction filter).2 with
      | some newAwaitedAction => submit s newAwaitedAction
      | none => s
    | none => s
  | .timeoutOperationId checked read now elapsed =>
    match s.reads[checked]?, s.reads[read]? with
    | some checkedAction, some awaitedAction =>
      if m.timeoutOperationId checkedAction elapsed && awaitedAction.operationId == checkedAction.operationId then
        let (maybeWorkerId, update) := assignOperation (.error timeoutError)
        (innerUpdateOperation m s maybeWorkerId update now awaitedAction).2
      else s
    | _, _ => s

def init : State :=
  ⟨AwaitedActionDbImpl.new, []⟩

def run (m : SimpleSchedulerStateManager) (calls : List Call) : State :=
  calls.foldl (step m) init

end SimpleSchedulerStateManager

end NativeLink.Scheduler
