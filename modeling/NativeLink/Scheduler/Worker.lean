import NativeLink.Util.PlatformProperties
import NativeLink.Scheduler.MemoryAwaitedActionDb

-- Model of `nativelink-scheduler/src/worker.rs`: a worker connected to the scheduler, the
-- operations it runs, and what it has left of its platform properties. Its methods take
-- `&mut self` and run in `EStateM Stop Worker`; a panic leaves the worker as far as the method got.
-- The channel to the worker is `connected`: whether the worker's end of it is still open, so that
-- a message sent on it is taken. Timestamps are the `u64` seconds of `WorkerTimestamp`.

namespace NativeLink.Scheduler

abbrev WorkerTimestamp := UInt64

-- `ActionInfoWithProps`: an action with the platform properties it asks for.
structure ActionInfoWithProps where
  inner : ActionInfo
  platformProperties : PlatformProperties

-- `Worker`, without its metrics. `running_action_infos` keeps the action of each operation it runs;
-- the origin-event context beside it is left out.
structure Worker where
  id : WorkerId
  platformProperties : PlatformProperties
  connected : Bool
  runningActionInfos : AList (fun _ : OperationId => ActionInfoWithProps)
  lastUpdateTimestamp : WorkerTimestamp
  isPaused : Bool
  isDraining : Bool

-- `WorkerUpdate`.
inductive WorkerUpdate
  | runAction (operationId : OperationId) (actionInfo : ActionInfoWithProps)
  | disconnect

-- The error a caller goes on after, as a value; a panic still stops the caller.
def catchError {σ α : Type} (x : EStateM Stop σ α) : EStateM Stop σ (Except Error α) := fun s =>
  match x s with
  | .ok a s' => .ok (.ok a) s'
  | .error (.error e) s' => .ok (.error e) s'
  | .error (.panic msg) s' => .error (.panic msg) s'

-- `?` on a result.
def liftError {σ α : Type} : Except Error α → EStateM Stop σ α
  | .ok a => pure a
  | .error e => throw (.error e)

section

open EStateM

variable {σ α : Type} {I : σ → Prop} {x : EStateM Stop σ α} {s s' : σ}

theorem catchError_run_ok {a : α} (h : x.run s = .ok a s') : (catchError x).run s = .ok (.ok a) s' := by
  simp only [catchError, run] at h ⊢
  rw [h]

theorem catchError_run_error {e : Error} (h : x.run s = .error (.error e) s') :
    (catchError x).run s = .ok (.error e) s' := by
  simp only [catchError, run] at h ⊢
  rw [h]

theorem catchError_run_panic {msg : String} (h : x.run s = .error (.panic msg) s') :
    (catchError x).run s = .error (.panic msg) s' := by
  simp only [catchError, run] at h ⊢
  rw [h]

theorem catchError_preserves {x : EStateM Stop σ α} (hx : Preserves I (fun _ => False) x) :
    Preserves I (fun _ => False) (catchError x) := by
  intro s hs
  have h := hx s hs
  show Ends I _ (catchError x s)
  unfold catchError
  cases hr : x s
  case ok a s' =>
    rw [run, hr] at h
    exact h
  case error e s' =>
    rw [run, hr] at h
    cases e
    case error e => exact h.1
    case panic msg => exact h

theorem liftError_preserves (r : Except Error α) : Preserves I (fun _ => False) (liftError r : EStateM Stop σ α) := by
  cases r
  case ok a => exact Preserves.pure a
  case error e => exact Preserves.throw not_false

end

namespace Worker

abbrev M := EStateM Stop Worker

-- `Worker::new`.
def new (id : WorkerId) (platformProperties : PlatformProperties) (timestamp : WorkerTimestamp) : Worker where
  id := id
  platformProperties := platformProperties
  connected := true
  runningActionInfos := ∅
  lastUpdateTimestamp := timestamp
  isPaused := false
  isDraining := false

-- `send_msg_to_worker`.
def sendMsgToWorker : M Unit := do
  if (← get).connected then pure ()
  else throw (.error (Error.new .internal "Worker disconnected"))

-- One property of `reduce_platform_properties` (with subtraction) and of
-- `restore_platform_properties` (with addition): a `Minimum` count the action asks for changes the
-- worker's count of the property, which the worker must have. The arithmetic is that of `u64`.
def adjustMinimum (f : UInt64 → UInt64 → UInt64) (property : String) :
    PlatformPropertyValue → M Unit
  | .minimum value => do
    let worker ← get
    match worker.platformProperties.properties.lookup property with
    | none => throw (.panic "called Option::unwrap() on a None value")
    | some (.minimum workerValue) =>
      set { worker with
        platformProperties := ⟨worker.platformProperties.properties.insert property (.minimum (f workerValue value))⟩ }
    | some _ => pure ()
  | _ => pure ()

-- `reduce_platform_properties(&mut self.platform_properties, reduction_props)`.
def reducePlatformProperties (reductionProps : PlatformProperties) : M Unit :=
  reductionProps.properties.entries.forM fun ⟨property, propValue⟩ => adjustMinimum (· - ·) property propValue

-- `restore_platform_properties`.
def restorePlatformProperties (props : PlatformProperties) : M Unit :=
  props.properties.entries.forM fun ⟨property, propValue⟩ => adjustMinimum (· + ·) property propValue

-- `send_initial_connection_result`.
def sendInitialConnectionResult : M Unit :=
  sendMsgToWorker.adaptExcept (Stop.tip "Failed to send ConnectionResult to worker")

-- `run_action`: the worker gives up the resources the action asks for, records the operation,
-- and is sent the action. The operation stays recorded when the worker cannot be reached.
def runAction (operationId : OperationId) (actionInfo : ActionInfoWithProps) : M Unit := do
  reducePlatformProperties actionInfo.platformProperties
  modify fun worker => { worker with
    runningActionInfos := worker.runningActionInfos.insert operationId actionInfo }
  sendMsgToWorker

-- `notify_update`.
def notifyUpdate : WorkerUpdate → M Unit
  | .runAction operationId actionInfo => runAction operationId actionInfo
  | .disconnect => sendMsgToWorker

-- `complete_action`.
def completeAction (operationId : OperationId) : M Unit := do
  let worker ← get
  match worker.runningActionInfos.lookup operationId with
  | none => throw (.error (Error.new .internal "Worker tried to complete operation that was not running"))
  | some pendingActionInfo =>
    set { worker with runningActionInfos := worker.runningActionInfos.erase operationId }
    restorePlatformProperties pendingActionInfo.platformProperties
    modify fun worker => { worker with isPaused := false }

-- `has_actions`.
def hasActions (worker : Worker) : Bool :=
  !worker.runningActionInfos.entries.isEmpty

-- `can_accept_work`.
def canAcceptWork (worker : Worker) : Bool :=
  !worker.isPaused && !worker.isDraining

end Worker

end NativeLink.Scheduler
