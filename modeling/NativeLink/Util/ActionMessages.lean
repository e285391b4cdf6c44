import NativeLink.Util.StoreTrait

-- The parts of `nativelink-util/src/action_messages.rs` that the scheduler reads: the stages of
-- an operation, the key that lets clients join a running operation, and the fields of
-- `ActionInfo` and `ActionState` the awaited-action database uses. Operation and worker ids are
-- random UUIDs in the source; here they are numbers, and the database draws new ones fresh.

namespace NativeLink

abbrev OperationId := Nat

abbrev WorkerId := Nat

-- `ActionResult`, with the fields the scheduler fills in itself: the worker of
-- `execution_metadata` and the error.
structure ActionResult where
  worker : String
  error : Option Error
  deriving DecidableEq, Repr

-- `ActionStage`. `CompletedFromCache` holds the proto form of the result in the source.
inductive ActionStage
  | unknown
  | cacheCheck
  | queued
  | executing
  | completed (result : ActionResult)
  | completedFromCache (result : ActionResult)
  deriving DecidableEq, Repr

namespace ActionStage

def hasActionResult : ActionStage → Bool
  | unknown | cacheCheck | queued | executing => false
  | completed _ | completedFromCache _ => true

def isFinished (stage : ActionStage) : Bool :=
  stage.hasActionResult

-- Whether the two stages are the same variant, whatever their results.
def isSameStage : ActionStage → ActionStage → Bool
  | unknown, unknown | cacheCheck, cacheCheck | queued, queued | executing, executing => true
  | completed _, completed _ | completedFromCache _, completedFromCache _ => true
  | _, _ => false

theorem isFinished_eq_of_isSameStage {stage stage' : ActionStage} (h : stage.isSameStage stage' = true) :
    stage'.isFinished = stage.isFinished := by
  cases stage <;> cases stage' <;> first | rfl | exact absurd h Bool.false_ne_true

end ActionStage

inductive DigestHasherFunc
  | sha256
  | blake3
  deriving DecidableEq, Repr

structure ActionUniqueKey where
  instanceName : String
  digestFunction : DigestHasherFunc
  digest : DigestInfo
  deriving DecidableEq, Repr

inductive ActionUniqueQualifier
  | cachable (key : ActionUniqueKey)
  | uncachable (key : ActionUniqueKey)
  deriving DecidableEq, Repr

def ActionUniqueQualifier.digest : ActionUniqueQualifier → DigestInfo
  | cachable key | uncachable key => key.digest

-- `ActionInfo`, with the fields the scheduler's database reads; `insert_timestamp` is in seconds.
structure ActionInfo where
  priority : Int
  insertTimestamp : Nat
  uniqueQualifier : ActionUniqueQualifier
  deriving DecidableEq, Repr

def ActionInfo.digest (info : ActionInfo) : DigestInfo :=
  info.uniqueQualifier.digest

structure ActionState where
  stage : ActionStage
  clientOperationId : OperationId
  actionDigest : DigestInfo
  deriving DecidableEq, Repr

end NativeLink
