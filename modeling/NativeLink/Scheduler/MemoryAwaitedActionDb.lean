import NativeLink.Lib.AListCount
import NativeLink.Lib.Invariant
import NativeLink.Scheduler.AwaitedAction
import Mathlib

-- Model of `nativelink-scheduler/src/memory_awaited_action_db.rs`, the in-memory database of the
-- scheduler's operations. It keeps each operation's `AwaitedAction`, the number of clients
-- listening to it, the operation each cachable key runs as, five sorted sets that queue the
-- operations by stage, and the clients' handles. A handle sends `ClientDroppedOperation` when it
-- is dropped: when its entry in the client map is replaced, or evicted by time. A task takes the
-- events one by one under the lock and removes an operation when its last client is gone. The
-- client map is an `EvictingMap` evicting by time; here an eviction is a step of its own that any
-- entry can take. Each method runs under the database's lock, so one method is one step.

namespace NativeLink.Scheduler

-- How a call of the scheduler stops when it does not return: with an `Error` for its caller, or
-- at a panic.
inductive Stop
  | error (e : Error)
  | panic (msg : String)
  deriving DecidableEq, Repr

-- What `err_tip` does to a stop.
def Stop.tip (msg : String) : Stop → Stop
  | .error e => .error (e.append msg)
  | .panic msg' => .panic msg'

inductive ActionEvent
  | clientKeepAlive (operationId : OperationId)
  | clientDroppedOperation (operationId : OperationId)
  deriving DecidableEq, Repr

-- The five sorted sets, by the stages whose operations they hold.
inductive SortedSlot
  | unknown
  | cacheCheck
  | queued
  | executing
  | completed
  deriving DecidableEq, Repr

def slotOf : ActionStage → SortedSlot
  | .unknown => .unknown
  | .cacheCheck => .cacheCheck
  | .queued => .queued
  | .executing => .executing
  | .completed _ | .completedFromCache _ => .completed

theorem slotOf_eq_of_isSameStage {stage stage' : ActionStage} (h : stage.isSameStage stage' = true) :
    slotOf stage' = slotOf stage := by
  cases stage <;> cases stage' <;> first | rfl | exact absurd h Bool.false_ne_true

structure SortedAwaitedActions where
  unknown : Finset SortedAwaitedAction
  cacheCheck : Finset SortedAwaitedAction
  queued : Finset SortedAwaitedAction
  executing : Finset SortedAwaitedAction
  completed : Finset SortedAwaitedAction

namespace SortedAwaitedActions

def empty : SortedAwaitedActions :=
  ⟨∅, ∅, ∅, ∅, ∅⟩

def get (sets : SortedAwaitedActions) : SortedSlot → Finset SortedAwaitedAction
  | .unknown => sets.unknown
  | .cacheCheck => sets.cacheCheck
  | .queued => sets.queued
  | .executing => sets.executing
  | .completed => sets.completed

def set (sets : SortedAwaitedActions) (slot : SortedSlot) (btree : Finset SortedAwaitedAction) :
    SortedAwaitedActions :=
  match slot with
  | .unknown => { sets with unknown := btree }
  | .cacheCheck => { sets with cacheCheck := btree }
  | .queued => { sets with queued := btree }
  | .executing => { sets with executing := btree }
  | .completed => { sets with completed := btree }

@[simp] theorem get_set_same (sets : SortedAwaitedActions) (slot : SortedSlot) (btree) :
    (sets.set slot btree).get slot = btree := by
  cases slot <;> rfl

@[simp] theorem get_set_ne (sets : SortedAwaitedActions) {slot slot' : SortedSlot} (btree)
    (h : slot' ≠ slot) : (sets.set slot btree).get slot' = sets.get slot' := by
  cases slot <;> cases slot' <;> first | rfl | exact absurd rfl h

theorem mem_set_insert (sets : SortedAwaitedActions) (slot' : SortedSlot) (entry : SortedAwaitedAction)
    (slot : SortedSlot) (x : SortedAwaitedAction) :
    x ∈ (sets.set slot' (insert entry (sets.get slot'))).get slot ↔ x ∈ sets.get slot ∨ (slot = slot' ∧ x = entry) := by
  by_cases h : slot = slot'
  case pos =>
    subst h
    rw [get_set_same, Finset.mem_insert]
    tauto
  case neg => simp [get_set_ne _ _ h, h]

theorem mem_set_erase (sets : SortedAwaitedActions) (slot' : SortedSlot) (entry : SortedAwaitedAction)
    (slot : SortedSlot) (x : SortedAwaitedAction) :
    x ∈ (sets.set slot' ((sets.get slot').erase entry)).get slot ↔ x ∈ sets.get slot ∧ ¬(slot = slot' ∧ x = entry) := by
  by_cases h : slot = slot'
  case pos =>
    subst h
    rw [get_set_same, Finset.mem_erase]
    tauto
  case neg => simp [get_set_ne _ _ h, h]

-- `btree_for_state`: the set of the operations in `stage`.
def btreeForState (sets : SortedAwaitedActions) (stage : ActionStage) : Finset SortedAwaitedAction :=
  sets.get (slotOf stage)

-- `insert_sort_map_for_stage`; `newly_inserted` is false when the entry is already there.
def insertSortMapForStage (sets : SortedAwaitedActions) (stage : ActionStage)
    (sortedAwaitedAction : SortedAwaitedAction) : Except Error SortedAwaitedActions :=
  if sortedAwaitedAction ∈ sets.btreeForState stage then
    .error (Error.new .internal
      "Tried to insert an action that was already in the sorted map. This should never happen.")
  else .ok (sets.set (slotOf stage) (insert sortedAwaitedAction (sets.btreeForState stage)))

end SortedAwaitedActions

structure AwaitedActionDbImpl where
  -- the live `ClientAwaitedAction` handles, by client operation id
  clientOperationToAwaitedAction : AList (fun _ : OperationId => OperationId)
  operationIdToAwaitedAction : AList (fun _ : OperationId => AwaitedAction)
  actionInfoHashKeyToAwaitedAction : AList (fun _ : ActionUniqueKey => OperationId)
  sortedActionInfoHashKeys : SortedAwaitedActions
  connectedClientsForOperationId : AList (fun _ : OperationId => Nat)
  -- the events sent and not yet handled
  actionEvents : List ActionEvent
  -- `OperationId::default()` draws a new random id; here the next unused number
  nextOperationId : OperationId

namespace AwaitedActionDbImpl

abbrev M := EStateM Stop AwaitedActionDbImpl

def new : AwaitedActionDbImpl :=
  ⟨∅, ∅, ∅, SortedAwaitedActions.empty, ∅, [], 0⟩

def errTip {α : Type} (msg : String) (x : M α) : M α :=
  x.adaptExcept (Stop.tip msg)

def newOperationId : M OperationId :=
  modifyGet fun s => (s.nextOperationId, { s with nextOperationId := s.nextOperationId + 1 })

/-! ## The clients' handles -/

-- `Drop for ClientAwaitedAction`.
def dropClientAwaitedAction (operationId : OperationId) : M Unit :=
  modify fun s => { s with actionEvents := s.actionEvents ++ [.clientDroppedOperation operationId] }

-- `client_operation_to_awaited_action.insert`: the handle it replaces is dropped.
def insertClientAwaitedAction (clientOperationId operationId : OperationId) : M Unit := do
  let s ← get
  set { s with
    clientOperationToAwaitedAction := s.clientOperationToAwaitedAction.insert clientOperationId operationId }
  match s.clientOperationToAwaitedAction.lookup clientOperationId with
  | some old => dropClientAwaitedAction old
  | none => pure ()

-- The `EvictingMap` evicts a client's entry, and its handle is dropped.
def evictClient (clientOperationId : OperationId) : M Unit := do
  let s ← get
  match s.clientOperationToAwaitedAction.lookup clientOperationId with
  | some operationId => do
    set { s with
      clientOperationToAwaitedAction := s.clientOperationToAwaitedAction.erase clientOperationId }
    dropClientAwaitedAction operationId
  | none => pure ()

/-! ## The methods -/

-- The body of the loop of `handle_action_events`, for one event.
def handleActionEvent : ActionEvent → M Unit
  | .clientDroppedOperation operationId => do
    let s ← get
    match s.operationIdToAwaitedAction.lookup operationId with
    | none => pure ()
    | some awaitedAction => do
      set { s with
        operationIdToAwaitedAction := s.operationIdToAwaitedAction.erase operationId
        connectedClientsForOperationId := s.connectedClientsForOperationId.erase operationId }
      let connectedClients ← match s.connectedClientsForOperationId.lookup operationId with
        | some connectedClients =>
          if connectedClients = 0 then throw (.panic "attempt to subtract with overflow")
          else pure (connectedClients - 1)
        | none => pure 0
      if connectedClients ≠ 0 then
        -- other clients still listen: the operation goes back
        modify fun s => { s with
          operationIdToAwaitedAction := s.operationIdToAwaitedAction.insert operationId awaitedAction
          connectedClientsForOperationId :=
            s.connectedClientsForOperationId.insert operationId connectedClients }
      else
        -- the last client is gone: the key of a cachable action is removed, whatever it maps to,
        -- and so is the entry of the sorted set
        modify fun s => { s with
          actionInfoHashKeyToAwaitedAction :=
            match awaitedAction.actionInfo.uniqueQualifier with
            | .cachable actionKey => s.actionInfoHashKeyToAwaitedAction.erase actionKey
            | .uncachable _ => s.actionInfoHashKeyToAwaitedAction
          sortedActionInfoHashKeys :=
            s.sortedActionInfoHashKeys.set (slotOf awaitedAction.state.stage)
              ((s.sortedActionInfoHashKeys.btreeForState awaitedAction.state.stage).erase
                ⟨awaitedAction.sortKey, operationId⟩) }
  -- `size_for_key` only refreshes the client's entry
  | .clientKeepAlive _ => pure ()

-- `SortedAwaitedActions::process_state_changes`: the entry moves from the set of the old stage to
-- the set of the new one. The entry is taken out before it is put back.
def processStateChanges (old new : AwaitedAction) : M Unit := do
  let s ← get
  let sortedAwaitedAction : SortedAwaitedAction := ⟨old.sortKey, new.operationId⟩
  let btree := s.sortedActionInfoHashKeys.btreeForState old.state.stage
  if sortedAwaitedAction ∉ btree then
    throw (.error (Error.new .internal
      "sorted_action_info_hash_keys and action_info_hash_key_to_awaited_action are out of sync"))
  else
    let sets := s.sortedActionInfoHashKeys.set (slotOf old.state.stage) (btree.erase sortedAwaitedAction)
    set { s with sortedActionInfoHashKeys := sets }
    match sets.insertSortMapForStage new.state.stage sortedAwaitedAction with
    | .ok sets => set { s with sortedActionInfoHashKeys := sets }
    | .error e => throw (.error (e.append "In AwaitedActionDb::update_awaited_action"))

-- `process_state_changes_for_hash_key_map`: a finished cachable operation frees its key.
def processStateChangesForHashKeyMap (actionInfoHashKeyToAwaitedAction : AList (fun _ : ActionUniqueKey => OperationId))
    (newAwaitedAction : AwaitedAction) : AList (fun _ : ActionUniqueKey => OperationId) :=
  if !newAwaitedAction.state.stage.isFinished then actionInfoHashKeyToAwaitedAction
  else
    match newAwaitedAction.actionInfo.uniqueQualifier with
    | .cachable actionKey => actionInfoHashKeyToAwaitedAction.erase actionKey
    | .uncachable _ => actionInfoHashKeyToAwaitedAction

-- `tx.send_replace(new_awaited_action)`.
def sendReplace (newAwaitedAction : AwaitedAction) : M Unit :=
  modify fun s => { s with
    operationIdToAwaitedAction :=
      s.operationIdToAwaitedAction.insert newAwaitedAction.operationId newAwaitedAction }

def updateAwaitedAction (newAwaitedAction : AwaitedAction) : M Unit := do
  let s ← get
  match s.operationIdToAwaitedAction.lookup newAwaitedAction.operationId with
  | none =>
    throw (.error (Error.new .internal
      "OperationId does not exist in map in AwaitedActionDb::update_awaited_action"))
  | some old =>
    -- the write is a compare-and-set on the version
    if old.version ≠ newAwaitedAction.version then
      throw (.error (Error.new .aborted
        "Tried to update an awaited action with an incorrect version."))
    else
      let newAwaitedAction := newAwaitedAction.incrementVersion
      if old.actionInfo.uniqueQualifier ≠ newAwaitedAction.actionInfo.uniqueQualifier then
        throw (.error (Error.new .invalidArgument "Unique key changed for operation_id"))
      else if !old.state.stage.isSameStage newAwaitedAction.state.stage then do
        processStateChanges old newAwaitedAction
        modify fun s => { s with
          actionInfoHashKeyToAwaitedAction :=
            processStateChangesForHashKeyMap s.actionInfoHashKeyToAwaitedAction newAwaitedAction }
        sendReplace newAwaitedAction
      else sendReplace newAwaitedAction

-- `make_client_awaited_action`, without the handle, which its caller puts in the client map.
def makeClientAwaitedAction (operationId : OperationId) (awaitedAction : AwaitedAction) : M Unit :=
  modify fun s => { s with
    operationIdToAwaitedAction := s.operationIdToAwaitedAction.insert operationId awaitedAction
    connectedClientsForOperationId := s.connectedClientsForOperationId.insert operationId 1 }

-- `try_subscribe`: the client joins the running operation of a cachable key, if there is one.
def trySubscribe (clientOperationId : OperationId) (uniqueQualifier : ActionUniqueQualifier)
    (now : Nat) : M (Option OperationId) := do
  match uniqueQualifier with
  | .uncachable _ => pure none
  | .cachable uniqueKey =>
    let s ← get
    match s.actionInfoHashKeyToAwaitedAction.lookup uniqueKey with
    | none => pure none
    | some operationId =>
      match s.operationIdToAwaitedAction.lookup operationId with
      | none =>
        throw (.error (Error.new .internal
          "operation_id_to_awaited_action and action_info_hash_key_to_awaited_action are out of sync"))
      | some awaitedAction =>
        if awaitedAction.state.stage.isFinished then
          throw (.error (Error.new .invalidArgument
            "Tried to subscribe to a completed action but it already finished. This should never happen."))
        else
          match s.connectedClientsForOperationId.lookup operationId with
          | none =>
            throw (.error (Error.new .internal
              "connected_clients_for_operation_id and operation_id_to_awaited_action are out of sync"))
          | some connectedClients => do
            -- the keep-alive is written in place, with no new version
            set { s with
              connectedClientsForOperationId :=
                s.connectedClientsForOperationId.insert operationId (connectedClients + 1)
              operationIdToAwaitedAction :=
                s.operationIdToAwaitedAction.insert operationId (awaitedAction.updateClientKeepAlive now) }
            insertClientAwaitedAction clientOperationId operationId
            pure (some operationId)

-- `add_action`: join the running operation of the key, or add a new queued one. It returns the
-- operation the client's subscriber listens to.
def addAction (clientOperationId : OperationId) (actionInfo : ActionInfo) (now : Nat) :
    M OperationId := do
  match ← errTip "In AwaitedActionDb::subscribe_or_add_action"
      (trySubscribe clientOperationId actionInfo.uniqueQualifier now) with
  | some operationId => pure operationId
  | none =>
    let operationId ← newOperationId
    let awaitedAction := AwaitedAction.new operationId actionInfo now
    makeClientAwaitedAction operationId awaitedAction
    insertClientAwaitedAction clientOperationId operationId
    -- only cachable actions are put in the key map
    modify fun s => { s with
      actionInfoHashKeyToAwaitedAction :=
        match actionInfo.uniqueQualifier with
        | .cachable uniqueKey => s.actionInfoHashKeyToAwaitedAction.insert uniqueKey operationId
        | .uncachable _ => s.actionInfoHashKeyToAwaitedAction }
    let s ← get
    match s.sortedActionInfoHashKeys.insertSortMapForStage .queued ⟨awaitedAction.sortKey, operationId⟩ with
    | .ok sets => do
      set { s with sortedActionInfoHashKeys := sets }
      pure operationId
    | .error e => throw (.error (e.append "In AwaitedActionDb::subscribe_or_add_action"))

/-! ## Reads -/

def getByOperationId (s : AwaitedActionDbImpl) (operationId : OperationId) : Option AwaitedAction :=
  s.operationIdToAwaitedAction.lookup operationId

def getAwaitedActionById (s : AwaitedActionDbImpl) (clientOperationId : OperationId) :
    Except Error (Option AwaitedAction) :=
  match s.clientOperationToAwaitedAction.lookup clientOperationId with
  | none => .ok none
  | some operationId =>
    match s.operationIdToAwaitedAction.lookup operationId with
    | some awaitedAction => .ok (some awaitedAction)
    | none => .error (Error.new .internal "Failed to get client operation id")

-- `SortedAwaitedActionState`: the sets a range can be asked of.
inductive SortedAwaitedActionState
  | cacheCheck
  | queued
  | executing
  | completed
  deriving DecidableEq, Repr

-- `get_range_of_actions` over the whole range, in order.
def getRangeOfActions (s : AwaitedActionDbImpl) (state : SortedAwaitedActionState) :
    List (Except Error AwaitedAction) :=
  let btree := match state with
    | .cacheCheck => s.sortedActionInfoHashKeys.cacheCheck
    | .queued => s.sortedActionInfoHashKeys.queued
    | .executing => s.sortedActionInfoHashKeys.executing
    | .completed => s.sortedActionInfoHashKeys.completed
  (btree.sort (· ≤ ·)).map fun sortedAwaitedAction =>
    match s.getByOperationId sortedAwaitedAction.operationId with
    | some awaitedAction => .ok awaitedAction
    | none => .error (Error.new .internal "Failed to get operation id")

/-! ## Runs -/

inductive Call
  | addAction (clientOperationId : OperationId) (actionInfo : ActionInfo) (now : Nat)
  | updateAwaitedAction (awaitedAction : AwaitedAction)
  | evictClient (clientOperationId : OperationId)
  -- a subscriber's keep-alive
  | sendKeepAlive (clientOperationId : OperationId)
  -- the event task handles the oldest event
  | handleActionEvent

-- An `AwaitedAction` a caller can build for an operation: made from one read of it, so with its
-- action and sort key, which no method changes.
def derivedFrom (s : AwaitedActionDbImpl) (awaitedAction : AwaitedAction) : Bool :=
  match s.operationIdToAwaitedAction.lookup awaitedAction.operationId with
  | some old => awaitedAction.actionInfo == old.actionInfo && awaitedAction.sortKey == old.sortKey
  | none => true

def Call.exec : Call → M Unit
  | .addAction clientOperationId actionInfo now => do
    let _ ← AwaitedActionDbImpl.addAction clientOperationId actionInfo now
  | .updateAwaitedAction awaitedAction => AwaitedActionDbImpl.updateAwaitedAction awaitedAction
  | .evictClient clientOperationId => AwaitedActionDbImpl.evictClient clientOperationId
  | .sendKeepAlive clientOperationId =>
    modify fun s => { s with actionEvents := s.actionEvents ++ [.clientKeepAlive clientOperationId] }
  | .handleActionEvent => do
    let s ← get
    match s.actionEvents with
    | [] => pure ()
    | event :: events => do
      set { s with actionEvents := events }
      AwaitedActionDbImpl.handleActionEvent event

-- One call under the lock. A call that returns an error, or panics, leaves the state as it has
-- made it; the lock does not poison. An update no caller can build is not made.
def step (s : AwaitedActionDbImpl) (call : Call) : AwaitedActionDbImpl :=
  match call with
  | .updateAwaitedAction awaitedAction =>
    if s.derivedFrom awaitedAction then (call.exec.run s).state else s
  | _ => (call.exec.run s).state

def run (calls : List Call) : AwaitedActionDbImpl :=
  calls.foldl step new

end AwaitedActionDbImpl

end NativeLink.Scheduler
