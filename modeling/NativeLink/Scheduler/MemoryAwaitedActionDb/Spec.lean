import NativeLink.Scheduler.MemoryAwaitedActionDb

-- What each method of the awaited-action database does to the state, as equations of its runs.
-- The invariant proofs and the claims about `update_awaited_action` read these and never unfold
-- the methods.

namespace NativeLink.Scheduler.AwaitedActionDbImpl

open EStateM

variable {s : AwaitedActionDbImpl} {o : OperationId} {a old : AwaitedAction}

/-! ## The clients' handles -/

-- The handle a client's entry held, if any, is dropped and sends its event.
def droppedHandle (s : AwaitedActionDbImpl) (clientOperationId : OperationId) : List ActionEvent :=
  ((s.clientOperationToAwaitedAction.lookup clientOperationId).map .clientDroppedOperation).toList

-- The client's entry now holds a handle of `operationId`.
def withHandle (s : AwaitedActionDbImpl) (clientOperationId operationId : OperationId) : AwaitedActionDbImpl :=
  { s with
    clientOperationToAwaitedAction := s.clientOperationToAwaitedAction.insert clientOperationId operationId
    actionEvents := s.actionEvents ++ s.droppedHandle clientOperationId }

-- The client's entry is gone.
def withoutHandle (s : AwaitedActionDbImpl) (clientOperationId : OperationId) : AwaitedActionDbImpl :=
  { s with
    clientOperationToAwaitedAction := s.clientOperationToAwaitedAction.erase clientOperationId
    actionEvents := s.actionEvents ++ s.droppedHandle clientOperationId }

theorem insertClientAwaitedAction_run (clientOperationId operationId : OperationId) (s : AwaitedActionDbImpl) :
    (insertClientAwaitedAction clientOperationId operationId).run s =
      .ok () (s.withHandle clientOperationId operationId) := by
  rw [insertClientAwaitedAction, run_bind, run_get]
  dsimp only
  rw [run_bind, run_set]
  dsimp only
  rw [withHandle, droppedHandle]
  cases s.clientOperationToAwaitedAction.lookup clientOperationId
  case none =>
    rw [Option.map_none, Option.toList_none, List.append_nil]
    rfl
  case some old => rfl

theorem evictClient_run (clientOperationId : OperationId) (s : AwaitedActionDbImpl) :
    (evictClient clientOperationId).run s = .ok () (s.withoutHandle clientOperationId) := by
  rw [evictClient, run_bind, run_get]
  dsimp only
  rw [withoutHandle, droppedHandle]
  cases h : s.clientOperationToAwaitedAction.lookup clientOperationId
  case none =>
    have herase : s.clientOperationToAwaitedAction.erase clientOperationId = s.clientOperationToAwaitedAction :=
      AList.ext (List.kerase_of_notMem_keys (AList.lookup_eq_none.mp h))
    rw [herase, Option.map_none, Option.toList_none, List.append_nil]
    rfl
  case some operationId => rfl

/-! ## `handle_action_events` -/

-- The last client of the operation is gone: it leaves the maps and its sorted set.
def removeOperation (s : AwaitedActionDbImpl) (operationId : OperationId) (awaitedAction : AwaitedAction) :
    AwaitedActionDbImpl :=
  { s with
    operationIdToAwaitedAction := s.operationIdToAwaitedAction.erase operationId
    connectedClientsForOperationId := s.connectedClientsForOperationId.erase operationId
    actionInfoHashKeyToAwaitedAction :=
      match awaitedAction.actionInfo.uniqueQualifier with
      | .cachable actionKey => s.actionInfoHashKeyToAwaitedAction.erase actionKey
      | .uncachable _ => s.actionInfoHashKeyToAwaitedAction
    sortedActionInfoHashKeys :=
      s.sortedActionInfoHashKeys.set (slotOf awaitedAction.state.stage)
        ((s.sortedActionInfoHashKeys.btreeForState awaitedAction.state.stage).erase
          ⟨awaitedAction.sortKey, operationId⟩) }

theorem handleActionEvent_run_of_lookup_none (h : s.operationIdToAwaitedAction.lookup o = none) :
    (handleActionEvent (.clientDroppedOperation o)).run s = .ok () s := by
  rw [handleActionEvent, run_bind, run_get]
  dsimp only
  rw [h]
  rfl

theorem handleActionEvent_run_of_remaining {c : Nat} (h : s.operationIdToAwaitedAction.lookup o = some a)
    (hc : s.connectedClientsForOperationId.lookup o = some c) (hpos : 1 < c) :
    (handleActionEvent (.clientDroppedOperation o)).run s =
      .ok () { s with
        operationIdToAwaitedAction := (s.operationIdToAwaitedAction.erase o).insert o a
        connectedClientsForOperationId := (s.connectedClientsForOperationId.erase o).insert o (c - 1) } := by
  rw [handleActionEvent, run_bind, run_get]
  dsimp only
  rw [h]
  dsimp only
  rw [run_bind_of_ok (run_set _ _), hc]
  dsimp only
  rw [if_neg (by omega), pure_bind]
  rw [if_pos (by omega), run_modify]

theorem handleActionEvent_run_of_last (h : s.operationIdToAwaitedAction.lookup o = some a)
    (hc : s.connectedClientsForOperationId.lookup o = some 1) :
    (handleActionEvent (.clientDroppedOperation o)).run s = .ok () (removeOperation s o a) := by
  rw [handleActionEvent, run_bind, run_get]
  dsimp only
  rw [h]
  dsimp only
  rw [run_bind_of_ok (run_set _ _), hc]
  dsimp only
  rw [if_neg (by omega), pure_bind]
  rw [if_neg (by omega), run_modify]
  rfl

theorem handleActionEvent_run_keepAlive (s : AwaitedActionDbImpl) :
    (handleActionEvent (.clientKeepAlive o)).run s = .ok () s :=
  rfl

theorem exec_handleActionEvent_run_nil (h : s.actionEvents = []) :
    Call.handleActionEvent.exec.run s = .ok () s := by
  rw [Call.exec, run_bind, run_get]
  dsimp only
  rw [h]
  rfl

theorem exec_handleActionEvent_run_cons {event : ActionEvent} {events : List ActionEvent}
    (h : s.actionEvents = event :: events) :
    Call.handleActionEvent.exec.run s = (handleActionEvent event).run { s with actionEvents := events } := by
  rw [Call.exec, run_bind, run_get]
  dsimp only
  rw [h]
  dsimp only
  rw [run_bind_of_ok (run_set _ _)]

/-! ## `update_awaited_action` -/

-- `process_state_changes` when the entry is in the set of the old stage and not yet in the set
-- of the new one: it moves there.
def moveSorted (sets : SortedAwaitedActions) (old new : AwaitedAction) : SortedAwaitedActions :=
  let entry : SortedAwaitedAction := ⟨old.sortKey, new.operationId⟩
  let taken := sets.set (slotOf old.state.stage) ((sets.btreeForState old.state.stage).erase entry)
  taken.set (slotOf new.state.stage) (insert entry (taken.btreeForState new.state.stage))

theorem processStateChanges_run (new : AwaitedAction)
    (hin : ⟨old.sortKey, new.operationId⟩ ∈ s.sortedActionInfoHashKeys.btreeForState old.state.stage)
    (hout : ⟨old.sortKey, new.operationId⟩ ∉
      (s.sortedActionInfoHashKeys.set (slotOf old.state.stage)
        ((s.sortedActionInfoHashKeys.btreeForState old.state.stage).erase ⟨old.sortKey, new.operationId⟩)).btreeForState
          new.state.stage) :
    (processStateChanges old new).run s =
      .ok () { s with sortedActionInfoHashKeys := moveSorted s.sortedActionInfoHashKeys old new } := by
  rw [processStateChanges, run_bind, run_get]
  dsimp only
  rw [if_neg (not_not.mpr hin), run_bind_of_ok (run_set _ _)]
  rw [SortedAwaitedActions.insertSortMapForStage, if_neg hout]
  rfl

theorem updateAwaitedAction_run_of_lookup_none (h : s.operationIdToAwaitedAction.lookup a.operationId = none) :
    ∃ e, (updateAwaitedAction a).run s = .error e s := by
  apply Exists.intro
  unfold updateAwaitedAction
  rw [run_bind, run_get]
  dsimp only
  rw [h]
  rfl

theorem updateAwaitedAction_run_of_version_ne (h : s.operationIdToAwaitedAction.lookup a.operationId = some old)
    (hv : old.version ≠ a.version) : ∃ e, (updateAwaitedAction a).run s = .error e s := by
  apply Exists.intro
  unfold updateAwaitedAction
  rw [run_bind, run_get]
  dsimp only
  rw [h]
  dsimp only
  rw [if_pos hv]
  rfl

theorem updateAwaitedAction_run_of_qualifier_ne (h : s.operationIdToAwaitedAction.lookup a.operationId = some old)
    (hv : old.version = a.version) (hq : old.actionInfo.uniqueQualifier ≠ a.actionInfo.uniqueQualifier) :
    ∃ e, (updateAwaitedAction a).run s = .error e s := by
  apply Exists.intro
  unfold updateAwaitedAction
  rw [run_bind, run_get]
  dsimp only
  rw [h]
  dsimp only
  rw [if_neg (not_not.mpr hv), AwaitedAction.incrementVersion_actionInfo, if_pos hq]
  rfl

theorem updateAwaitedAction_run_of_same_stage (h : s.operationIdToAwaitedAction.lookup a.operationId = some old)
    (hv : old.version = a.version) (hq : old.actionInfo.uniqueQualifier = a.actionInfo.uniqueQualifier)
    (hst : old.state.stage.isSameStage a.state.stage = true) :
    (updateAwaitedAction a).run s =
      .ok () { s with
        operationIdToAwaitedAction := s.operationIdToAwaitedAction.insert a.operationId a.incrementVersion } := by
  unfold updateAwaitedAction
  rw [run_bind, run_get]
  dsimp only
  rw [h]
  dsimp only
  rw [if_neg (not_not.mpr hv), AwaitedAction.incrementVersion_actionInfo, if_neg (not_not.mpr hq),
    AwaitedAction.incrementVersion_state, if_neg (by rw [hst]; decide), sendReplace, run_modify]
  rfl

theorem updateAwaitedAction_run_of_stage_change (h : s.operationIdToAwaitedAction.lookup a.operationId = some old)
    (hv : old.version = a.version) (hq : old.actionInfo.uniqueQualifier = a.actionInfo.uniqueQualifier)
    (hst : old.state.stage.isSameStage a.state.stage = false)
    (hin : ⟨old.sortKey, a.operationId⟩ ∈ s.sortedActionInfoHashKeys.btreeForState old.state.stage)
    (hout : ⟨old.sortKey, a.operationId⟩ ∉
      (s.sortedActionInfoHashKeys.set (slotOf old.state.stage)
        ((s.sortedActionInfoHashKeys.btreeForState old.state.stage).erase ⟨old.sortKey, a.operationId⟩)).btreeForState
          a.state.stage) :
    (updateAwaitedAction a).run s =
      .ok () { s with
        operationIdToAwaitedAction := s.operationIdToAwaitedAction.insert a.operationId a.incrementVersion
        actionInfoHashKeyToAwaitedAction :=
          processStateChangesForHashKeyMap s.actionInfoHashKeyToAwaitedAction a.incrementVersion
        sortedActionInfoHashKeys := moveSorted s.sortedActionInfoHashKeys old a.incrementVersion } := by
  unfold updateAwaitedAction
  rw [run_bind, run_get]
  dsimp only
  rw [h]
  dsimp only
  rw [if_neg (not_not.mpr hv), AwaitedAction.incrementVersion_actionInfo, if_neg (not_not.mpr hq),
    AwaitedAction.incrementVersion_state, if_pos (by rw [hst]; decide),
    run_bind_of_ok (processStateChanges_run a.incrementVersion hin hout),
    run_bind_of_ok (run_modify _ _), sendReplace, run_modify]
  rfl

/-! ## `add_action` -/

theorem errTip_run_ok {α : Type} {x : M α} {s s' : AwaitedActionDbImpl} {r : α} (msg : String)
    (h : x.run s = .ok r s') : (errTip msg x).run s = .ok r s' := by
  rw [errTip, run_adaptExcept, h]

theorem trySubscribe_run_of_uncachable (clientOperationId : OperationId) (key : ActionUniqueKey) (now : Nat)
    (s : AwaitedActionDbImpl) : (trySubscribe clientOperationId (.uncachable key) now).run s = .ok none s :=
  rfl

theorem trySubscribe_run_of_key_none {key : ActionUniqueKey} (clientOperationId : OperationId) (now : Nat)
    (h : s.actionInfoHashKeyToAwaitedAction.lookup key = none) :
    (trySubscribe clientOperationId (.cachable key) now).run s = .ok none s := by
  rw [trySubscribe, run_bind, run_get]
  dsimp only
  rw [h]
  rfl

-- The client joins the running operation of its key.
def joinOperation (s : AwaitedActionDbImpl) (clientOperationId operationId : OperationId)
    (awaitedAction : AwaitedAction) (connectedClients now : Nat) : AwaitedActionDbImpl :=
  withHandle { s with
    connectedClientsForOperationId := s.connectedClientsForOperationId.insert operationId (connectedClients + 1)
    operationIdToAwaitedAction :=
      s.operationIdToAwaitedAction.insert operationId (awaitedAction.updateClientKeepAlive now) }
    clientOperationId operationId

theorem trySubscribe_run_of_join {key : ActionUniqueKey} {c : Nat} (clientOperationId : OperationId) (now : Nat)
    (hk : s.actionInfoHashKeyToAwaitedAction.lookup key = some o)
    (h : s.operationIdToAwaitedAction.lookup o = some a) (hf : a.state.stage.isFinished = false)
    (hc : s.connectedClientsForOperationId.lookup o = some c) :
    (trySubscribe clientOperationId (.cachable key) now).run s =
      .ok (some o) (joinOperation s clientOperationId o a c now) := by
  rw [trySubscribe, run_bind, run_get]
  dsimp only
  rw [hk]
  dsimp only
  rw [h]
  dsimp only
  rw [if_neg (by rw [hf]; decide), hc]
  dsimp only
  rw [run_bind_of_ok (run_set _ _), run_bind_of_ok (insertClientAwaitedAction_run _ _ _), run_pure]
  rfl

-- A new queued operation, under the next operation id, with the client's handle.
def addOperation (s : AwaitedActionDbImpl) (clientOperationId : OperationId) (actionInfo : ActionInfo)
    (now : Nat) : AwaitedActionDbImpl :=
  let operationId := s.nextOperationId
  let awaitedAction := AwaitedAction.new operationId actionInfo now
  withHandle { s with
    operationIdToAwaitedAction := s.operationIdToAwaitedAction.insert operationId awaitedAction
    connectedClientsForOperationId := s.connectedClientsForOperationId.insert operationId 1
    actionInfoHashKeyToAwaitedAction :=
      match actionInfo.uniqueQualifier with
      | .cachable uniqueKey => s.actionInfoHashKeyToAwaitedAction.insert uniqueKey operationId
      | .uncachable _ => s.actionInfoHashKeyToAwaitedAction
    sortedActionInfoHashKeys :=
      s.sortedActionInfoHashKeys.set .queued
        (insert ⟨awaitedAction.sortKey, operationId⟩ s.sortedActionInfoHashKeys.queued)
    nextOperationId := operationId + 1 }
    clientOperationId operationId

theorem addAction_run_of_join {s' : AwaitedActionDbImpl} {clientOperationId : OperationId} {actionInfo : ActionInfo}
    {now : Nat} (hsub : (trySubscribe clientOperationId actionInfo.uniqueQualifier now).run s = .ok (some o) s') :
    (addAction clientOperationId actionInfo now).run s = .ok o s' := by
  rw [addAction, run_bind_of_ok (errTip_run_ok _ hsub)]
  rfl

theorem addAction_run_of_new {clientOperationId : OperationId} {actionInfo : ActionInfo} {now : Nat}
    (hsub : (trySubscribe clientOperationId actionInfo.uniqueQualifier now).run s = .ok none s)
    (hfresh : ⟨(AwaitedAction.new s.nextOperationId actionInfo now).sortKey, s.nextOperationId⟩ ∉
      s.sortedActionInfoHashKeys.queued) :
    (addAction clientOperationId actionInfo now).run s =
      .ok s.nextOperationId (addOperation s clientOperationId actionInfo now) := by
  rw [addAction, run_bind_of_ok (errTip_run_ok _ hsub)]
  dsimp only
  rw [newOperationId, run_bind_of_ok (run_modifyGet _ _), makeClientAwaitedAction,
    run_bind_of_ok (run_modify _ _), run_bind_of_ok (insertClientAwaitedAction_run _ _ _),
    run_bind_of_ok (run_modify _ _), run_bind, run_get]
  dsimp only [withHandle, SortedAwaitedActions.insertSortMapForStage, SortedAwaitedActions.btreeForState, slotOf,
    SortedAwaitedActions.get]
  simp only [hfresh, if_false]
  rw [run_bind_of_ok (run_set _ _), run_pure]
  rfl

end NativeLink.Scheduler.AwaitedActionDbImpl
