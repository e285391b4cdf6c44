import NativeLink.Scheduler.SimpleSchedulerStateManager
import NativeLink.Scheduler.MemoryAwaitedActionDb.Properties

-- Completion is final. A writer of the state manager submits a value computed from one it read, and
-- only when the value it read was not finished; the database takes the value only at the version
-- read. A value read is never newer than the stored one, and one read at the stored version has the
-- stored stage. So a write the database takes was computed from the stored stage, which was not
-- finished. The database's other calls keep every stored stage.

namespace NativeLink.Scheduler

open EStateM AwaitedAction

/-! ## Database calls that write no version -/

namespace AwaitedActionDbImpl

variable {s s' : AwaitedActionDbImpl}

-- Every operation stored after the call was stored before with the same record, stage, worker and
-- attempts, or is new, queued with no attempt under an id never used before.
structure Kept (s s' : AwaitedActionDbImpl) : Prop where
  next : s.nextOperationId ≤ s'.nextOperationId
  lookup : ∀ o a', s'.operationIdToAwaitedAction.lookup o = some a' →
    (∃ a, s.operationIdToAwaitedAction.lookup o = some a ∧ SameRecord a a' ∧ a'.state.stage = a.state.stage ∧
        a'.workerId = a.workerId ∧ a'.attempts = a.attempts) ∨
      (s.nextOperationId ≤ o ∧ a'.state.stage = .queued ∧ a'.attempts = 0)

theorem Kept.of_lookup (hn : s.nextOperationId ≤ s'.nextOperationId)
    (h : ∀ o, s'.operationIdToAwaitedAction.lookup o = s.operationIdToAwaitedAction.lookup o) : Kept s s' :=
  ⟨hn, fun o a' h' => Or.inl ⟨a', by rwa [← h], ⟨rfl, rfl, rfl, rfl⟩, rfl, rfl, rfl⟩⟩

theorem ActionAdded.kept {c : OperationId} {actionInfo : ActionInfo} {now : Nat} {o : OperationId} :
    ActionAdded s c actionInfo now o s' → Kept s s'
  | .join (a := a) h _ => by
    refine ⟨Nat.le_refl _, fun o' a' h' => Or.inl ?_⟩
    by_cases ho : o' = o
    case pos =>
      subst ho
      simp only [joinOperation, withHandle, AList.lookup_insert, Option.some.injEq] at h'
      subst h'
      exact ⟨a, h, sameRecord_updateClientKeepAlive a now, rfl, rfl, rfl⟩
    case neg =>
      simp only [joinOperation, withHandle, AList.lookup_insert_ne ho] at h'
      exact ⟨a', h', ⟨rfl, rfl, rfl, rfl⟩, rfl, rfl, rfl⟩
  | .new => by
    refine ⟨Nat.le_succ _, fun o' a' h' => ?_⟩
    by_cases ho : o' = s.nextOperationId
    case pos =>
      subst ho
      simp only [addOperation, withHandle, AList.lookup_insert, Option.some.injEq] at h'
      subst h'
      exact Or.inr ⟨Nat.le_refl _, rfl, rfl⟩
    case neg =>
      simp only [addOperation, withHandle, AList.lookup_insert_ne ho] at h'
      exact Or.inl ⟨a', h', ⟨rfl, rfl, rfl, rfl⟩, rfl, rfl, rfl⟩

theorem EventHandled.kept : EventHandled s s' → Kept s s'
  | .empty _ => Kept.of_lookup (Nat.le_refl _) fun _ => rfl
  | .keepAlive _ => Kept.of_lookup (Nat.le_refl _) fun _ => rfl
  | .remaining _ h _ => Kept.of_lookup (Nat.le_refl _) (lookup_reinsert h)
  | .last _ _ _ =>
    ⟨Nat.le_refl _, fun _ a' h' => Or.inl ⟨a', lookup_of_lookup_erase h', ⟨rfl, rfl, rfl, rfl⟩, rfl, rfl, rfl⟩⟩

theorem step_kept (hs : Wf s) (call : Call) (hcall : ∀ a, call ≠ .updateAwaitedAction a) : Kept s (s.step call) := by
  cases call
  case addAction c actionInfo now =>
    obtain ⟨o, hadded⟩ := step_addAction hs c actionInfo now
    exact hadded.kept
  case updateAwaitedAction a => exact absurd rfl (hcall a)
  case evictClient c =>
    rw [step_evictClient]
    exact Kept.of_lookup (Nat.le_refl _) fun _ => rfl
  case sendKeepAlive c =>
    rw [step_sendKeepAlive]
    exact Kept.of_lookup (Nat.le_refl _) fun _ => rfl
  case handleActionEvent => exact (step_handleActionEvent hs).kept

end AwaitedActionDbImpl

/-! ## The manager -/

namespace SimpleSchedulerStateManager

open AwaitedActionDbImpl

variable {m : SimpleSchedulerStateManager} {s : State} {db db' : AwaitedActionDbImpl} {r v : AwaitedAction}
  {o : OperationId} {stage : ActionStage}

-- A value read is of the stored version or an older one, and at the stored version it has the
-- stored action, sort key, stage, worker and attempts.
def ReadCurrent (db : AwaitedActionDbImpl) (r : AwaitedAction) : Prop :=
  r.operationId < db.nextOperationId ∧
    ∀ cur, db.operationIdToAwaitedAction.lookup r.operationId = some cur →
      r.version ≤ cur.version ∧
        (r.version = cur.version →
          r.actionInfo = cur.actionInfo ∧ r.sortKey = cur.sortKey ∧ r.state.stage = cur.state.stage ∧
            r.workerId = cur.workerId ∧ r.attempts = cur.attempts)

structure Inv (s : State) : Prop where
  wf : s.db.Wf
  reads : ∀ r ∈ s.reads, ReadCurrent s.db r

-- The operation is stored with `stage`, or gone for good.
def Settled (o : OperationId) (stage : ActionStage) (db : AwaitedActionDbImpl) : Prop :=
  o < db.nextOperationId ∧ ∀ a, db.operationIdToAwaitedAction.lookup o = some a → a.state.stage = stage

-- What a step keeps: the invariant, and every finished stage.
def StepOk (s s' : State) : Prop :=
  Inv s' ∧ ∀ o stage, stage.isFinished = true → Settled o stage s.db → Settled o stage s'.db

theorem ReadCurrent.kept (h : ReadCurrent db r) (hk : Kept db db') : ReadCurrent db' r := by
  refine ⟨Nat.lt_of_lt_of_le h.1 hk.next, fun cur' hcur' => ?_⟩
  rcases hk.lookup _ cur' hcur' with ⟨cur, hcur, hsame, hstage, hworker, hattempts⟩ | ⟨hnew, -⟩
  case inl =>
    obtain ⟨hle, heq⟩ := h.2 cur hcur
    refine ⟨hsame.version ▸ hle, fun hv => ?_⟩
    obtain ⟨hinfo, hkey, hst, hw, ha⟩ := heq (hv.trans hsame.version)
    exact ⟨hinfo.trans hsame.actionInfo.symm, hkey.trans hsame.sortKey.symm, hst.trans hstage.symm,
      hw.trans hworker.symm, ha.trans hattempts.symm⟩
  case inr => exact absurd h.1 (Nat.not_lt.mpr hnew)

theorem Settled.kept (h : Settled o stage db) (hk : Kept db db') : Settled o stage db' := by
  refine ⟨Nat.lt_of_lt_of_le h.1 hk.next, fun a' ha' => ?_⟩
  rcases hk.lookup o a' ha' with ⟨a, ha, -, hstage, -⟩ | ⟨hnew, -⟩
  case inl => rw [hstage, h.2 a ha]
  case inr => exact absurd h.1 (Nat.not_lt.mpr hnew)

theorem dbStep_ok (hs : Inv s) (call : AwaitedActionDbImpl.Call) (hcall : ∀ a, call ≠ .updateAwaitedAction a) :
    StepOk s { s with db := s.db.step call } := by
  have hk := step_kept hs.wf call hcall
  exact ⟨⟨step_wf hs.wf call, fun r hr => (hs.reads r hr).kept hk⟩, fun _ _ _ hset => hset.kept hk⟩

theorem borrow_ok (hs : Inv s) (operationId : OperationId) (clientOperationId : Option OperationId) :
    StepOk s (step m s (.borrow operationId clientOperationId)) := by
  dsimp only [step]
  cases h : s.db.getByOperationId operationId
  case none => exact ⟨hs, fun _ _ _ hset => hset⟩
  case some cur =>
    refine ⟨⟨hs.wf, fun r hr => ?_⟩, fun _ _ _ hset => hset⟩
    rcases List.mem_append.mp hr with hr | hr
    case inl => exact hs.reads r hr
    case inr =>
      have hop : cur.operationId = operationId := hs.wf.operationId operationId cur h
      have hsame : SameRecord cur r ∧ r.state.stage = cur.state.stage ∧ r.workerId = cur.workerId ∧
          r.attempts = cur.attempts := by
        rw [List.mem_singleton] at hr
        subst hr
        cases clientOperationId
        case none => exact ⟨⟨rfl, rfl, rfl, rfl⟩, rfl, rfl, rfl⟩
        case some c => exact ⟨sameRecord_setClientOperationId cur c, rfl, rfl, rfl⟩
      obtain ⟨⟨hv, hinfo, hrop, hkey⟩, hstage, hworker, hattempts⟩ := hsame
      refine ⟨?_, fun cur' hcur' => ?_⟩
      · rw [hrop, hop]
        exact hs.wf.fresh _ (mem_of_lookup h)
      · rw [hrop, hop, show s.db.operationIdToAwaitedAction.lookup operationId = some cur from h,
          Option.some.injEq] at hcur'
        subst hcur'
        exact ⟨Nat.le_of_eq hv, fun _ => ⟨hinfo, hkey, hstage, hworker, hattempts⟩⟩

/-! ## The writers -/

theorem sameRecord_setStage (operationId : OperationId) (maybeWorkerId : Option WorkerId) (now : Nat)
    (a : AwaitedAction) (stage : ActionStage) : SameRecord a (setStage operationId maybeWorkerId now a stage) := by
  unfold setStage
  split
  case isTrue => exact (sameRecord_setWorkerId a none now).trans (sameRecord_workerSetState _ _ now)
  case isFalse => exact (sameRecord_setWorkerId a maybeWorkerId now).trans (sameRecord_workerSetState _ _ now)

theorem updateOperationValue_checks {operationId : OperationId} {maybeWorkerId : Option WorkerId}
    {update : UpdateOperationType} {now : Nat}
    (h : m.updateOperationValue operationId maybeWorkerId update now r = .ok v) :
    ¬(r.workerId.isSome && maybeWorkerId.isSome && maybeWorkerId != r.workerId) = true ∧
      ¬r.state.stage.isFinished = true := by
  unfold updateOperationValue at h
  split at h
  case isTrue => cases h
  case isFalse hcheck =>
    split at h
    case isTrue => cases h
    case isFalse hfin => exact ⟨hcheck, hfin⟩

theorem updateOperationValue_ok {operationId : OperationId} {maybeWorkerId : Option WorkerId}
    {update : UpdateOperationType} {now : Nat}
    (h : m.updateOperationValue operationId maybeWorkerId update now r = .ok v) :
    SameRecord r v ∧ r.state.stage.isFinished = false := by
  obtain ⟨hcheck, hfin⟩ := updateOperationValue_checks h
  unfold updateOperationValue at h
  rw [if_neg hcheck, if_neg hfin] at h
  refine ⟨?_, by simpa using hfin⟩
  cases update
  case keepAlive =>
    cases h
    exact sameRecord_workerKeepAlive r now
  case updateWithActionStage stage =>
    cases h
    exact sameRecord_setStage _ _ now r stage
  case updateWithError err =>
    cases h
    have hattempts : SameRecord r
        (if err.code = .resourceExhausted then r else { r with attempts := r.attempts + 1 }) := by
      split
      case isTrue => exact ⟨rfl, rfl, rfl, rfl⟩
      case isFalse => exact ⟨rfl, rfl, rfl, rfl⟩
    exact hattempts.trans (sameRecord_setStage _ _ now _ _)

theorem applyFilterPredicate_some {now : Nat} {filter : OperationFilter}
    (h : (m.applyFilterPredicate now r filter).2 = some v) : SameRecord r v ∧ r.state.stage.isFinished = false := by
  unfold applyFilterPredicate at h
  split at h
  case isTrue =>
    split at h
    case isTrue hfin =>
      cases h
      exact ⟨sameRecord_workerSetState r _ now, by simpa using hfin⟩
    case isFalse => cases h
  case isFalse => cases h

theorem submit_ok (hs : Inv s) (hr : ReadCurrent s.db r) (hw : SameRecord r v) (hf : r.state.stage.isFinished = false) :
    StepOk s (submit s v) := by
  rcases updateAwaitedAction_ok_or_error hs.wf v with ⟨⟨old, h, hv, hq⟩, s', hrun, hm, hn⟩ | ⟨-, e, herr⟩
  case inr =>
    have hsub : submit s v = s := by
      unfold submit
      rw [herr]
      rfl
    rw [hsub]
    exact ⟨hs, fun _ _ _ hset => hset⟩
  case inl =>
    have hsub : (submit s v).db = s' := by
      unfold submit
      rw [hrun]
      rfl
    obtain ⟨-, hcur⟩ := hr
    have hrop : r.operationId = v.operationId := hw.operationId.symm
    obtain ⟨-, hsame⟩ := hcur old (by rw [hrop]; exact h)
    obtain ⟨hinfo, hkey, hstage, -⟩ := hsame (hw.version.symm.trans hv.symm)
    obtain ⟨s'', hrun', -, -, hwf⟩ := updateAwaitedAction_run_of_wf hs.wf h hv hq
    rw [hrun] at hrun'
    cases hrun'
    have hwf' : s'.Wf := hwf (hw.sortKey.trans hkey)
    refine ⟨⟨by rw [hsub]; exact hwf', fun r' hr' => ?_⟩, fun o stage hfin hset => ?_⟩
    case refine_1 =>
      rw [hsub]
      obtain ⟨hlt, hcur'⟩ := hs.reads r' hr'
      refine ⟨by rw [hn]; exact hlt, fun cur' hlook => ?_⟩
      rw [hm] at hlook
      by_cases ho : r'.operationId = v.operationId
      case pos =>
        rw [ho, AList.lookup_insert, Option.some.injEq] at hlook
        subst hlook
        have hle := (hcur' old (by rw [ho]; exact h)).1
        rw [incrementVersion_version]
        refine ⟨by omega, fun hveq => ?_⟩
        omega
      case neg =>
        rw [AList.lookup_insert_ne ho] at hlook
        exact hcur' cur' hlook
    case refine_2 =>
      rw [hsub]
      refine ⟨by rw [hn]; exact hset.1, fun a ha => ?_⟩
      rw [hm] at ha
      by_cases ho : o = v.operationId
      case pos =>
        subst ho
        have hold := hset.2 old h
        rw [← hold, ← hstage, hf] at hfin
        cases hfin
      case neg =>
        rw [AList.lookup_insert_ne ho] at ha
        exact hset.2 a ha

theorem innerUpdateOperation_ok (hs : Inv s) (hr : ReadCurrent s.db r) (maybeWorkerId : Option WorkerId)
    (update : UpdateOperationType) (now : Nat) : StepOk s (innerUpdateOperation m s maybeWorkerId update now r).2 := by
  unfold innerUpdateOperation
  split
  case h_1 v hv =>
    obtain ⟨hw, hf⟩ := updateOperationValue_ok hv
    exact submit_ok hs hr hw hf
  case h_2 => exact ⟨hs, fun _ _ _ hset => hset⟩

theorem step_ok (hs : Inv s) (call : Call) : StepOk s (step m s call) := by
  cases call
  case addAction c actionInfo now => exact dbStep_ok hs _ fun _ => nofun
  case evictClient c => exact dbStep_ok hs _ fun _ => nofun
  case sendKeepAlive c => exact dbStep_ok hs _ fun _ => nofun
  case handleActionEvent => exact dbStep_ok hs _ fun _ => nofun
  case borrow operationId clientOperationId => exact borrow_ok hs operationId clientOperationId
  case updateOperation read workerId update now =>
    dsimp only [step]
    split
    case h_1 r hr => exact innerUpdateOperation_ok hs (hs.reads _ (List.mem_of_getElem? hr)) _ update now
    case h_2 => exact ⟨hs, fun _ _ _ hset => hset⟩
  case assignOperation read workerIdOrReasonForUnassign now =>
    dsimp only [step]
    split
    case h_1 r hr => exact innerUpdateOperation_ok hs (hs.reads _ (List.mem_of_getElem? hr)) _ _ now
    case h_2 => exact ⟨hs, fun _ _ _ hset => hset⟩
  case applyFilterPredicate read filter now =>
    dsimp only [step]
    split
    case h_1 r hr =>
      split
      case h_1 v hv =>
        obtain ⟨hw, hf⟩ := applyFilterPredicate_some hv
        exact submit_ok hs (hs.reads _ (List.mem_of_getElem? hr)) hw hf
      case h_2 => exact ⟨hs, fun _ _ _ hset => hset⟩
    case h_2 => exact ⟨hs, fun _ _ _ hset => hset⟩
  case timeoutOperationId checked read now elapsed =>
    dsimp only [step]
    split
    case h_1 checkedAction r _ hr =>
      split
      case isTrue => exact innerUpdateOperation_ok hs (hs.reads _ (List.mem_of_getElem? hr)) _ _ now
      case isFalse => exact ⟨hs, fun _ _ _ hset => hset⟩
    case h_2 => exact ⟨hs, fun _ _ _ hset => hset⟩

theorem init_inv : Inv init :=
  ⟨new_wf, fun _ hr => absurd hr List.not_mem_nil⟩

theorem run_inv (m : SimpleSchedulerStateManager) (calls : List Call) : Inv (run m calls) :=
  fold_inv (I := Inv) (step m) (fun _ call hs => (step_ok hs call).1) calls init init_inv

theorem completed_stage_is_final (m : SimpleSchedulerStateManager) (calls rest : List Call) (o : OperationId)
    (a : AwaitedAction) (h : (run m calls).db.operationIdToAwaitedAction.lookup o = some a)
    (hfin : a.state.stage.isFinished = true) (a' : AwaitedAction)
    (h' : (run m (calls ++ rest)).db.operationIdToAwaitedAction.lookup o = some a') :
    a'.state.stage = a.state.stage := by
  have hs := run_inv m calls
  -- from the state where it is finished, the operation stays settled on its stage
  have hset : Settled o a.state.stage (run m calls).db := by
    refine ⟨hs.wf.fresh o (mem_of_lookup h), fun b hb => ?_⟩
    rw [h, Option.some.injEq] at hb
    rw [hb]
  have hfold := fold_inv (I := fun s => Inv s ∧ Settled o a.state.stage s.db) (step m)
    (fun _ call hinv => ⟨(step_ok hinv.1 call).1, (step_ok hinv.1 call).2 o _ hfin hinv.2⟩) rest
    (run m calls) ⟨hs, hset⟩
  rw [run, List.foldl_append] at h'
  exact hfold.2.2 a' h'

-- A worker completes the operation from one read; a second worker's update from an older read is
-- refused, and the operation stays completed.
theorem completed_stage_is_final_of_stale_read :
    (run ⟨3, 60, 60⟩ [.addAction 100 ⟨0, 0, .cachable ⟨"main", .sha256, ⟨1, 1⟩⟩⟩ 0, .borrow 0 none, .borrow 0 none,
        .updateOperation 0 1 (.updateWithActionStage (.completed ⟨"1", none⟩)) 5]).db.operationIdToAwaitedAction.lookup 0 =
      some { AwaitedAction.new 0 ⟨0, 0, .cachable ⟨"main", .sha256, ⟨1, 1⟩⟩⟩ 0 with
        version := 1, workerId := some 1, lastWorkerUpdatedTimestamp := 5,
        state := ⟨.completed ⟨"1", none⟩, 0, ⟨1, 1⟩⟩ } ∧
    ActionStage.isFinished (.completed ⟨"1", none⟩) = true ∧
    (run ⟨3, 60, 60⟩ ([.addAction 100 ⟨0, 0, .cachable ⟨"main", .sha256, ⟨1, 1⟩⟩⟩ 0, .borrow 0 none, .borrow 0 none,
        .updateOperation 0 1 (.updateWithActionStage (.completed ⟨"1", none⟩)) 5] ++
        [.updateOperation 1 2 (.updateWithActionStage .executing) 6])).db.operationIdToAwaitedAction.lookup 0 =
      some { AwaitedAction.new 0 ⟨0, 0, .cachable ⟨"main", .sha256, ⟨1, 1⟩⟩⟩ 0 with
        version := 1, workerId := some 1, lastWorkerUpdatedTimestamp := 5,
        state := ⟨.completed ⟨"1", none⟩, 0, ⟨1, 1⟩⟩ } ∧
    ActionStage.completed ⟨"1", none⟩ = .completed ⟨"1", none⟩ := by
  have hdone : (run ⟨3, 60, 60⟩ [.addAction 100 ⟨0, 0, .cachable ⟨"main", .sha256, ⟨1, 1⟩⟩⟩ 0, .borrow 0 none,
        .borrow 0 none, .updateOperation 0 1 (.updateWithActionStage (.completed ⟨"1", none⟩)) 5]).db.operationIdToAwaitedAction.lookup 0 =
      some { AwaitedAction.new 0 ⟨0, 0, .cachable ⟨"main", .sha256, ⟨1, 1⟩⟩⟩ 0 with
        version := 1, workerId := some 1, lastWorkerUpdatedTimestamp := 5,
        state := ⟨.completed ⟨"1", none⟩, 0, ⟨1, 1⟩⟩ } := by
    decide +kernel
  have hstale : (run ⟨3, 60, 60⟩ ([.addAction 100 ⟨0, 0, .cachable ⟨"main", .sha256, ⟨1, 1⟩⟩⟩ 0, .borrow 0 none,
        .borrow 0 none, .updateOperation 0 1 (.updateWithActionStage (.completed ⟨"1", none⟩)) 5] ++
        [.updateOperation 1 2 (.updateWithActionStage .executing) 6])).db.operationIdToAwaitedAction.lookup 0 =
      some { AwaitedAction.new 0 ⟨0, 0, .cachable ⟨"main", .sha256, ⟨1, 1⟩⟩⟩ 0 with
        version := 1, workerId := some 1, lastWorkerUpdatedTimestamp := 5,
        state := ⟨.completed ⟨"1", none⟩, 0, ⟨1, 1⟩⟩ } := by
    decide +kernel
  exact ⟨hdone, rfl, hstale, completed_stage_is_final _ _ _ 0 _ hdone rfl _ hstale⟩

end SimpleSchedulerStateManager

end NativeLink.Scheduler
