import NativeLink.Scheduler.SimpleScheduler
import NativeLink.Scheduler.SimpleSchedulerStateManager.Retries

-- Who owns a running operation. The state manager records it as the operation's `worker_id`, and
-- the worker pool as an entry of the worker's `running_action_infos`; the two are written by
-- different calls. The state manager's record is sound: an executing operation names a worker, no
-- write moves an operation from one worker to another, and a report from any other worker is
-- refused with the operation untouched. The pool's record is not: a timeout queues the operation
-- again without taking it from its worker, and the matching engine then gives it to a second one.

namespace NativeLink.Scheduler

open EStateM AwaitedAction AwaitedActionDbImpl

/-! ## The state manager's record -/

namespace SimpleSchedulerStateManager

variable {m : SimpleSchedulerStateManager} {s : State} {db db' : AwaitedActionDbImpl} {r v a : AwaitedAction}
  {maybeWorkerId : Option WorkerId} {update : UpdateOperationType}

-- An operation stored as executing names the worker it runs on.
def ExecutingOwned (db : AwaitedActionDbImpl) : Prop :=
  ∀ o a, db.operationIdToAwaitedAction.lookup o = some a → a.state.stage = .executing → a.workerId.isSome

-- No operation a worker holds passes straight to another worker.
def NoSteal (db db' : AwaitedActionDbImpl) : Prop :=
  ∀ o a a' w w', db.operationIdToAwaitedAction.lookup o = some a → a.workerId = some w →
    db'.operationIdToAwaitedAction.lookup o = some a' → a'.workerId = some w' → w' = w

structure Owned (s : State) : Prop where
  inv : Inv s
  executing : ExecutingOwned s.db

theorem NoSteal.refl (db : AwaitedActionDbImpl) : NoSteal db db := by
  intro o a a' w w' ha hw ha' hw'
  rw [ha, Option.some.injEq] at ha'
  subst ha'
  rw [hw, Option.some.injEq] at hw'
  exact hw'.symm

theorem ExecutingOwned.kept (h : ExecutingOwned db) (hk : Kept db db') : ExecutingOwned db' := by
  intro o a' ha' hex
  rcases hk.lookup o a' ha' with ⟨a, ha, -, hstage, hworker, -⟩ | ⟨-, hqueued, -⟩
  case inl =>
    rw [hworker]
    exact h o a ha (hstage ▸ hex)
  case inr =>
    rw [hqueued] at hex
    cases hex

theorem noSteal_of_kept (hs : db.Wf) (hk : Kept db db') : NoSteal db db' := by
  intro o a a' w w' ha hw ha' hw'
  rcases hk.lookup o a' ha' with ⟨b, hb, -, -, hworker, -⟩ | ⟨hnew, -⟩
  case inl =>
    rw [ha, Option.some.injEq] at hb
    subst hb
    rw [hworker, hw, Option.some.injEq] at hw'
    exact hw'.symm
  case inr => exact absurd (hs.fresh o (mem_of_lookup ha)) (Nat.not_lt.mpr hnew)

/-! ### The values the writers compute -/

theorem setStage_workerId (operationId : OperationId) (now : Nat) (a : AwaitedAction) (stage : ActionStage) :
    (setStage operationId maybeWorkerId now a stage).workerId = if stage = .queued then none else maybeWorkerId := by
  unfold setStage
  split
  case isTrue => exact setWorkerId_workerId a none now
  case isFalse => exact setWorkerId_workerId a maybeWorkerId now

theorem workerId_of_check {operationId : OperationId} {now : Nat} (h : m.updateOperationValue operationId maybeWorkerId update now r = .ok v) :
    r.workerId = none ∨ maybeWorkerId = none ∨ maybeWorkerId = r.workerId := by
  have hcheck := (updateOperationValue_checks h).1
  cases hr : r.workerId
  case none => exact Or.inl rfl
  case some w =>
    cases maybeWorkerId
    case none => exact Or.inr (Or.inl rfl)
    case some w' =>
      refine Or.inr (Or.inr ?_)
      simpa [hr] using hcheck

theorem updateOperationValue_workerId {operationId : OperationId} {now : Nat}
    (h : m.updateOperationValue operationId maybeWorkerId update now r = .ok v) :
    v.workerId = none ∨ v.workerId = r.workerId ∨ r.workerId = none := by
  have hcheck := workerId_of_check h
  have hset : ∀ (a : AwaitedAction) stage, a.workerId = r.workerId →
      (setStage operationId maybeWorkerId now a stage).workerId = none ∨
        (setStage operationId maybeWorkerId now a stage).workerId = r.workerId ∨ r.workerId = none := by
    intro a stage _
    rw [setStage_workerId]
    split
    case isTrue => exact Or.inl rfl
    case isFalse =>
      rcases hcheck with hnone | hnone | heq
      case inl => exact Or.inr (Or.inr hnone)
      case inr.inl => exact Or.inl hnone
      case inr.inr => exact Or.inr (Or.inl heq)
  obtain ⟨hcheck', hfin⟩ := updateOperationValue_checks h
  unfold updateOperationValue at h
  rw [if_neg hcheck', if_neg hfin] at h
  cases update
  case keepAlive =>
    cases h
    exact Or.inr (Or.inl rfl)
  case updateWithActionStage stage =>
    cases h
    exact hset r stage rfl
  case updateWithError err =>
    cases h
    exact hset _ _ (by split <;> rfl)

theorem updateOperationValue_executing {operationId : OperationId} {now : Nat}
    (h : m.updateOperationValue operationId maybeWorkerId update now r = .ok v)
    (hattr : update = .updateWithActionStage .executing → maybeWorkerId.isSome)
    (hex : v.state.stage = .executing) :
    v.workerId.isSome ∨ (r.state.stage = .executing ∧ v.workerId = r.workerId) := by
  obtain ⟨hcheck, hfin⟩ := updateOperationValue_checks h
  unfold updateOperationValue at h
  rw [if_neg hcheck, if_neg hfin] at h
  cases update
  case keepAlive =>
    cases h
    exact Or.inr ⟨hex, rfl⟩
  case updateWithActionStage stage =>
    cases h
    rw [setStage_stage] at hex
    subst hex
    rw [setStage_workerId, if_neg nofun]
    exact Or.inl (hattr rfl)
  case updateWithError err =>
    have hstage : v.state.stage ≠ .executing := by
      rw [← Except.ok.inj h, setStage_stage]
      split_ifs <;> simp
    exact absurd hex hstage

theorem applyFilterPredicate_snd {now : Nat} {filter : OperationFilter}
    (h : (m.applyFilterPredicate now r filter).2 = some v) :
    v.workerId = r.workerId ∧ v.state.stage ≠ .executing := by
  unfold applyFilterPredicate at h
  split at h
  case isTrue =>
    split at h
    case isTrue =>
      cases h
      exact ⟨rfl, nofun⟩
    case isFalse => cases h
  case isFalse => cases h

/-! ### A write the database takes -/

theorem submit_db (hs : Inv s) (v : AwaitedAction) :
    (submit s v).db = s.db ∨
      ∃ old, s.db.operationIdToAwaitedAction.lookup v.operationId = some old ∧ old.version = v.version ∧
        (submit s v).db.operationIdToAwaitedAction =
          s.db.operationIdToAwaitedAction.insert v.operationId v.incrementVersion := by
  rcases updateAwaitedAction_ok_or_error hs.wf v with ⟨⟨old, h, hv, -⟩, s', hrun, hm, -⟩ | ⟨-, e, herr⟩
  case inl =>
    refine Or.inr ⟨old, h, hv, ?_⟩
    have hsub : (submit s v).db = s' := by
      unfold submit
      rw [hrun]
      rfl
    rw [hsub, hm]
  case inr =>
    refine Or.inl ?_
    unfold submit
    rw [herr]
    rfl

theorem submit_lookup (hs : Inv s) (hr : ReadCurrent s.db r) (hop : v.operationId = r.operationId)
    (hv : v.version = r.version) {o : OperationId} {a' : AwaitedAction}
    (h : (submit s v).db.operationIdToAwaitedAction.lookup o = some a') :
    s.db.operationIdToAwaitedAction.lookup o = some a' ∨
      ∃ old, s.db.operationIdToAwaitedAction.lookup o = some old ∧ o = v.operationId ∧ a' = v.incrementVersion ∧
        r.state.stage = old.state.stage ∧ r.workerId = old.workerId := by
  rcases submit_db hs v with hsame | ⟨old, hold, hver, hm⟩
  case inl =>
    rw [hsame] at h
    exact Or.inl h
  case inr =>
    rw [hm] at h
    by_cases ho : o = v.operationId
    case pos =>
      subst ho
      rw [AList.lookup_insert, Option.some.injEq] at h
      obtain ⟨-, -, hstage, hworker, -⟩ := (hr.2 old (hop ▸ hold)).2 (hv.symm.trans hver.symm)
      exact Or.inr ⟨old, hold, rfl, h.symm, hstage, hworker⟩
    case neg =>
      rw [AList.lookup_insert_ne ho] at h
      exact Or.inl h

theorem submit_executingOwned (hs : Owned s) (hr : ReadCurrent s.db r) (hop : v.operationId = r.operationId)
    (hv : v.version = r.version)
    (hex : v.state.stage = .executing → v.workerId.isSome ∨ (r.state.stage = .executing ∧ v.workerId = r.workerId)) :
    ExecutingOwned (submit s v).db := by
  intro o a' ha' hexec
  rcases submit_lookup hs.inv hr hop hv ha' with h | ⟨old, hold, -, rfl, hstage, hworker⟩
  case inl => exact hs.executing o a' h hexec
  case inr =>
    rcases hex hexec with hsome | ⟨hrex, hvw⟩
    case inl => exact hsome
    case inr =>
      show v.workerId.isSome
      rw [hvw, hworker]
      exact hs.executing o old hold (hstage ▸ hrex)

theorem submit_noSteal (hs : Inv s) (hr : ReadCurrent s.db r) (hop : v.operationId = r.operationId)
    (hv : v.version = r.version) (hw : v.workerId = none ∨ v.workerId = r.workerId ∨ r.workerId = none) :
    NoSteal s.db (submit s v).db := by
  intro o a a' w w' ha haw ha' ha'w
  rcases submit_lookup hs hr hop hv ha' with h | ⟨old, hold, -, rfl, -, hworker⟩
  case inl => exact NoSteal.refl s.db o a a' w w' ha haw h ha'w
  case inr =>
    rw [ha, Option.some.injEq] at hold
    subst hold
    change v.workerId = some w' at ha'w
    rcases hw with hnone | heq | hnone
    case inl =>
      rw [hnone] at ha'w
      cases ha'w
    case inr.inl =>
      rw [heq, hworker, haw, Option.some.injEq] at ha'w
      exact ha'w.symm
    case inr.inr =>
      rw [hworker, haw] at hnone
      cases hnone

/-! ### The passes of `inner_update_operation` -/

theorem innerUpdateOperation_owned (hs : Owned s) (hr : ReadCurrent s.db r)
    (hattr : update = .updateWithActionStage .executing → maybeWorkerId.isSome) (now : Nat) :
    Owned (innerUpdateOperation m s maybeWorkerId update now r).2 ∧
      NoSteal s.db (innerUpdateOperation m s maybeWorkerId update now r).2.db := by
  unfold innerUpdateOperation
  split
  case h_1 v hv =>
    obtain ⟨hsame, hf⟩ := updateOperationValue_ok hv
    refine ⟨⟨(submit_ok hs.inv hr hsame hf).1, ?_⟩, ?_⟩
    · exact submit_executingOwned hs hr hsame.operationId hsame.version
        (updateOperationValue_executing hv hattr)
    · exact submit_noSteal hs.inv hr hsame.operationId hsame.version (updateOperationValue_workerId hv)
  case h_2 => exact ⟨hs, NoSteal.refl s.db⟩

theorem innerUpdateOperation_of_other_worker (hr : ReadCurrent s.db r)
    (ha : s.db.operationIdToAwaitedAction.lookup r.operationId = some a) {w w' : WorkerId} (hw : a.workerId = some w)
    (hne : w' ≠ w) (now : Nat) :
    ∃ e, innerUpdateOperation m s (some w') update now r = (.error e, s) := by
  unfold innerUpdateOperation
  split
  case h_1 v hv =>
    obtain ⟨hsame, -⟩ := updateOperationValue_ok hv
    by_cases hver : r.version = a.version
    case pos =>
      obtain ⟨-, -, -, hworker, -⟩ := (hr.2 a ha).2 hver
      rcases workerId_of_check hv with hnone | hnone | heq
      case inl =>
        rw [hworker, hw] at hnone
        cases hnone
      case inr.inl => cases hnone
      case inr.inr =>
        rw [hworker, hw, Option.some.injEq] at heq
        exact absurd heq hne
    case neg =>
      have hlookup : s.db.operationIdToAwaitedAction.lookup v.operationId = some a := by
        rw [hsame.operationId]
        exact ha
      obtain ⟨e, herr⟩ := updateAwaitedAction_run_of_version_ne hlookup
        (fun h => hver (hsame.version.symm.trans h.symm))
      refine ⟨e, ?_⟩
      have hsub : submit s v = s := by
        unfold submit
        rw [herr]
        rfl
      rw [herr, hsub]
  case h_2 e _ => exact ⟨.error e, rfl⟩

theorem innerUpdateOperation_lookup_ne (hs : Inv s) {o : OperationId} (ho : o ≠ r.operationId) (now : Nat) :
    (innerUpdateOperation m s maybeWorkerId update now r).2.db.operationIdToAwaitedAction.lookup o =
      s.db.operationIdToAwaitedAction.lookup o := by
  unfold innerUpdateOperation
  split
  case h_1 v hv =>
    obtain ⟨hsame, -⟩ := updateOperationValue_ok hv
    rcases submit_db hs v with hsub | ⟨-, -, -, hm⟩
    case inl => rw [hsub]
    case inr =>
      rw [hm, AList.lookup_insert_ne (hsame.operationId.symm ▸ ho)]
  case h_2 => rfl

/-! ### Runs -/

theorem step_owned (hs : Owned s) (call : Call) :
    Owned (step m s call) ∧ NoSteal s.db (step m s call).db := by
  have hdb : ∀ c : AwaitedActionDbImpl.Call, (∀ a, c ≠ .updateAwaitedAction a) →
      Owned { s with db := s.db.step c } ∧ NoSteal s.db (s.db.step c) := by
    intro c hc
    have hk := step_kept hs.inv.wf c hc
    exact ⟨⟨(dbStep_ok hs.inv c hc).1, hs.executing.kept hk⟩, noSteal_of_kept hs.inv.wf hk⟩
  cases call
  case addAction c actionInfo now => exact hdb _ fun _ => nofun
  case evictClient c => exact hdb _ fun _ => nofun
  case sendKeepAlive c => exact hdb _ fun _ => nofun
  case handleActionEvent => exact hdb _ fun _ => nofun
  case borrow operationId clientOperationId =>
    refine ⟨⟨(borrow_ok hs.inv operationId clientOperationId).1, ?_⟩, ?_⟩
    all_goals
      dsimp only [step]
      split
    case h_1 => exact hs.executing
    case h_2 => exact hs.executing
    case h_1 => exact NoSteal.refl _
    case h_2 => exact NoSteal.refl _
  case updateOperation read workerId update now =>
    dsimp only [step]
    split
    case h_1 r hr => exact innerUpdateOperation_owned hs (hs.inv.reads _ (List.mem_of_getElem? hr)) (fun _ => rfl) now
    case h_2 => exact ⟨hs, NoSteal.refl s.db⟩
  case assignOperation read workerIdOrReasonForUnassign now =>
    dsimp only [step]
    split
    case h_1 r hr =>
      have hattr : (assignOperation workerIdOrReasonForUnassign).2 = .updateWithActionStage .executing →
          (assignOperation workerIdOrReasonForUnassign).1.isSome := by
        cases workerIdOrReasonForUnassign
        case ok w => exact fun _ => rfl
        case error err => exact nofun
      exact innerUpdateOperation_owned hs (hs.inv.reads _ (List.mem_of_getElem? hr)) hattr now
    case h_2 => exact ⟨hs, NoSteal.refl s.db⟩
  case applyFilterPredicate read filter now =>
    dsimp only [step]
    split
    case h_1 r hr =>
      split
      case h_1 v hv =>
        have hr' := hs.inv.reads _ (List.mem_of_getElem? hr)
        obtain ⟨hsame, hf⟩ := applyFilterPredicate_some hv
        obtain ⟨hworker, hstage⟩ := applyFilterPredicate_snd hv
        refine ⟨⟨(submit_ok hs.inv hr' hsame hf).1, ?_⟩, ?_⟩
        · exact submit_executingOwned hs hr' hsame.operationId hsame.version
            fun hex => absurd hex hstage
        · exact submit_noSteal hs.inv hr' hsame.operationId hsame.version (Or.inr (Or.inl hworker))
      case h_2 => exact ⟨hs, NoSteal.refl s.db⟩
    case h_2 => exact ⟨hs, NoSteal.refl s.db⟩
  case timeoutOperationId checked read now elapsed =>
    dsimp only [step]
    split
    case h_1 checkedAction r _ hr =>
      split
      case isTrue =>
        refine innerUpdateOperation_owned hs (hs.inv.reads _ (List.mem_of_getElem? hr)) ?_ now
        intro h
        cases h
      case isFalse => exact ⟨hs, NoSteal.refl s.db⟩
    case h_2 => exact ⟨hs, NoSteal.refl s.db⟩

theorem init_owned : Owned init :=
  ⟨init_inv, fun _ _ h => absurd h (by simp [init, AwaitedActionDbImpl.new])⟩

theorem run_owned (m : SimpleSchedulerStateManager) (calls : List Call) : Owned (run m calls) :=
  fold_inv (I := Owned) (step m) (fun _ call hs => (step_owned hs call).1) calls init init_owned

/-! ### The state manager as the worker pool calls it -/

theorem readCurrent_of_lookup (hs : Inv s) {o : OperationId} (h : s.db.getByOperationId o = some a) :
    ReadCurrent s.db a := by
  have hop : a.operationId = o := hs.wf.operationId o a h
  refine ⟨hop ▸ hs.wf.fresh o (mem_of_lookup h), fun cur hcur => ?_⟩
  rw [hop, show s.db.operationIdToAwaitedAction.lookup o = some a from h, Option.some.injEq] at hcur
  subst hcur
  exact ⟨Nat.le_refl _, fun _ => ⟨rfl, rfl, rfl, rfl, rfl⟩⟩

theorem innerUpdateOperationOnce_owned (hs : Owned s) (o : OperationId)
    (hattr : update = .updateWithActionStage .executing → maybeWorkerId.isSome) (now : Nat) :
    Owned (m.innerUpdateOperationOnce s o maybeWorkerId update now).2 := by
  unfold innerUpdateOperationOnce
  split
  case h_1 a ha => exact (innerUpdateOperation_owned hs (readCurrent_of_lookup hs.inv ha) hattr now).1
  case h_2 => exact hs

theorem innerUpdateOperationOnce_lookup_ne (hs : Inv s) {o o' : OperationId} (ho : o' ≠ o) (now : Nat) :
    (m.innerUpdateOperationOnce s o maybeWorkerId update now).2.db.operationIdToAwaitedAction.lookup o' =
      s.db.operationIdToAwaitedAction.lookup o' := by
  unfold innerUpdateOperationOnce
  split
  case h_1 a ha =>
    have hop : a.operationId = o := hs.wf.operationId o a ha
    exact innerUpdateOperation_lookup_ne hs (hop ▸ ho) now
  case h_2 => rfl

theorem innerUpdateOperationOnce_of_other_worker {o : OperationId}
    (ha : s.db.operationIdToAwaitedAction.lookup o = some a) {w w' : WorkerId} (hw : a.workerId = some w)
    (hne : w' ≠ w) (now : Nat) :
    m.innerUpdateOperationOnce s o (some w') update now =
      (.error (.error (Error.new .aborted "Worker ids do not match")), s) := by
  have hcheck : (a.workerId.isSome && (some w').isSome && some w' != a.workerId) = true := by
    simp [hw, hne]
  unfold innerUpdateOperationOnce innerUpdateOperation updateOperationValue
  rw [show s.db.getByOperationId o = some a from ha]
  dsimp only
  rw [if_pos hcheck]

-- `P` is kept by every pass of `inner_update_operation` that names its worker.
def PassClosed (m : SimpleSchedulerStateManager) (P : State → Prop) : Prop :=
  ∀ t o w update now, P t → P (m.innerUpdateOperationOnce t o (some w) update now).2

theorem passClosed_owned (m : SimpleSchedulerStateManager) : PassClosed m Owned :=
  fun _ o _ _ now ht => innerUpdateOperationOnce_owned ht o (fun _ => rfl) now

end SimpleSchedulerStateManager

/-! ## The worker pool's reports -/

namespace ApiWorkerSchedulerImpl

open SimpleSchedulerStateManager

variable (cfg : ApiWorkerScheduler) {P : SimpleSchedulerStateManager.State → Prop}

-- `x` keeps `P` of the state manager's state, whether it returns or stops.
abbrev Keeps {α : Type} (P : SimpleSchedulerStateManager.State → Prop) (x : M α) : Prop :=
  Preserves (fun s => P s.workerStateManager) (fun _ => False) x

theorem keeps_getMut (workerId : WorkerId) : Keeps P (getMut workerId) :=
  fun _ hs => hs

theorem keeps_removeWorker (workerId : WorkerId) : Keeps P (removeWorker workerId) :=
  fun _ hs => hs

theorem keeps_onWorker {α : Type} (workerId : WorkerId) (worker : Worker) (x : Worker.M α) :
    Keeps P (onWorker workerId worker x) := by
  intro s hs
  show Ends _ _ (onWorker workerId worker x s)
  unfold onWorker
  split
  case h_1 => exact hs
  case h_2 => exact ⟨hs, not_false⟩

theorem keeps_refreshLifetime (workerId : WorkerId) (timestamp : WorkerTimestamp) :
    Keeps P (refreshLifetime workerId timestamp) := by
  refine Preserves.getThe_bind fun s hs => ?_
  split
  case h_1 => exact ⟨hs, not_false⟩
  case h_2 worker _ =>
    split
    case isTrue => exact ⟨hs, not_false⟩
    case isFalse => exact hs

theorem keeps_addWorker (worker : Worker) : Keeps P (addWorker worker) := by
  unfold addWorker
  refine (Preserves.modify ?_).bind fun _ => (keeps_onWorker worker.id worker _).adaptExcept fun _ h => h
  exact fun _ hs => hs

theorem keeps_setDrainWorker (workerId : WorkerId) (isDraining : Bool) : Keeps P (setDrainWorker workerId isDraining) := by
  refine (keeps_getMut workerId).bind fun maybeWorker => ?_
  cases maybeWorker
  case none => exact Preserves.throw not_false
  case some worker => exact keeps_onWorker workerId worker _

theorem keeps_updateOperation {operationId : OperationId} {workerId : WorkerId} {update : UpdateOperationType}
    {now : Nat} (hP : ∀ t, P t → P (cfg.workerStateManager.innerUpdateOperationOnce t operationId (some workerId) update now).2) :
    Keeps P (updateOperation cfg operationId workerId update now) := by
  intro s hs
  rcases h : cfg.workerStateManager.innerUpdateOperationOnce s.workerStateManager operationId (some workerId) update now
    with ⟨result, t⟩
  have ht : P t := by
    have := hP _ hs
    rwa [h] at this
  rw [updateOperation_run cfg h]
  cases result
  case ok => exact ht
  case error e => exact ⟨ht, not_false⟩

theorem immediateEvictWorker_ends {workerId : WorkerId} {err : Error} {now : Nat} {s : ApiWorkerSchedulerImpl}
    (hs : P s.workerStateManager)
    (hP : ∀ worker, s.workers.peek workerId = some worker → ∀ o ∈ worker.runningActionInfos.keys, ∀ t, P t →
      P (cfg.workerStateManager.innerUpdateOperationOnce t o (some workerId) (.updateWithError err) now).2) :
    Ends (fun s => P s.workerStateManager) (fun _ => False) ((immediateEvictWorker cfg workerId err now).run s) := by
  unfold immediateEvictWorker
  rw [run_bind_of_ok (removeWorker_run s workerId)]
  cases hpeek : s.workers.peek workerId
  case none => exact hs
  case some worker =>
    refine Preserves.bind (Preserves.foldlM _ _ fun result o ho => ?_) (fun result => liftError_preserves result) _ hs
    exact (catchError_preserves (keeps_updateOperation cfg (hP worker hpeek o ho))).bind fun _ => Preserves.pure _

theorem keeps_immediateEvictWorker (hP : PassClosed cfg.workerStateManager P) (workerId : WorkerId) (err : Error)
    (now : Nat) : Keeps P (immediateEvictWorker cfg workerId err now) :=
  fun _ hs => immediateEvictWorker_ends cfg hs fun _ _ o _ t ht => hP t o workerId _ now ht

variable (hP : PassClosed cfg.workerStateManager P)
include hP

theorem keeps_updateAction (workerId : WorkerId) (operationId : OperationId) (update : UpdateOperationType)
    (now : Nat) : Keeps P (updateAction cfg workerId operationId update now) := by
  unfold updateAction
  refine (keeps_getMut workerId).bind fun maybeWorker => ?_
  cases maybeWorker
  case none => exact Preserves.throw not_false
  case some worker =>
    refine Preserves.ite (fun _ => ?_) (fun _ => ?_)
    case refine_1 =>
      exact (catchError_preserves (keeps_immediateEvictWorker cfg hP workerId _ now)).bind fun _ =>
        liftError_preserves _
    case refine_2 =>
      split
      refine ((keeps_updateOperation cfg fun t ht => hP t _ _ _ _ ht).adaptExcept fun _ h => h).bind fun _ => ?_
      refine Preserves.ite (fun _ => Preserves.pure _) (fun _ => ?_)
      exact (keeps_onWorker workerId worker _).bind fun r => liftError_preserves r

theorem keeps_workerNotifyRunAction (workerId : WorkerId) (operationId : OperationId)
    (actionInfo : ActionInfoWithProps) (now : Nat) :
    Keeps P (workerNotifyRunAction cfg workerId operationId actionInfo now) := by
  unfold workerNotifyRunAction
  refine (keeps_getMut workerId).bind fun maybeWorker => ?_
  cases maybeWorker
  case none => exact Preserves.pure _
  case some worker =>
    refine (catchError_preserves (keeps_onWorker workerId worker _)).bind fun result => ?_
    cases result
    case ok => exact Preserves.pure _
    case error =>
      exact (catchError_preserves (keeps_immediateEvictWorker cfg hP workerId _ now)).bind fun _ =>
        liftError_preserves _

omit hP in
theorem run_catchError_merge_error {x : M Unit} {err : Error} {s : ApiWorkerSchedulerImpl}
    {Q : ApiWorkerSchedulerImpl → Prop} (h : Ends Q (fun _ => False) (x.run s)) :
    ∃ e s', (catchError x >>= fun r => liftError (ResultExt.merge (Except.error err : Except Error Unit) r)).run s =
      .error e s' ∧ Q s' := by
  cases hx : x.run s
  case ok a s' =>
    rw [hx] at h
    rw [run_bind_of_ok (catchError_run_ok hx)]
    exact ⟨_, s', rfl, h⟩
  case error e s' =>
    rw [hx] at h
    cases e
    case error e =>
      rw [run_bind_of_ok (catchError_run_error hx)]
      exact ⟨_, s', rfl, h.1⟩
    case panic msg =>
      rw [run_bind, catchError_run_panic hx]
      exact ⟨_, s', rfl, h.1⟩

omit hP in
-- A report from a worker other than the one the operation names fails and leaves the operation as
-- it is: a worker that does not run the operation is evicted, and its reports touch only its own
-- operations; one that does is refused by the state manager.
theorem updateAction_of_other_worker {s : ApiWorkerSchedulerImpl} (hs : Owned s.workerStateManager)
    {o : OperationId} {a : AwaitedAction} (ha : s.workerStateManager.db.operationIdToAwaitedAction.lookup o = some a)
    {w w' : WorkerId} (hw : a.workerId = some w) (hne : w' ≠ w) (update : UpdateOperationType) (now : Nat) :
    ∃ e s', (updateAction cfg w' o update now).run s = .error e s' ∧
      s'.workerStateManager.db.operationIdToAwaitedAction.lookup o = some a := by
  unfold updateAction
  rw [run_bind_of_ok (getMut_run s w')]
  cases hpeek : s.workers.peek w'
  case none => exact ⟨_, _, rfl, ha⟩
  case some worker =>
    dsimp only
    split
    case isTrue hnot =>
      refine Exists.imp (fun e => Exists.imp fun s' h => ⟨h.1, h.2.2⟩) (run_catchError_merge_error
        (immediateEvictWorker_ends cfg (P := fun t => Owned t ∧ t.db.operationIdToAwaitedAction.lookup o = some a)
          (s := { s with workers := s.workers.promote w' }) ⟨hs, ha⟩ ?_))
      intro worker' hpeek' o' ho' t ht
      rw [Lru.LruCache.peek_promote, hpeek, Option.some.injEq] at hpeek'
      subst hpeek'
      have hne' : o ≠ o' := fun h => hnot (h ▸ AList.mem_keys.mp ho')
      exact ⟨passClosed_owned _ t o' w' _ now ht.1, (innerUpdateOperationOnce_lookup_ne ht.1.inv hne' now).trans ht.2⟩
    case isFalse =>
      split <;>
        rw [run_bind, run_adaptExcept, updateOperation_run cfg (s := { s with workers := s.workers.promote w' })
          (innerUpdateOperationOnce_of_other_worker ha hw hne now)] <;>
        exact ⟨_, _, rfl, ha⟩

end ApiWorkerSchedulerImpl

namespace ApiWorkerScheduler

open SimpleSchedulerStateManager ApiWorkerSchedulerImpl

variable (cfg : ApiWorkerScheduler) {P : SimpleSchedulerStateManager.State → Prop}
  (hP : PassClosed cfg.workerStateManager P)
include hP

theorem keeps_addWorker (worker : Worker) (now : Nat) : Keeps P (addWorker cfg worker now) := by
  unfold addWorker
  refine (catchError_preserves ((ApiWorkerSchedulerImpl.keeps_addWorker worker).adaptExcept fun _ h => h)).bind
    fun result => ?_
  cases result
  case ok => exact Preserves.pure _
  case error err =>
    exact (catchError_preserves (keeps_immediateEvictWorker cfg hP worker.id err now)).bind fun _ =>
      liftError_preserves _

theorem keeps_removeTimedoutWorkers (nowTimestamp : WorkerTimestamp) (now : Nat) :
    Keeps P (removeTimedoutWorkers cfg nowTimestamp now) := by
  refine Preserves.getThe_bind fun s hs => ?_
  refine Preserves.bind (Preserves.foldlM _ _ fun _ workerId _ => ?_) (fun result => liftError_preserves result) _ hs
  exact (catchError_preserves (keeps_immediateEvictWorker cfg hP workerId _ now)).bind fun _ => Preserves.pure _

theorem keeps_operationKeepAlive (now : Nat) : Keeps P (operationKeepAlive cfg now) := by
  refine Preserves.getThe_bind fun s hs => ?_
  split
  case h_1 => exact hs
  case h_2 operationId workerId rest _ =>
    have hset : Ends (fun t : ApiWorkerSchedulerImpl => P t.workerStateManager) (fun _ => False)
        ((set { s with operationKeepAliveTx := rest } : ApiWorkerSchedulerImpl.M PUnit).run s) := hs
    refine hset.bind_preserves fun _ => ?_
    exact (catchError_preserves (keeps_updateOperation cfg fun t ht => hP t _ _ _ _ ht)).bind fun _ =>
      Preserves.pure _

end ApiWorkerScheduler

/-! ## Runs of the scheduler -/

namespace SimpleScheduler

open SimpleSchedulerStateManager ApiWorkerSchedulerImpl

variable (cfg : ApiWorkerScheduler) {P : SimpleSchedulerStateManager.State → Prop}

theorem keeps_matchActionToWorker (hP : PassClosed cfg.workerStateManager P) (operationId : OperationId)
    (platformProperties : PlatformProperties) (now : Nat) :
    Keeps P (matchActionToWorker cfg operationId platformProperties now) := by
  refine Preserves.getThe_bind fun s hs => ?_
  split
  case h_1 => exact hs
  case h_2 awaitedAction _ =>
    dsimp only
    split
    case h_1 => exact hs
    case h_2 workerId _ =>
      dsimp only [SimpleSchedulerStateManager.assignOperation]
      rcases h : cfg.workerStateManager.innerUpdateOperationOnce s.workerStateManager
        awaitedAction.state.clientOperationId (some workerId) (.updateWithActionStage .executing) now
        with ⟨assignResult, t⟩
      have ht : P t := by
        have := hP s.workerStateManager awaitedAction.state.clientOperationId workerId
          (.updateWithActionStage .executing) now hs
        rwa [h] at this
      have hset : Ends (fun t : ApiWorkerSchedulerImpl => P t.workerStateManager) (fun _ => False)
          ((set { s with workerStateManager := t } : ApiWorkerSchedulerImpl.M PUnit).run s) := ht
      refine hset.bind_preserves fun _ => ?_
      split
      case h_1 =>
        split
        case isTrue => exact Preserves.pure _
        case isFalse => exact Preserves.throw not_false
      case h_2 => exact Preserves.throw not_false
      case h_3 =>
        exact (keeps_workerNotifyRunAction cfg hP workerId _ _ now).adaptExcept fun _ h => h

theorem keeps_exec (hstep : ∀ t call, P t → P (SimpleSchedulerStateManager.step cfg.workerStateManager t call))
    (hP : PassClosed cfg.workerStateManager P) (s : State) (hs : P s.workerScheduler.workerStateManager) :
    ∀ call, P (step cfg s call).workerScheduler.workerStateManager := by
  have hexec : ∀ x : ApiWorkerSchedulerImpl.M Unit, Keeps P x → P (s.exec x).workerScheduler.workerStateManager :=
    fun x hx => (hx s.workerScheduler hs).state
  intro call
  cases call
  case manager call => exact hstep _ call hs
  case connectWorker platformProperties timestamp => exact hexec _ (ApiWorkerScheduler.keeps_addWorker cfg hP _ 0)
  case workerKeepAliveReceived workerId timestamp =>
    exact hexec _ ((keeps_refreshLifetime workerId timestamp).adaptExcept fun _ h => h)
  case removeWorker workerId now => exact hexec _ (keeps_immediateEvictWorker cfg hP workerId _ now)
  case updateAction workerId operationId update now => exact hexec _ (keeps_updateAction cfg hP workerId operationId update now)
  case removeTimedoutWorkers nowTimestamp now =>
    exact hexec _ (ApiWorkerScheduler.keeps_removeTimedoutWorkers cfg hP nowTimestamp now)
  case setDrainWorker workerId isDraining => exact hexec _ (keeps_setDrainWorker workerId isDraining)
  case operationKeepAlive now => exact hexec _ (ApiWorkerScheduler.keeps_operationKeepAlive cfg hP now)
  case closeConnection workerId => exact hexec _ (Preserves.modify fun _ h => h)
  case matchActionToWorker operationId platformProperties now =>
    exact hexec _ (keeps_matchActionToWorker cfg hP operationId platformProperties now)

theorem run_owned (calls : List Call) : Owned (run cfg calls).workerScheduler.workerStateManager :=
  fold_inv (I := fun s => Owned s.workerScheduler.workerStateManager) (step cfg)
    (fun s call hs => keeps_exec cfg (fun _ call ht => (step_owned ht call).1) (passClosed_owned _) s hs call)
    calls init SimpleSchedulerStateManager.init_owned

/-! ## Ownership over every run -/

-- In every state a run reaches, the state manager's record names one owner per operation: an
-- executing operation names a worker, no call of the state manager moves an operation from one
-- worker to another, and neither a pass nor a report of another worker changes it.
theorem worker_id_names_single_owner (cfg : ApiWorkerScheduler) (calls : List Call) :
    let S := (run cfg calls).workerScheduler.workerStateManager
    ExecutingOwned S.db ∧
      (∀ call, NoSteal S.db (SimpleSchedulerStateManager.step cfg.workerStateManager S call).db) ∧
      ∀ o a w w', S.db.operationIdToAwaitedAction.lookup o = some a → a.workerId = some w → w' ≠ w →
        (∀ read r update now, S.reads[read]? = some r → r.operationId = o →
          (SimpleSchedulerStateManager.step cfg.workerStateManager S (.updateOperation read w' update now)).db = S.db) ∧
        ∀ update now, ∃ e s', (updateAction cfg w' o update now).run (run cfg calls).workerScheduler = .error e s' ∧
          s'.workerStateManager.db.operationIdToAwaitedAction.lookup o = some a := by
  intro S
  have hs : Owned S := run_owned cfg calls
  refine ⟨hs.executing, fun call => (step_owned hs call).2, fun o a w w' ha hw hne => ⟨?_, ?_⟩⟩
  case refine_1 =>
    -- a pass on any value read of the operation, current or not
    intro read r update now hr hop
    have hr' : ReadCurrent S.db r := hs.inv.reads r (List.mem_of_getElem? hr)
    obtain ⟨e, he⟩ : ∃ e, innerUpdateOperation cfg.workerStateManager S (some w') update now r = (.error e, S) :=
      innerUpdateOperation_of_other_worker hr' (by rw [hop]; exact ha) hw hne now
    dsimp only [SimpleSchedulerStateManager.step]
    rw [hr]
    dsimp only
    rw [he]
  case refine_2 => exact fun update now => updateAction_of_other_worker cfg hs ha hw hne update now

-- A timeout queues the operation again while its worker still runs it, and the matching engine
-- gives it to a second worker. Both workers then hold it, the state manager names the second, and
-- the first worker's report that it completed the operation is refused.
theorem completion_refused_after_requeue :
    ∃ S, run ⟨.leastRecentlyUsed, 100, ⟨3, 60, 1000⟩⟩
        [.manager (.addAction 100 ⟨0, 0, .cachable ⟨"main", .sha256, ⟨1, 1⟩⟩⟩ 0),
          .connectWorker ⟨∅⟩ 0, .connectWorker ⟨∅⟩ 0,
          .matchActionToWorker 0 ⟨∅⟩ 1,
          .manager (.borrow 0 none), .manager (.borrow 0 none), .manager (.timeoutOperationId 0 1 2 0),
          .matchActionToWorker 0 ⟨∅⟩ 3] = S ∧
      (S.workerScheduler.workers.peek 0).map (fun worker => decide (0 ∈ worker.runningActionInfos)) = some true ∧
      (S.workerScheduler.workers.peek 1).map (fun worker => decide (0 ∈ worker.runningActionInfos)) = some true ∧
      (S.workerScheduler.workerStateManager.db.operationIdToAwaitedAction.lookup 0).map
        (fun a => (a.workerId, a.state.stage)) = some (some 1, .executing) ∧
      ∃ e s', (updateAction ⟨.leastRecentlyUsed, 100, ⟨3, 60, 1000⟩⟩ 0 0
          (.updateWithActionStage (.completed ⟨"0", none⟩)) 4).run S.workerScheduler = .error e s' ∧
        e = .error ⟨.aborted, ["Worker ids do not match", "in update_operation on SimpleScheduler::update_action"]⟩ ∧
        (s'.workerStateManager.db.operationIdToAwaitedAction.lookup 0).map
          (fun a => (a.workerId, a.state.stage)) = some (some 1, .executing) := by
  refine ⟨_, rfl, ?_, ?_, ?_, _, _, rfl, rfl, ?_⟩ <;> decide +kernel

-- The same re-queue with one worker: the matching engine gives the operation back to the worker
-- that still runs it, and `run_action` takes the action's resources a second time while
-- `running_action_infos` keeps one entry. Completing the operation gives them back once, so the
-- worker, with nothing running, is left with less than it registered.
theorem requeued_operation_reduces_worker_twice :
    ∃ S S', run ⟨.leastRecentlyUsed, 100, ⟨3, 60, 1000⟩⟩
        [.manager (.addAction 100 ⟨0, 0, .cachable ⟨"main", .sha256, ⟨1, 1⟩⟩⟩ 0),
          .connectWorker ⟨(∅ : AList fun _ : String => PlatformPropertyValue).insert "cpu" (.minimum 2)⟩ 0,
          .matchActionToWorker 0 ⟨(∅ : AList fun _ : String => PlatformPropertyValue).insert "cpu" (.minimum 1)⟩ 1,
          .manager (.borrow 0 none), .manager (.borrow 0 none), .manager (.timeoutOperationId 0 1 2 0),
          .matchActionToWorker 0 ⟨(∅ : AList fun _ : String => PlatformPropertyValue).insert "cpu" (.minimum 1)⟩ 3] = S ∧
      (S.workerScheduler.workers.peek 0).map
        (fun worker => (worker.platformProperties.properties.lookup "cpu", worker.runningActionInfos.keys)) =
          some (some (.minimum 0), [0]) ∧
      step ⟨.leastRecentlyUsed, 100, ⟨3, 60, 1000⟩⟩ S (.updateAction 0 0 (.updateWithActionStage (.completed ⟨"0", none⟩)) 4) = S' ∧
      (S'.workerScheduler.workers.peek 0).map
        (fun worker => (worker.platformProperties.properties.lookup "cpu", worker.runningActionInfos.keys)) =
          some (some (.minimum 1), []) := by
  refine ⟨_, _, rfl, ?_, rfl, ?_⟩ <;> decide +kernel

end SimpleScheduler

end NativeLink.Scheduler
