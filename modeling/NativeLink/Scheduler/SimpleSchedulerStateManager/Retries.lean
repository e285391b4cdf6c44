import NativeLink.Scheduler.SimpleSchedulerStateManager.Finality

-- Retries and timeouts of `inner_update_operation`. The record keeps the attempts of its
-- operation; an error from a worker, from the eviction of a worker or from `timeout_operation_id`
-- counts one unless it is backpressure, and puts the operation back in the queue until the attempts
-- pass `max_job_retries`. A value the database takes was computed from the stored record (the
-- version check refuses the others), so the records one operation goes through are those each
-- taken pass computes from the one before. Beside a run, with stale reads and refused writes
-- interleaved in any order, we keep the history of the passes the database took: the stored
-- attempts count the errors in it, and it queues the operation again at most `max_job_retries` times.

namespace NativeLink

namespace AwaitedAction

variable (a : AwaitedAction) (w : Option WorkerId) (now : Nat)

@[simp] theorem incrementVersion_attempts : a.incrementVersion.attempts = a.attempts :=
  rfl

@[simp] theorem incrementVersion_workerId : a.incrementVersion.workerId = a.workerId :=
  rfl

@[simp] theorem workerKeepAlive_attempts : (a.workerKeepAlive now).attempts = a.attempts :=
  rfl

@[simp] theorem setWorkerId_attempts : (a.setWorkerId w now).attempts = a.attempts := by
  unfold setWorkerId
  split <;> rfl

@[simp] theorem setWorkerId_workerId : (a.setWorkerId w now).workerId = w := by
  unfold setWorkerId
  split
  case isTrue => rfl
  case isFalse h => exact not_not.mp h

@[simp] theorem workerSetState_attempts (state : ActionState) : (a.workerSetState state now).attempts = a.attempts :=
  rfl

@[simp] theorem workerSetState_workerId (state : ActionState) : (a.workerSetState state now).workerId = a.workerId :=
  rfl

@[simp] theorem workerSetState_state (state : ActionState) : (a.workerSetState state now).state = state :=
  rfl

end AwaitedAction

namespace Scheduler

namespace SimpleSchedulerStateManager

/-! ## The attempts of one pass -/

-- The updates that count as an attempt: the errors that are not backpressure.
def countsAttempt : UpdateOperationType → Bool
  | .updateWithError err => err.code != .resourceExhausted
  | _ => false

section Pass

variable {m : SimpleSchedulerStateManager} {operationId : OperationId} {maybeWorkerId : Option WorkerId}
  {now : Nat} {a v : AwaitedAction}

@[simp] theorem setStage_attempts (stage : ActionStage) :
    (setStage operationId maybeWorkerId now a stage).attempts = a.attempts := by
  unfold setStage
  split <;> simp

@[simp] theorem setStage_stage (stage : ActionStage) :
    (setStage operationId maybeWorkerId now a stage).state.stage = stage := by
  unfold setStage
  split <;> simp

theorem setStage_queued_workerId : (setStage operationId maybeWorkerId now a .queued).workerId = none := by
  simp [setStage]

theorem updateOperationValue_attempts {update : UpdateOperationType}
    (h : m.updateOperationValue operationId maybeWorkerId update now a = .ok v) :
    v.attempts = a.attempts + if countsAttempt update then 1 else 0 := by
  obtain ⟨hcheck, hfin⟩ := updateOperationValue_checks h
  unfold updateOperationValue at h
  rw [if_neg hcheck, if_neg hfin] at h
  cases update
  case keepAlive =>
    cases h
    simp [countsAttempt]
  case updateWithActionStage stage =>
    cases h
    simp [countsAttempt]
  case updateWithError err =>
    cases h
    by_cases hre : err.code = .resourceExhausted
    case pos => simp [countsAttempt, hre]
    case neg => simp [countsAttempt, hre]

theorem updateOperationValue_error {err : Error}
    (h : m.updateOperationValue operationId maybeWorkerId (.updateWithError err) now a = .ok v) :
    (v.attempts ≤ m.maxJobRetries → v.state.stage = .queued ∧ v.workerId = none) ∧
      (m.maxJobRetries < v.attempts → ∃ result, v.state.stage = .completed result ∧ result.error.isSome) := by
  obtain ⟨hcheck, hfin⟩ := updateOperationValue_checks h
  unfold updateOperationValue at h
  rw [if_neg hcheck, if_neg hfin] at h
  cases h
  generalize hb : (if err.code = .resourceExhausted then a else { a with attempts := a.attempts + 1 }) = b
  refine ⟨fun hle => ?_, fun hlt => ?_⟩
  case refine_1 =>
    have hq : ¬b.attempts > m.maxJobRetries := by simpa using hle
    simp only [hq, if_false]
    exact ⟨setStage_stage _, setStage_queued_workerId⟩
  case refine_2 =>
    have hc : b.attempts > m.maxJobRetries := by simpa using hlt
    simp only [hc, if_true, setStage_stage]
    exact ⟨_, rfl, rfl⟩

end Pass

/-! ## The passes a run makes -/

-- A pass of the loop of `inner_update_operation`: the worker and update it was called with, its
-- time, and the value it read.
structure Pass where
  maybeWorkerId : Option WorkerId
  update : UpdateOperationType
  now : Nat
  read : AwaitedAction

-- The pass a call of a run makes, if it makes one: a worker's `update_operation`, the matching
-- engine's `assign_operation`, and the `assign_operation` of `timeout_operation_id`.
def passOf (m : SimpleSchedulerStateManager) (s : State) : Call → Option Pass
  | .updateOperation read workerId update now => s.reads[read]?.map fun r => ⟨some workerId, update, now, r⟩
  | .assignOperation read workerIdOrReasonForUnassign now =>
    s.reads[read]?.map fun r =>
      ⟨(assignOperation workerIdOrReasonForUnassign).1, (assignOperation workerIdOrReasonForUnassign).2, now, r⟩
  | .timeoutOperationId checked read now elapsed =>
    match s.reads[checked]?, s.reads[read]? with
    | some checkedAction, some r =>
      if m.timeoutOperationId checkedAction elapsed && r.operationId == checkedAction.operationId then
        some ⟨(assignOperation (.error timeoutError)).1, (assignOperation (.error timeoutError)).2, now, r⟩
      else none
    | _, _ => none
  | _ => none

-- The record the database stores for a pass, when it takes the value the pass submits.
def takenRecord (m : SimpleSchedulerStateManager) (db : AwaitedActionDbImpl) (pass : Pass) : Option AwaitedAction :=
  match m.updateOperationValue pass.read.operationId pass.maybeWorkerId pass.update pass.now pass.read with
  | .ok v =>
    match (AwaitedActionDbImpl.updateAwaitedAction v).run db with
    | .ok () _ => some v.incrementVersion
    | .error _ _ => none
  | .error _ => none

-- For each operation, the updates whose passes the database took, with the record each stored.
abbrev History := OperationId → List (UpdateOperationType × AwaitedAction)

def recordPass (m : SimpleSchedulerStateManager) (s : State) (call : Call) (log : History) : History :=
  match passOf m s call with
  | some pass =>
    match takenRecord m s.db pass with
    | some stored => Function.update log stored.operationId (log stored.operationId ++ [(pass.update, stored)])
    | none => log
  | none => log

-- A run with the history of the passes it made beside it.
def history (m : SimpleSchedulerStateManager) (calls : List Call) : State × History :=
  calls.foldl (fun sl call => (step m sl.1 call, recordPass m sl.1 call sl.2)) (init, fun _ => [])

theorem history_fst (m : SimpleSchedulerStateManager) (calls : List Call) : (history m calls).1 = run m calls := by
  suffices h : ∀ (s : State) (log : History),
      (calls.foldl (fun sl call => (step m sl.1 call, recordPass m sl.1 call sl.2)) (s, log)).1 = calls.foldl (step m) s from
    h init _
  induction calls with
  | nil => exact fun _ _ => rfl
  | cons call calls ih => exact fun s log => ih (step m s call) (recordPass m s call log)

section Passes

open AwaitedActionDbImpl

variable {m : SimpleSchedulerStateManager} {s : State} {call : Call} {pass : Pass}

theorem passOf_timeout {checked read now elapsed : Nat}
    (h : passOf m s (.timeoutOperationId checked read now elapsed) = some pass) :
    ∃ checkedAction r, s.reads[checked]? = some checkedAction ∧ s.reads[read]? = some r ∧
      (m.timeoutOperationId checkedAction elapsed && r.operationId == checkedAction.operationId) = true ∧
      pass = ⟨(assignOperation (.error timeoutError)).1, (assignOperation (.error timeoutError)).2, now, r⟩ := by
  cases hc : s.reads[checked]?
  case none => simp [passOf, hc] at h
  case some checkedAction =>
    cases hr : s.reads[read]?
    case none => simp [passOf, hc, hr] at h
    case some r =>
      simp only [passOf, hc, hr] at h
      by_cases ht : (m.timeoutOperationId checkedAction elapsed && r.operationId == checkedAction.operationId) = true
      case pos =>
        rw [if_pos ht, Option.some.injEq] at h
        exact ⟨checkedAction, r, rfl, rfl, ht, h.symm⟩
      case neg =>
        rw [if_neg ht] at h
        cases h

theorem passOf_some (h : passOf m s call = some pass) :
    (∃ i : Nat, s.reads[i]? = some pass.read) ∧
      step m s call = (innerUpdateOperation m s pass.maybeWorkerId pass.update pass.now pass.read).2 := by
  cases call
  case updateOperation read workerId update now =>
    cases hr : s.reads[read]?
    case none => simp [passOf, hr] at h
    case some r =>
      simp only [passOf, hr, Option.map_some, Option.some.injEq] at h
      subst h
      exact ⟨⟨read, hr⟩, by simp [step, hr]⟩
  case assignOperation read workerIdOrReasonForUnassign now =>
    cases hr : s.reads[read]?
    case none => simp [passOf, hr] at h
    case some r =>
      simp only [passOf, hr, Option.map_some, Option.some.injEq] at h
      subst h
      exact ⟨⟨read, hr⟩, by cases workerIdOrReasonForUnassign <;> simp [step, hr, assignOperation]⟩
  case timeoutOperationId checked read now elapsed =>
    obtain ⟨checkedAction, r, hc, hr, ht, rfl⟩ := passOf_timeout h
    exact ⟨⟨read, hr⟩, by simp [step, hc, hr, ht, assignOperation]⟩
  all_goals simp [passOf] at h

theorem ReadCurrent.attempts_of_taken {r v old : AwaitedAction} (hr : ReadCurrent s.db r) (hw : AwaitedAction.SameRecord r v)
    (hold : s.db.operationIdToAwaitedAction.lookup v.operationId = some old) (hver : old.version = v.version) :
    r.attempts = old.attempts :=
  have hrop : r.operationId = v.operationId := hw.operationId.symm
  ((hr.2 old (hrop ▸ hold)).2 (hw.version.symm.trans hver.symm)).2.2.2.2

theorem submit_cases (hs : Inv s) (v : AwaitedAction) :
    ((∃ e, (updateAwaitedAction v).run s.db = .error e s.db) ∧ submit s v = s) ∨
      (∃ old, s.db.operationIdToAwaitedAction.lookup v.operationId = some old ∧ old.version = v.version) ∧
        (updateAwaitedAction v).run s.db = .ok () (submit s v).db ∧
        (submit s v).db.operationIdToAwaitedAction = s.db.operationIdToAwaitedAction.insert v.operationId v.incrementVersion ∧
        (submit s v).db.nextOperationId = s.db.nextOperationId := by
  rcases updateAwaitedAction_ok_or_error hs.wf v with ⟨⟨old, h, hv, -⟩, s', hrun, hm, hn⟩ | ⟨-, e, herr⟩
  case inl =>
    have hsub : (submit s v).db = s' := by
      unfold submit
      rw [hrun]
      rfl
    exact Or.inr ⟨⟨old, h, hv⟩, by rw [hsub, hrun], by rw [hsub, hm], by rw [hsub, hn]⟩
  case inr =>
    refine Or.inl ⟨⟨e, herr⟩, ?_⟩
    unfold submit
    rw [herr]
    rfl

end Passes

/-! ## The attempts of a run -/

section Log

variable {L : List (UpdateOperationType × AwaitedAction)} {e : UpdateOperationType × AwaitedAction}

theorem counted_append
    (hL : ∀ k (hk : k < L.length), L[k].2.attempts = (L.take (k + 1)).countP fun p => countsAttempt p.1)
    (he : e.2.attempts = (L.countP fun p => countsAttempt p.1) + if countsAttempt e.1 then 1 else 0) :
    ∀ k (hk : k < (L ++ [e]).length),
      (L ++ [e])[k].2.attempts = ((L ++ [e]).take (k + 1)).countP fun p => countsAttempt p.1 := by
  intro k hk
  rw [List.length_append, List.length_singleton] at hk
  by_cases hlt : k < L.length
  case pos =>
    rw [List.getElem_append_left hlt, List.take_append_of_le_length (by omega), hL k hlt]
  case neg =>
    have hk' : k = L.length := by omega
    subst hk'
    rw [List.getElem_append_right (Nat.le_refl _), List.take_of_length_le (by simp), List.countP_append,
      List.countP_singleton]
    simpa using he

theorem requeued_append {maxJobRetries : Nat}
    (hL : (L.countP fun p => countsAttempt p.1 && p.2.state.stage == .queued) ≤ maxJobRetries)
    (he : e.2.attempts = (L.countP fun p => countsAttempt p.1) + if countsAttempt e.1 then 1 else 0)
    (hq : countsAttempt e.1 = true → e.2.state.stage = .queued → e.2.attempts ≤ maxJobRetries) :
    ((L ++ [e]).countP fun p => countsAttempt p.1 && p.2.state.stage == .queued) ≤ maxJobRetries := by
  rw [List.countP_append, List.countP_singleton]
  by_cases hc : (countsAttempt e.1 && e.2.state.stage == .queued) = true
  case neg => simpa [hc] using hL
  case pos =>
    obtain ⟨hcount, hstage⟩ := Bool.and_eq_true_iff.mp hc
    have hmono : (L.countP fun p => countsAttempt p.1 && p.2.state.stage == .queued) ≤
        L.countP fun p => countsAttempt p.1 :=
      List.countP_mono_left fun p _ hp => (Bool.and_eq_true_iff.mp hp).1
    have hle := hq hcount (beq_iff_eq.mp hstage)
    rw [he, if_pos hcount] at hle
    simp only [hc, if_true]
    omega

end Log

-- What the history says of the stored records: each operation's attempts are the errors among its
-- taken updates that are not backpressure; each record stored has the attempts counted up to it, and
-- an error's record is queued with no worker or completed with an error by those attempts; and the
-- errors that queued the operation again are at most `max_job_retries`.
structure AttemptsInv (m : SimpleSchedulerStateManager) (s : State) (log : History) : Prop where
  inv : Inv s
  fresh : ∀ o, s.db.nextOperationId ≤ o → log o = []
  stored : ∀ o cur, s.db.operationIdToAwaitedAction.lookup o = some cur →
    cur.attempts = (log o).countP fun p => countsAttempt p.1
  counted : ∀ o k (hk : k < (log o).length),
    (log o)[k].2.attempts = ((log o).take (k + 1)).countP fun p => countsAttempt p.1
  errors : ∀ o, ∀ p ∈ log o, ∀ err, p.1 = .updateWithError err →
    (p.2.attempts ≤ m.maxJobRetries → p.2.state.stage = .queued ∧ p.2.workerId = none) ∧
      (m.maxJobRetries < p.2.attempts → ∃ result, p.2.state.stage = .completed result ∧ result.error.isSome)
  requeued : ∀ o, ((log o).countP fun p => countsAttempt p.1 && p.2.state.stage == .queued) ≤ m.maxJobRetries

section Attempts

open AwaitedActionDbImpl AwaitedAction

variable {m : SimpleSchedulerStateManager} {s s' : State} {log : History} {r v : AwaitedAction}

theorem init_attemptsInv : AttemptsInv m init fun _ => [] where
  inv := init_inv
  fresh _ _ := rfl
  stored _ _ h := by simp [init, AwaitedActionDbImpl.new] at h
  counted _ _ hk := absurd hk (Nat.not_lt_zero _)
  errors _ _ hp := absurd hp List.not_mem_nil
  requeued _ := Nat.zero_le _

theorem AttemptsInv.of_kept (hl : AttemptsInv m s log) (hs' : Inv s') (hk : Kept s.db s'.db) :
    AttemptsInv m s' log where
  inv := hs'
  fresh o ho := hl.fresh o (Nat.le_trans hk.next ho)
  stored o cur' h := by
    rcases hk.lookup o cur' h with ⟨cur, hcur, -, -, -, hattempts⟩ | ⟨hnew, -, hzero⟩
    case inl => rw [hattempts, hl.stored o cur hcur]
    case inr => rw [hzero, hl.fresh o hnew, List.countP_nil]
  counted := hl.counted
  errors := hl.errors
  requeued := hl.requeued

theorem AttemptsInv.submit_keeps (hl : AttemptsInv m s log) (hs' : Inv (submit s v)) (hr : ReadCurrent s.db r)
    (hw : SameRecord r v) (ha : v.attempts = r.attempts) : AttemptsInv m (submit s v) log := by
  rcases submit_cases hl.inv v with ⟨-, hsub⟩ | ⟨⟨old, hold, hver⟩, -, hm, hn⟩
  case inl => rwa [hsub]
  case inr =>
    refine ⟨hs', fun o ho => hl.fresh o (hn ▸ ho), fun o cur' h => ?_, hl.counted, hl.errors, hl.requeued⟩
    rw [hm] at h
    by_cases ho : o = v.operationId
    case pos =>
      subst ho
      rw [AList.lookup_insert, Option.some.injEq] at h
      subst h
      rw [AwaitedAction.incrementVersion_attempts, ha, hr.attempts_of_taken hw hold hver, hl.stored _ old hold]
    case neg =>
      rw [AList.lookup_insert_ne ho] at h
      exact hl.stored o cur' h

theorem countsAttempt_eq_true {u : UpdateOperationType} (h : countsAttempt u = true) :
    ∃ err, u = .updateWithError err := by
  cases u
  case updateWithError err => exact ⟨err, rfl⟩
  all_goals simp [countsAttempt] at h

theorem AttemptsInv.append (hl : AttemptsInv m s log) (hs' : Inv s') {e : UpdateOperationType × AwaitedAction}
    (ho : e.2.operationId < s.db.nextOperationId)
    (hm : s'.db.operationIdToAwaitedAction = s.db.operationIdToAwaitedAction.insert e.2.operationId e.2)
    (hn : s'.db.nextOperationId = s.db.nextOperationId)
    (hatt : e.2.attempts = ((log e.2.operationId).countP fun p => countsAttempt p.1) + if countsAttempt e.1 then 1 else 0)
    (herr : ∀ err, e.1 = .updateWithError err →
      (e.2.attempts ≤ m.maxJobRetries → e.2.state.stage = .queued ∧ e.2.workerId = none) ∧
        (m.maxJobRetries < e.2.attempts → ∃ result, e.2.state.stage = .completed result ∧ result.error.isSome)) :
    AttemptsInv m s' (Function.update log e.2.operationId (log e.2.operationId ++ [e])) := by
  have hqueued : countsAttempt e.1 = true → e.2.state.stage = .queued → e.2.attempts ≤ m.maxJobRetries := by
    intro hcount hstage
    obtain ⟨err, herr'⟩ := countsAttempt_eq_true hcount
    refine Nat.le_of_not_lt fun hlt => ?_
    obtain ⟨result, hres, -⟩ := (herr err herr').2 hlt
    rw [hstage] at hres
    cases hres
  refine ⟨hs', fun o hno => ?_, fun o cur h => ?_, fun o => ?_, fun o => ?_, fun o => ?_⟩
  case refine_1 =>
    rw [hn] at hno
    rw [Function.update_of_ne (Nat.lt_of_lt_of_le ho hno).ne']
    exact hl.fresh o hno
  case refine_2 =>
    rw [hm] at h
    by_cases hoe : o = e.2.operationId
    case pos =>
      subst hoe
      rw [AList.lookup_insert, Option.some.injEq] at h
      subst h
      rw [Function.update_self, List.countP_append, List.countP_singleton, hatt]
    case neg =>
      rw [AList.lookup_insert_ne hoe] at h
      rw [Function.update_of_ne hoe]
      exact hl.stored o cur h
  case refine_3 =>
    by_cases hoe : o = e.2.operationId
    case pos =>
      subst hoe
      rw [Function.update_self]
      exact counted_append (hl.counted _) hatt
    case neg =>
      rw [Function.update_of_ne hoe]
      exact hl.counted o
  case refine_4 =>
    by_cases hoe : o = e.2.operationId
    case pos =>
      subst hoe
      rw [Function.update_self]
      intro p hp err hperr
      rcases List.mem_append.mp hp with hp | hp
      case inl => exact hl.errors _ p hp err hperr
      case inr =>
        rw [List.mem_singleton] at hp
        subst hp
        exact herr err hperr
    case neg =>
      rw [Function.update_of_ne hoe]
      exact hl.errors o
  case refine_5 =>
    by_cases hoe : o = e.2.operationId
    case pos =>
      subst hoe
      rw [Function.update_self]
      exact requeued_append (hl.requeued _) hatt hqueued
    case neg =>
      rw [Function.update_of_ne hoe]
      exact hl.requeued o

theorem AttemptsInv.pass (hl : AttemptsInv m s log) {pass : Pass} (hr : ReadCurrent s.db pass.read)
    (hs' : Inv (innerUpdateOperation m s pass.maybeWorkerId pass.update pass.now pass.read).2) :
    (takenRecord m s.db pass = none ∧
        AttemptsInv m (innerUpdateOperation m s pass.maybeWorkerId pass.update pass.now pass.read).2 log) ∨
      ∃ stored, takenRecord m s.db pass = some stored ∧
        AttemptsInv m (innerUpdateOperation m s pass.maybeWorkerId pass.update pass.now pass.read).2
          (Function.update log stored.operationId (log stored.operationId ++ [(pass.update, stored)])) := by
  cases hv : m.updateOperationValue pass.read.operationId pass.maybeWorkerId pass.update pass.now pass.read
  case error err =>
    have hstep : (innerUpdateOperation m s pass.maybeWorkerId pass.update pass.now pass.read).2 = s := by
      simp [innerUpdateOperation, hv]
    rw [hstep]
    exact Or.inl ⟨by simp [takenRecord, hv], hl⟩
  case ok v =>
    have hstep : (innerUpdateOperation m s pass.maybeWorkerId pass.update pass.now pass.read).2 = submit s v := by
      simp [innerUpdateOperation, hv]
    rw [hstep] at hs' ⊢
    rcases submit_cases hl.inv v with ⟨⟨e, herr⟩, hsub⟩ | ⟨⟨old, hold, hver⟩, hrun, hm, hn⟩
    case inl => exact Or.inl ⟨by simp [takenRecord, hv, herr], by rw [hsub]; exact hl⟩
    case inr =>
      obtain ⟨hw, -⟩ := updateOperationValue_ok hv
      have hatt : v.incrementVersion.attempts = ((log v.operationId).countP fun p => countsAttempt p.1) +
          if countsAttempt pass.update then 1 else 0 := by
        rw [incrementVersion_attempts, updateOperationValue_attempts hv, hr.attempts_of_taken hw hold hver,
          hl.stored _ old hold]
      have herr : ∀ err, pass.update = .updateWithError err →
          (v.attempts ≤ m.maxJobRetries → v.state.stage = .queued ∧ v.workerId = none) ∧
            (m.maxJobRetries < v.attempts → ∃ result, v.state.stage = .completed result ∧ result.error.isSome) := by
        intro err hu
        rw [hu] at hv
        exact updateOperationValue_error hv
      refine Or.inr ⟨v.incrementVersion, by simp [takenRecord, hv, hrun], ?_⟩
      exact hl.append (e := (pass.update, v.incrementVersion)) hs' (hl.inv.wf.fresh _ (mem_of_lookup hold)) hm hn hatt herr

theorem recordPass_of_none {call : Call} (h : passOf m s call = none) : recordPass m s call log = log := by
  simp [recordPass, h]

theorem recordPass_of_taken {call : Call} {pass : Pass} {stored : AwaitedAction} (h : passOf m s call = some pass)
    (ht : takenRecord m s.db pass = some stored) :
    recordPass m s call log =
      Function.update log stored.operationId (log stored.operationId ++ [(pass.update, stored)]) := by
  simp [recordPass, h, ht]

theorem recordPass_of_refused {call : Call} {pass : Pass} (h : passOf m s call = some pass)
    (ht : takenRecord m s.db pass = none) : recordPass m s call log = log := by
  simp [recordPass, h, ht]

theorem applyFilterPredicate_attempts {now : Nat} {filter : OperationFilter}
    (h : (m.applyFilterPredicate now r filter).2 = some v) : v.attempts = r.attempts := by
  unfold applyFilterPredicate at h
  split at h
  case isTrue =>
    split at h
    case isTrue =>
      cases h
      rfl
    case isFalse => cases h
  case isFalse => cases h

theorem AttemptsInv.step_keeps (hl : AttemptsInv m s log) (call : Call) :
    AttemptsInv m (m.step s call) (recordPass m s call log) := by
  have hs' := (step_ok (m := m) hl.inv call).1
  cases hp : passOf m s call
  case some pass =>
    obtain ⟨⟨i, hi⟩, hstep⟩ := passOf_some hp
    have hr := hl.inv.reads _ (List.mem_of_getElem? hi)
    rw [hstep] at hs' ⊢
    rcases hl.pass hr hs' with ⟨ht, h⟩ | ⟨stored, ht, h⟩
    case inl => rwa [recordPass_of_refused hp ht]
    case inr => rwa [recordPass_of_taken hp ht]
  case none =>
    rw [recordPass_of_none hp]
    cases call
    case addAction c actionInfo now => exact hl.of_kept hs' (step_kept hl.inv.wf (.addAction c actionInfo now) fun _ => nofun)
    case evictClient c => exact hl.of_kept hs' (step_kept hl.inv.wf (.evictClient c) fun _ => nofun)
    case sendKeepAlive c => exact hl.of_kept hs' (step_kept hl.inv.wf (.sendKeepAlive c) fun _ => nofun)
    case handleActionEvent => exact hl.of_kept hs' (step_kept hl.inv.wf .handleActionEvent fun _ => nofun)
    case borrow operationId clientOperationId =>
      have hdb : (m.step s (.borrow operationId clientOperationId)).db = s.db := by
        simp only [step]
        split <;> rfl
      exact hl.of_kept hs' (Kept.of_lookup (by rw [hdb]) fun _ => by rw [hdb])
    case updateOperation read workerId update now =>
      have hread : s.reads[read]? = none := by simpa [passOf] using hp
      have hstep : m.step s (.updateOperation read workerId update now) = s := by simp [step, hread]
      rw [hstep]
      exact hl
    case assignOperation read workerIdOrReasonForUnassign now =>
      have hread : s.reads[read]? = none := by simpa [passOf] using hp
      have hstep : m.step s (.assignOperation read workerIdOrReasonForUnassign now) = s := by simp [step, hread]
      rw [hstep]
      exact hl
    case applyFilterPredicate read filter now =>
      simp only [step] at hs' ⊢
      split
      case h_1 r hr =>
        split
        case h_1 v hv =>
          obtain ⟨hw, -⟩ := applyFilterPredicate_some hv
          simp only [hr, hv] at hs'
          exact hl.submit_keeps hs' (hl.inv.reads _ (List.mem_of_getElem? hr)) hw (applyFilterPredicate_attempts hv)
        case h_2 => exact hl
      case h_2 => exact hl
    case timeoutOperationId checked read now elapsed =>
      have hstep : m.step s (.timeoutOperationId checked read now elapsed) = s := by
        cases hc : s.reads[checked]?
        case none => simp [step, hc]
        case some checkedAction =>
          cases hr : s.reads[read]?
          case none => simp [step, hc, hr]
          case some r =>
            have ht : ¬(m.timeoutOperationId checkedAction elapsed && r.operationId == checkedAction.operationId) = true := by
              intro ht
              simp [passOf, hc, hr, ht] at hp
            simp only [step, hc, hr, if_neg ht]
      rw [hstep]
      exact hl

theorem history_attemptsInv (m : SimpleSchedulerStateManager) (calls : List Call) :
    AttemptsInv m (history m calls).1 (history m calls).2 :=
  EStateM.fold_inv (I := fun sl : State × History => AttemptsInv m sl.1 sl.2)
    (fun sl call => (step m sl.1 call, recordPass m sl.1 call sl.2)) (fun _ call h => h.step_keeps call) calls
    (init, fun _ => []) init_attemptsInv

end Attempts

/-! ## Bounded retries -/

theorem attempts_count_errors_and_bound_requeues (m : SimpleSchedulerStateManager) (calls : List Call)
    (o : OperationId) :
    (∀ cur, (run m calls).db.operationIdToAwaitedAction.lookup o = some cur →
      cur.attempts = ((history m calls).2 o).countP fun p => countsAttempt p.1) ∧
    (∀ k (hk : k < ((history m calls).2 o).length),
      ((history m calls).2 o)[k].2.attempts = (((history m calls).2 o).take (k + 1)).countP fun p => countsAttempt p.1) ∧
    (∀ p ∈ (history m calls).2 o, ∀ err, p.1 = .updateWithError err →
      (p.2.attempts ≤ m.maxJobRetries → p.2.state.stage = .queued ∧ p.2.workerId = none) ∧
      (m.maxJobRetries < p.2.attempts → ∃ result, p.2.state.stage = .completed result ∧ result.error.isSome)) ∧
    (((history m calls).2 o).countP fun p => countsAttempt p.1 && p.2.state.stage == .queued) ≤ m.maxJobRetries := by
  have h := history_attemptsInv m calls
  rw [← history_fst]
  exact ⟨h.stored o, h.counted o, h.errors o, h.requeued o⟩

/-! ## The timeout of an executing operation -/

-- `now_fn().elapsed()` with the production clock `SystemTime::now` is the time since an instant just
-- taken: under a second, `0` in whole seconds. Every elapsed time up to the worker's deadline makes
-- the check pass, so it passes for every executing operation.
theorem timeoutOperationId_of_executing (m : SimpleSchedulerStateManager) (a : AwaitedAction) (elapsed : Nat)
    (hex : a.state.stage = .executing) (he : elapsed ≤ a.lastWorkerUpdatedTimestamp + m.noEventActionTimeout) :
    m.timeoutOperationId a elapsed = true := by
  simp [timeoutOperationId, hex, Nat.not_lt.mpr he]

-- A worker starts the operation at time 100; at the same time, well within the 60 seconds of
-- `no_event_action_timeout`, `timeout_operation_id` puts it back in the queue and counts an attempt.
theorem timeout_requeues_recently_updated_operation :
    ((run ⟨3, 60, 60⟩ [.addAction 100 ⟨0, 0, .cachable ⟨"main", .sha256, ⟨1, 1⟩⟩⟩ 0, .borrow 0 none,
        .assignOperation 0 (.ok 7) 100, .borrow 0 none]).db.getByOperationId 0).map
        (fun a => (a.state.stage, a.workerId, a.lastWorkerUpdatedTimestamp)) = some (.executing, some 7, 100) ∧
    100 < 100 + 60 ∧
    ((run ⟨3, 60, 60⟩ ([.addAction 100 ⟨0, 0, .cachable ⟨"main", .sha256, ⟨1, 1⟩⟩⟩ 0, .borrow 0 none,
        .assignOperation 0 (.ok 7) 100, .borrow 0 none] ++ [.timeoutOperationId 1 1 100 0])).db.getByOperationId 0).map
        (fun a => (a.state.stage, a.workerId, a.attempts)) = some (.queued, none, 1) :=
  ⟨by decide +kernel, by decide, by decide +kernel⟩

end SimpleSchedulerStateManager

end Scheduler

end NativeLink
