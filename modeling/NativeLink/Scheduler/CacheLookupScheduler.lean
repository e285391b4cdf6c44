import NativeLink.Lib.Invariant
import NativeLink.Util.ActionMessages

-- Model of `nativelink-scheduler/src/cache_lookup_scheduler.rs`. A call of `add_action` for a
-- cachable action joins the in-flight entry of its key, or creates it and spawns a task that
-- looks the action up in the AC. The task answers the waiters of the entry it removes: with the
-- cached result, with the lookup's error, or with the upstream scheduler's `add_action` for each,
-- one after the other; when it returns, its scope guard removes the key's entry again. Every call
-- waits on a oneshot whose sender sits in an entry or in a task, and hears that it hung up when the
-- sender is dropped unsent. The system moves by events, each one atomic step of a party taken
-- under the lock, in any order the runtime picks. A call is named by its place in `calls`, which
-- is what its oneshot's sender stands for; uncachable actions go straight upstream and are left out.

namespace NativeLink.CacheLookupScheduler

-- What a call of `add_action` gets through its oneshot: the state of a cache hit, made here, or
-- the upstream scheduler's result for the operation.
inductive StateResult
  | cacheLookup (actionState : ActionState)
  | upstream (clientOperationId : OperationId)
  deriving DecidableEq

def StateResult.clientOperationId : StateResult → OperationId
  | .cacheLookup actionState => actionState.clientOperationId
  | .upstream clientOperationId => clientOperationId

-- A call of `add_action`: the operation it is for, whether it created the in-flight entry, and
-- what it returned, `none` while it waits on its oneshot.
structure Call where
  clientOperationId : OperationId
  creator : Bool
  result : Option (Except Error StateResult)

-- Oneshot senders, by the client operation and the call whose receiver each one answers.
abbrev Txs := List (OperationId × Nat)

-- Where a spawned task is: looking up the AC, calling the upstream `add_action` for the first of
-- `pendingTxs`, returned with its scope guard still to drop, or gone.
inductive Phase
  | lookup
  | forwarding (pendingTxs : Txs)
  | ending
  | done
  deriving DecidableEq

-- A task spawned by `inner_add_action`, which holds the scope guard of the entry it was spawned
-- for.
structure Task where
  uniqueKey : ActionUniqueKey
  actionInfo : ActionInfo
  phase : Phase

-- An entry of `inflight_cache_checks`. `task`, the task its creator spawned, is not in the
-- source: it names whose entry a removal takes.
structure Entry where
  task : Nat
  txs : Txs

structure State where
  inflightCacheChecks : ActionUniqueKey → Option Entry
  tasks : List Task
  calls : List Call

def State.init : State :=
  ⟨fun _ => none, [], []⟩

inductive Event
  -- a client calls `add_action`
  | addAction (clientOperationId : OperationId) (actionInfo : ActionInfo)
  -- the AC lookup of a task returns
  | cacheCheck (task : Nat) (maybeActionResult : Except Error ActionResult)
  -- the upstream `add_action` a task awaits returns
  | upstreamAddAction (task : Nat) (result : Except Error Unit)
  -- a task that returned drops its scope guard
  | finish (task : Nat)

def txHungUp : Error :=
  Error.new .internal "ActionStateResult tx hung up in CacheLookupScheduler::add_action"

-- What a call returns once its oneshot gives `value`; the creator adds its tip to an error.
def Call.receive (call : Call) (value : Except Error StateResult) : Call :=
  { call with
    result := some (if call.creator then value.mapError (·.append "In CacheLookupScheduler::add_action") else value) }

-- A call whose sender was dropped unsent.
def Call.hangUp (call : Call) : Call :=
  { call with result := some (.error txHungUp) }

-- Each sender of `txs` acts on the receiver of its call.
def deliver (txs : Txs) (f : OperationId → Call → Call) (calls : List Call) : List Call :=
  txs.foldl (fun calls tx => calls.modify tx.2 (f tx.1)) calls

namespace State

def setPhase (s : State) (t : Nat) (phase : Phase) : State :=
  { s with tasks := s.tasks.modify t fun task => { task with phase := phase } }

-- `inflight_cache_checks.remove(key)`: the entry, and the map without it.
def removeEntry (s : State) (uniqueKey : ActionUniqueKey) : Option Entry × State :=
  (s.inflightCacheChecks uniqueKey, { s with inflightCacheChecks := Function.update s.inflightCacheChecks uniqueKey none })

-- `inner_add_action` up to the wait on its oneshot: join the key's entry, or create it and spawn
-- the lookup task.
def addAction (s : State) (clientOperationId : OperationId) (actionInfo : ActionInfo) : State :=
  match actionInfo.uniqueQualifier with
  | .uncachable _ => s
  | .cachable uniqueKey =>
    let tx := (clientOperationId, s.calls.length)
    match s.inflightCacheChecks uniqueKey with
    | some entry =>
      -- `subscribe_to_existing_action`
      { s with
        inflightCacheChecks := Function.update s.inflightCacheChecks uniqueKey (some { entry with txs := entry.txs ++ [tx] })
        calls := s.calls ++ [⟨clientOperationId, false, none⟩] }
    | none =>
      { inflightCacheChecks := Function.update s.inflightCacheChecks uniqueKey (some ⟨s.tasks.length, [tx]⟩)
        tasks := s.tasks ++ [⟨uniqueKey, actionInfo, .lookup⟩]
        calls := s.calls ++ [⟨clientOperationId, true, none⟩] }

-- The task after its AC lookup returned `maybeActionResult`: it removes the key's entry and
-- answers its waiters, or hands them to the upstream scheduler when the action is not found.
def cacheCheck (s : State) (t : Nat) (task : Task) (maybeActionResult : Except Error ActionResult) : State :=
  let (maybePendingTxs, s) := s.removeEntry task.uniqueKey
  match maybeActionResult with
  | .ok actionResult =>
    match maybePendingTxs with
    | none => s.setPhase t .ending
    | some pendingTxs =>
      let answer := fun clientOperationId =>
        .ok (.cacheLookup ⟨.completedFromCache actionResult, clientOperationId, task.actionInfo.digest⟩)
      { s.setPhase t .ending with calls := deliver pendingTxs.txs (fun op call => call.receive (answer op)) s.calls }
  | .error err =>
    if err.code ≠ .notFound then
      let err := err.append "In CacheLookupScheduler::add_action"
      match maybePendingTxs with
      | none => s.setPhase t .ending
      | some pendingTxs =>
        { s.setPhase t .ending with calls := deliver pendingTxs.txs (fun _ call => call.receive (.error err)) s.calls }
    else
      match maybePendingTxs with
      | none => s.setPhase t .ending
      | some pendingTxs => s.setPhase t (.forwarding pendingTxs.txs)

-- The upstream `add_action` for the first pending operation returned `result`, which goes to its
-- call; the task goes on with the next.
def upstreamAddAction (s : State) (t : Nat) (pendingTxs : Txs) (result : Except Error Unit) : State :=
  match pendingTxs with
  | [] => s.setPhase t .ending
  | (clientOperationId, i) :: rest =>
    { s.setPhase t (if rest.isEmpty then .ending else .forwarding rest) with
      calls := s.calls.modify i (·.receive (result.map fun _ => .upstream clientOperationId)) }

-- The scope guard of a returned task: `inflight_cache_checks.lock().remove(&unique_key)`, which
-- drops the senders of whatever entry the key has.
def finish (s : State) (t : Nat) (task : Task) : State :=
  let (maybeEntry, s) := s.removeEntry task.uniqueKey
  let s := s.setPhase t .done
  match maybeEntry with
  | none => s
  | some entry => { s with calls := deliver entry.txs (fun _ call => call.hangUp) s.calls }

def step (s : State) : Event → State
  | .addAction clientOperationId actionInfo => s.addAction clientOperationId actionInfo
  | .cacheCheck t maybeActionResult =>
    match s.tasks[t]? with
    | some task@⟨_, _, .lookup⟩ => s.cacheCheck t task maybeActionResult
    | _ => s
  | .upstreamAddAction t result =>
    match s.tasks[t]? with
    | some ⟨_, _, .forwarding pendingTxs⟩ => s.upstreamAddAction t pendingTxs result
    | _ => s
  | .finish t =>
    match s.tasks[t]? with
    | some task@⟨_, _, .ending⟩ => s.finish t task
    | _ => s

end State

def run (events : List Event) : State :=
  events.foldl State.step State.init

/-! ## Senders and answers -/

-- The operation of each call, by its place.
def ops (calls : List Call) : List OperationId :=
  calls.map Call.clientOperationId

-- Every sender of `txs` answers a call for its own operation.
def TxsValid (ops : List OperationId) (txs : Txs) : Prop :=
  ∀ tx ∈ txs, ops[tx.2]? = some tx.1

-- Every call that got a state back got one for its own operation.
def AllAnswered (calls : List Call) : Prop :=
  ∀ (j : Nat) (call : Call) (r : StateResult), calls[j]? = some call → call.result = some (.ok r) →
    r.clientOperationId = call.clientOperationId

-- What a sender does to its call keeps the call's operation, and hands it a state only for the
-- sender's operation.
def Honest (f : OperationId → Call → Call) : Prop :=
  ∀ op call, (f op call).clientOperationId = call.clientOperationId ∧
    ∀ r, (f op call).result = some (.ok r) → r.clientOperationId = op

section Senders

variable {f : OperationId → Call → Call} {calls : List Call} {txs : Txs}

theorem honest_receive {answer : OperationId → Except Error StateResult}
    (h : ∀ op r, answer op = .ok r → r.clientOperationId = op) : Honest fun op call => call.receive (answer op) := by
  intro op call
  refine ⟨rfl, fun r hr => h op r ?_⟩
  cases hc : call.creator
  case false => simpa [Call.receive, hc] using hr
  case true =>
    simp only [Call.receive, hc, if_true, Option.some.injEq] at hr
    exact Except.eq_ok_of_mapError hr

theorem honest_hangUp : Honest fun _ call => call.hangUp :=
  fun _ _ => ⟨rfl, fun _ hr => by cases hr⟩

theorem ops_modify (hf : Honest f) (op : OperationId) (i : Nat) : ops (calls.modify i (f op)) = ops calls := by
  apply List.ext_getElem?
  intro j
  simp only [ops, List.getElem?_map, List.getElem?_modify]
  cases calls[j]?
  case none => rfl
  case some call =>
    by_cases hij : i = j
    case pos => simp [hij, (hf op call).1]
    case neg => simp [hij]

theorem allAnswered_modify (hf : Honest f) {op : OperationId} {i : Nat} (hv : (ops calls)[i]? = some op)
    (ha : AllAnswered calls) : AllAnswered (calls.modify i (f op)) := by
  intro j call r hj hr
  rw [List.getElem?_modify] at hj
  cases hc : calls[j]?
  case none => rw [hc] at hj; cases hj
  case some call₀ =>
    rw [hc] at hj
    by_cases hij : i = j
    case neg =>
      simp only [hij, if_false, Option.map_eq_map, Option.map_some, Option.some.injEq] at hj
      exact hj ▸ ha j call₀ r hc (hj ▸ hr)
    case pos =>
      subst hij
      simp only [if_true, Option.map_eq_map, Option.map_some, Option.some.injEq] at hj
      subst hj
      have hop : call₀.clientOperationId = op := by simpa [ops, hc] using hv
      rw [(hf op call₀).1, hop]
      exact (hf op call₀).2 r hr

theorem ops_deliver (hf : Honest f) : ∀ (txs : Txs) (calls : List Call), ops (deliver txs f calls) = ops calls := by
  intro txs
  induction txs with
  | nil => intro calls; rfl
  | cons tx txs ih =>
    intro calls
    rw [deliver, List.foldl_cons, ← deliver, ih, ops_modify hf]

theorem allAnswered_deliver (hf : Honest f) :
    ∀ (txs : Txs) (calls : List Call), TxsValid (ops calls) txs → AllAnswered calls → AllAnswered (deliver txs f calls) := by
  intro txs
  induction txs with
  | nil => intro calls _ ha; exact ha
  | cons tx txs ih =>
    intro calls hv ha
    rw [deliver, List.foldl_cons, ← deliver]
    refine ih _ ?_ (allAnswered_modify hf (hv tx List.mem_cons_self) ha)
    rw [ops_modify hf]
    exact fun tx' htx' => hv tx' (List.mem_cons_of_mem _ htx')

theorem TxsValid.append {ops : List OperationId} (hv : TxsValid ops txs) (op : OperationId) :
    TxsValid (ops ++ [op]) txs := by
  intro tx htx
  have hlt : tx.2 < ops.length := by
    have h := hv tx htx
    rw [List.getElem?_eq_some_iff] at h
    exact h.1
  rw [List.getElem?_append_left hlt]
  exact hv tx htx

theorem ops_append (call : Call) : ops (calls ++ [call]) = ops calls ++ [call.clientOperationId] := by
  simp [ops]

theorem allAnswered_append (ha : AllAnswered calls) {call : Call} (hc : call.result = none) :
    AllAnswered (calls ++ [call]) := by
  intro j call' r hj hr
  by_cases hlt : j < calls.length
  case pos =>
    rw [List.getElem?_append_left hlt] at hj
    exact ha j call' r hj hr
  case neg =>
    rw [List.getElem?_append_right (Nat.le_of_not_lt hlt), List.getElem?_singleton] at hj
    split at hj
    case isTrue => cases hj; rw [hc] at hr; cases hr
    case isFalse => cases hj

end Senders

/-! ## The invariant -/

namespace State

variable {s : State} {t j : Nat} {task : Task} {phase : Phase} {uniqueKey : ActionUniqueKey}

@[simp] theorem setPhase_calls : (s.setPhase t phase).calls = s.calls :=
  rfl

@[simp] theorem setPhase_inflightCacheChecks : (s.setPhase t phase).inflightCacheChecks = s.inflightCacheChecks :=
  rfl

theorem setPhase_tasks :
    (s.setPhase t phase).tasks[j]? =
      if t = j then s.tasks[j]?.map (fun task => { task with phase := phase }) else s.tasks[j]? := by
  simp only [setPhase, List.getElem?_modify]
  cases s.tasks[j]?
  case none => simp
  case some task => by_cases htj : t = j <;> simp [htj]

@[simp] theorem removeEntry_calls : (s.removeEntry uniqueKey).2.calls = s.calls :=
  rfl

@[simp] theorem removeEntry_tasks : (s.removeEntry uniqueKey).2.tasks = s.tasks :=
  rfl

theorem removeEntry_inflightCacheChecks (k : ActionUniqueKey) :
    (s.removeEntry uniqueKey).2.inflightCacheChecks k = if k = uniqueKey then none else s.inflightCacheChecks k :=
  Function.update_apply _ _ _ _

-- Every entry of the map belongs to a task that was spawned for its key and is still looking it
-- up, and every sender, in an entry or in a task, answers a call for its own operation; every call
-- that got a state back got one for its own operation.
structure Wf (s : State) : Prop where
  entryTask : ∀ k e, s.inflightCacheChecks k = some e →
    ∃ task, s.tasks[e.task]? = some task ∧ task.uniqueKey = k ∧ task.phase = .lookup
  entryTxs : ∀ k e, s.inflightCacheChecks k = some e → TxsValid (ops s.calls) e.txs
  pendingTxs : ∀ (j : Nat) (task : Task) (pendingTxs : Txs), s.tasks[j]? = some task →
    task.phase = .forwarding pendingTxs → TxsValid (ops s.calls) pendingTxs
  answered : AllAnswered s.calls

theorem init_wf : init.Wf where
  entryTask := fun _ _ h => by cases h
  entryTxs := fun _ _ h => by cases h
  pendingTxs := fun _ _ _ h => by cases h
  answered := fun _ _ _ h => by cases h

theorem Wf.entry_task_ne (hs : s.Wf) (ht : s.tasks[t]? = some task) {k : ActionUniqueKey} {e : Entry}
    (he : s.inflightCacheChecks k = some e) (hk : k ≠ task.uniqueKey) : e.task ≠ t := by
  obtain ⟨task', ht', hkey, -⟩ := hs.entryTask k e he
  intro het
  rw [het, ht] at ht'
  cases ht'
  exact hk hkey.symm

theorem Wf.entry_task_ne_of_phase (hs : s.Wf) (ht : s.tasks[t]? = some task) (hphase : task.phase ≠ .lookup)
    {k : ActionUniqueKey} {e : Entry} (he : s.inflightCacheChecks k = some e) : e.task ≠ t := by
  obtain ⟨task', ht', -, hlookup⟩ := hs.entryTask k e he
  intro het
  rw [het, ht] at ht'
  cases ht'
  exact hphase hlookup

theorem Wf.deliver (hs : s.Wf) {f : OperationId → Call → Call} (hf : Honest f) {txs : Txs}
    (htxs : TxsValid (ops s.calls) txs) : { s with calls := deliver txs f s.calls }.Wf where
  entryTask := hs.entryTask
  entryTxs := fun k e he => by rw [ops_deliver hf]; exact hs.entryTxs k e he
  pendingTxs := fun j task pendingTxs ht hp => by rw [ops_deliver hf]; exact hs.pendingTxs j task pendingTxs ht hp
  answered := allAnswered_deliver hf txs s.calls htxs hs.answered

theorem Wf.setPhase (hs : s.Wf) (ht : s.tasks[t]? = some task) (hnot : ∀ k e, s.inflightCacheChecks k = some e → e.task ≠ t)
    (phase : Phase) (hphase : ∀ pendingTxs, phase = .forwarding pendingTxs → TxsValid (ops s.calls) pendingTxs) :
    (s.setPhase t phase).Wf where
  entryTask := fun k e he => by
    rw [setPhase_tasks, if_neg (Ne.symm (hnot k e he))]
    exact hs.entryTask k e he
  entryTxs := hs.entryTxs
  pendingTxs := fun j task' pendingTxs ht' hp => by
    rw [setPhase_tasks] at ht'
    by_cases htj : t = j
    case pos =>
      subst htj
      rw [if_pos rfl, ht] at ht'
      cases ht'
      exact hphase pendingTxs hp
    case neg =>
      rw [if_neg htj] at ht'
      exact hs.pendingTxs j task' pendingTxs ht' hp
  answered := hs.answered

theorem Wf.removeSetPhase (hs : s.Wf) (ht : s.tasks[t]? = some task) (phase : Phase)
    (hphase : ∀ pendingTxs, phase = .forwarding pendingTxs → TxsValid (ops s.calls) pendingTxs) :
    ((s.removeEntry task.uniqueKey).2.setPhase t phase).Wf := by
  have hold : ∀ k e, (s.removeEntry task.uniqueKey).2.inflightCacheChecks k = some e →
      k ≠ task.uniqueKey ∧ s.inflightCacheChecks k = some e := by
    intro k e he
    rw [removeEntry_inflightCacheChecks] at he
    split at he
    case isTrue => cases he
    case isFalse hk => exact ⟨hk, he⟩
  have hremoved : (s.removeEntry task.uniqueKey).2.Wf :=
    ⟨fun k e he => hs.entryTask k e (hold k e he).2, fun k e he => hs.entryTxs k e (hold k e he).2,
      hs.pendingTxs, hs.answered⟩
  exact hremoved.setPhase ht (fun k e he => hs.entry_task_ne ht (hold k e he).2 (hold k e he).1) phase hphase

theorem removeEntry_eq (uniqueKey : ActionUniqueKey) :
    s.removeEntry uniqueKey = (s.inflightCacheChecks uniqueKey, (s.removeEntry uniqueKey).2) :=
  rfl

theorem Wf.addAction (hs : s.Wf) (clientOperationId : OperationId) (actionInfo : ActionInfo) :
    (s.addAction clientOperationId actionInfo).Wf := by
  unfold State.addAction
  cases actionInfo.uniqueQualifier with
  | uncachable _ => exact hs
  | cachable uniqueKey =>
    dsimp only
    have hnew : (ops s.calls ++ [clientOperationId])[s.calls.length]? = some clientOperationId := by
      rw [List.getElem?_append_right (by simp [ops])]
      simp [ops]
    cases he : s.inflightCacheChecks uniqueKey with
    | some entry =>
      dsimp only
      refine ⟨fun k e hk => ?_, fun k e hk => ?_, fun j task pendingTxs ht hp => ?_,
        allAnswered_append hs.answered rfl⟩
      case refine_1 =>
        dsimp only at hk ⊢
        rw [Function.update_apply] at hk
        split at hk
        case isTrue hkey => cases hk; exact hkey ▸ hs.entryTask uniqueKey entry he
        case isFalse => exact hs.entryTask k e hk
      case refine_2 =>
        dsimp only at hk ⊢
        rw [ops_append, Function.update_apply] at *
        split at hk
        case isTrue hkey =>
          cases hk
          intro tx htx
          cases List.mem_append.mp htx
          case inl hold => exact (hs.entryTxs uniqueKey entry he).append _ tx hold
          case inr hmem => rw [List.mem_singleton.mp hmem]; exact hnew
        case isFalse => exact (hs.entryTxs k e hk).append _
      case refine_3 =>
        dsimp only at ht ⊢
        rw [ops_append]
        exact (hs.pendingTxs j task pendingTxs ht hp).append _
    | none =>
      dsimp only
      refine ⟨fun k e hk => ?_, fun k e hk => ?_, fun j task pendingTxs ht hp => ?_,
        allAnswered_append hs.answered rfl⟩
      case refine_1 =>
        dsimp only at hk ⊢
        rw [Function.update_apply] at hk
        split at hk
        case isTrue hkey =>
          cases hk
          exact ⟨_, List.getElem?_concat_length .., hkey.symm, rfl⟩
        case isFalse =>
          obtain ⟨task, ht, hkey, hlookup⟩ := hs.entryTask k e hk
          exact ⟨task, List.getElem?_append_left (List.getElem?_eq_some_iff.mp ht).1 ▸ ht, hkey, hlookup⟩
      case refine_2 =>
        dsimp only at hk ⊢
        rw [ops_append, Function.update_apply] at *
        split at hk
        case isTrue =>
          cases hk
          intro tx htx
          rw [List.mem_singleton.mp htx]
          exact hnew
        case isFalse => exact (hs.entryTxs k e hk).append _
      case refine_3 =>
        dsimp only at ht ⊢
        rw [ops_append]
        by_cases hlt : j < s.tasks.length
        case pos =>
          rw [List.getElem?_append_left hlt] at ht
          exact (hs.pendingTxs j task pendingTxs ht hp).append _
        case neg =>
          rw [List.getElem?_append_right (Nat.le_of_not_lt hlt), List.getElem?_singleton] at ht
          split at ht
          case isTrue => cases ht; cases hp
          case isFalse => cases ht

theorem Wf.cacheCheck (hs : s.Wf) (ht : s.tasks[t]? = some task) (maybeActionResult : Except Error ActionResult) :
    (s.cacheCheck t task maybeActionResult).Wf := by
  have hending := hs.removeSetPhase ht .ending nofun
  rw [State.cacheCheck, removeEntry_eq]
  dsimp only
  cases maybeActionResult with
  | ok actionResult =>
    cases he : s.inflightCacheChecks task.uniqueKey with
    | none => exact hending
    | some pendingTxs =>
      have hanswer : ∀ (op : OperationId) (r : StateResult),
          (Except.ok (.cacheLookup ⟨.completedFromCache actionResult, op, task.actionInfo.digest⟩) : Except Error StateResult) =
            .ok r → r.clientOperationId = op := by
        intro op r hr
        cases hr
        rfl
      exact hending.deliver (honest_receive hanswer) (hs.entryTxs _ pendingTxs he)
  | error err =>
    dsimp only
    by_cases hcode : err.code ≠ .notFound
    case pos =>
      rw [if_pos hcode]
      cases he : s.inflightCacheChecks task.uniqueKey with
      | none => exact hending
      | some pendingTxs =>
        have hanswer : ∀ (op : OperationId) (r : StateResult),
            (Except.error (err.append "In CacheLookupScheduler::add_action") : Except Error StateResult) = .ok r →
              r.clientOperationId = op :=
          fun _ _ hr => by cases hr
        exact hending.deliver (honest_receive hanswer) (hs.entryTxs _ pendingTxs he)
    case neg =>
      rw [if_neg hcode]
      cases he : s.inflightCacheChecks task.uniqueKey with
      | none => exact hending
      | some pendingTxs =>
        refine hs.removeSetPhase ht _ fun txs htxs => ?_
        cases htxs
        exact hs.entryTxs _ pendingTxs he

theorem Wf.upstreamAddAction (hs : s.Wf) (ht : s.tasks[t]? = some task) {pendingTxs : Txs}
    (hp : task.phase = .forwarding pendingTxs) (result : Except Error Unit) :
    (s.upstreamAddAction t pendingTxs result).Wf := by
  have hnot := fun k e he => hs.entry_task_ne_of_phase ht (by rw [hp]; nofun) (k := k) (e := e) he
  have hvalid := hs.pendingTxs t task pendingTxs ht hp
  cases pendingTxs with
  | nil => exact hs.setPhase ht hnot .ending nofun
  | cons tx rest =>
    obtain ⟨clientOperationId, i⟩ := tx
    have hmoved := hs.setPhase ht hnot (if rest.isEmpty then .ending else .forwarding rest) fun txs htxs => by
      split at htxs
      case isTrue => cases htxs
      case isFalse =>
        cases htxs
        exact fun tx' htx' => hvalid tx' (List.mem_cons_of_mem _ htx')
    have hanswer : ∀ (op : OperationId) (r : StateResult),
        result.map (fun _ => StateResult.upstream op) = .ok r → r.clientOperationId = op := by
      intro op r hr
      cases result
      case error => cases hr
      case ok => cases hr; rfl
    have hfirst : TxsValid (ops (s.setPhase t (if rest.isEmpty then .ending else .forwarding rest)).calls)
        [(clientOperationId, i)] :=
      fun tx' htx' => List.mem_singleton.mp htx' ▸ hvalid _ List.mem_cons_self
    exact hmoved.deliver (honest_receive hanswer) hfirst

theorem Wf.finish (hs : s.Wf) (ht : s.tasks[t]? = some task) : (s.finish t task).Wf := by
  have hdone := hs.removeSetPhase ht .done nofun
  rw [State.finish, removeEntry_eq]
  dsimp only
  cases he : s.inflightCacheChecks task.uniqueKey with
  | none => exact hdone
  | some entry => exact hdone.deliver honest_hangUp (hs.entryTxs _ entry he)

theorem Wf.step (hs : s.Wf) : ∀ event, (s.step event).Wf
  | .addAction clientOperationId actionInfo => hs.addAction clientOperationId actionInfo
  | .cacheCheck t maybeActionResult => by
    simp only [State.step]
    split
    case h_1 task ht => exact hs.cacheCheck ht maybeActionResult
    case h_2 => exact hs
  | .upstreamAddAction t result => by
    simp only [State.step]
    split
    case h_1 uniqueKey actionInfo pendingTxs ht => exact hs.upstreamAddAction ht rfl result
    case h_2 => exact hs
  | .finish t => by
    simp only [State.step]
    split
    case h_1 task ht => exact hs.finish ht
    case h_2 => exact hs

end State

open State

theorem run_wf (events : List Event) : (run events).Wf :=
  EStateM.fold_inv State.step (fun _ event hs => hs.step event) events init init_wf

-- The entry a task was spawned for is gone by the time it returns, so when its scope guard takes
-- an entry, that entry is another task's: one spawned for the same key and still looking it up,
-- whose waiters then hear that their senders hung up.
theorem finish_takes_other_entry (events : List Event) {t : Nat} {task : Task} {e : Entry}
    (ht : (run events).tasks[t]? = some task) (hend : task.phase = .ending)
    (he : (run events).inflightCacheChecks task.uniqueKey = some e) :
    e.task ≠ t ∧ ∃ other, (run events).tasks[e.task]? = some other ∧ other.uniqueKey = task.uniqueKey ∧
      other.phase = .lookup := by
  have hs := run_wf events
  refine ⟨hs.entry_task_ne_of_phase ht (by rw [hend]; nofun) he, hs.entryTask _ e he⟩

-- The first task has returned from the upstream scheduler while the second call's task looks up.
theorem finish_takes_other_entry_of_second_call :
    let key : ActionUniqueKey := ⟨"", .sha256, ⟨1, 1⟩⟩
    let info : ActionInfo := ⟨0, 0, .cachable key⟩
    let s := run [.addAction 10 info, .cacheCheck 0 (.error (Error.new .notFound "")), .addAction 11 info,
      .upstreamAddAction 0 (.ok ())]
    s.tasks[0]? = some ⟨key, info, .ending⟩ ∧ s.inflightCacheChecks key = some ⟨1, [(11, 1)]⟩ ∧
      1 ≠ 0 ∧ ∃ other, s.tasks[1]? = some other ∧ other.uniqueKey = key ∧ other.phase = .lookup := by
  intro key info s
  have ht : s.tasks[0]? = some ⟨key, info, .ending⟩ := rfl
  have he : s.inflightCacheChecks key = some ⟨1, [(11, 1)]⟩ := rfl
  exact ⟨ht, he, finish_takes_other_entry _ ht rfl he⟩

-- Two calls for one key: the first one's lookup misses, and while its task awaits the upstream
-- scheduler the second call creates a new entry and spawns its own task. When the first task
-- returns, its scope guard removes the second call's entry, and the second call fails with
-- "ActionStateResult tx hung up" while its own task is still looking the action up.
theorem cache_lookup_guard_drops_fresh_entry :
    let info : ActionInfo := ⟨0, 0, .cachable ⟨"", .sha256, ⟨1, 1⟩⟩⟩
    let s := run [.addAction 10 info, .cacheCheck 0 (.error (Error.new .notFound "")), .addAction 11 info,
      .upstreamAddAction 0 (.ok ())]
    (s.inflightCacheChecks ⟨"", .sha256, ⟨1, 1⟩⟩).map Entry.task = some 1 ∧
      (s.step (.finish 0)).inflightCacheChecks ⟨"", .sha256, ⟨1, 1⟩⟩ = none ∧
      (s.step (.finish 0)).calls.map Call.result = [some (.ok (.upstream 10)), some (.error txHungUp)] ∧
      (s.step (.finish 0)).tasks.map Task.phase = [.done, .lookup] := by
  refine ⟨?_, ?_, ?_, ?_⟩ <;> decide +kernel

end NativeLink.CacheLookupScheduler
