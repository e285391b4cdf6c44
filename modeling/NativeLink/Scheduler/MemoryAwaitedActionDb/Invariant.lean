import NativeLink.Scheduler.MemoryAwaitedActionDb.Spec

-- The invariant of the awaited-action database. The sorted sets index the stored operations by
-- stage, the key map points only at unfinished operations of its key, and the connected-client
-- count of an operation is the number of its live handles plus its drop events not yet handled.
-- Each field is kept by each way the methods change the maps, and every call keeps the whole, so it
-- holds in every state a run reaches.

namespace NativeLink.Scheduler.AwaitedActionDbImpl

open EStateM

abbrev OperationMap := AList (fun _ : OperationId => AwaitedAction)

abbrev KeyMap := AList (fun _ : ActionUniqueKey => OperationId)

theorem lookup_of_lookup_erase {κ β : Type} [DecidableEq κ] {l : AList (fun _ : κ => β)} {key k : κ} {b : β}
    (h : (l.erase key).lookup k = some b) : l.lookup k = some b := by
  by_cases hkey : k = key
  case pos =>
    rw [hkey, AList.lookup_erase] at h
    contradiction
  case neg => rwa [AList.lookup_erase_ne hkey] at h

/-! ## The sorted sets -/

-- The entry belongs in the set of `slot`: its operation is stored, in a stage of that set, with
-- that sort key.
def Listed (m : OperationMap) (slot : SortedSlot) (x : SortedAwaitedAction) : Prop :=
  ∃ a, m.lookup x.operationId = some a ∧ x.sortKey = a.sortKey ∧ slotOf a.state.stage = slot

-- The sets hold exactly the entries that belong in them.
def SortedIndex (sets : SortedAwaitedActions) (m : OperationMap) : Prop :=
  ∀ slot x, x ∈ sets.get slot ↔ Listed m slot x

section SortedIndex

variable {sets : SortedAwaitedActions} {m m' : OperationMap} {slot : SortedSlot} {x : SortedAwaitedAction}
  {o : OperationId} {a a' : AwaitedAction}

theorem listed_iff_of_lookup (h : m.lookup x.operationId = some a) :
    Listed m slot x ↔ x.sortKey = a.sortKey ∧ slotOf a.state.stage = slot := by
  simp [Listed, h]

theorem not_listed_of_lookup (h : m.lookup x.operationId = none) : ¬Listed m slot x := by
  simp [Listed, h]

theorem listed_congr (h : m'.lookup x.operationId = m.lookup x.operationId) :
    Listed m' slot x ↔ Listed m slot x := by
  simp only [Listed, h]

theorem SortedIndex.mem_of_lookup (hs : SortedIndex sets m) (h : m.lookup o = some a) :
    ⟨a.sortKey, o⟩ ∈ sets.btreeForState a.state.stage :=
  (hs _ _).mpr ⟨a, h, rfl, rfl⟩

theorem SortedIndex.insert_of_lookup (hs : SortedIndex sets m) (h : m.lookup o = some a)
    (hkey : a'.sortKey = a.sortKey) (hslot : slotOf a'.state.stage = slotOf a.state.stage) :
    SortedIndex sets (m.insert o a') := by
  intro slot x
  rw [hs]
  by_cases hx : x.operationId = o
  case pos =>
    rw [listed_iff_of_lookup (m := m) (by rw [hx, h]),
      listed_iff_of_lookup (m := m.insert o a') (by rw [hx, AList.lookup_insert _]), hkey, hslot]
  case neg => exact (listed_congr (AList.lookup_insert_ne hx)).symm

theorem SortedIndex.congr (hs : SortedIndex sets m) (h : ∀ o, m'.lookup o = m.lookup o) :
    SortedIndex sets m' := by
  intro slot x
  rw [hs, listed_congr (h x.operationId)]

theorem SortedIndex.move (hs : SortedIndex sets m) (h : m.lookup o = some a) (hkey : a'.sortKey = a.sortKey)
    (hop : a'.operationId = o) : SortedIndex (moveSorted sets a a') (m.insert o a') := by
  intro slot x
  obtain ⟨key, o'⟩ := x
  have hmove := SortedAwaitedActions.mem_set_insert
    (sets.set (slotOf a.state.stage) ((sets.get (slotOf a.state.stage)).erase ⟨a.sortKey, o⟩))
    (slotOf a'.state.stage) ⟨a.sortKey, o⟩ slot ⟨key, o'⟩
  rw [SortedAwaitedActions.mem_set_erase, hs] at hmove
  unfold moveSorted SortedAwaitedActions.btreeForState
  rw [hop, hmove]
  by_cases ho : o' = o
  case pos =>
    subst ho
    rw [listed_iff_of_lookup (x := ⟨key, o'⟩) h, listed_iff_of_lookup (x := ⟨key, o'⟩) (AList.lookup_insert _), hkey]
    simp only [SortedAwaitedAction.mk.injEq, and_true]
    tauto
  case neg =>
    rw [listed_congr (AList.lookup_insert_ne ho)]
    simp [ho]

theorem SortedIndex.remove (hs : SortedIndex sets m) (h : m.lookup o = some a) :
    SortedIndex (sets.set (slotOf a.state.stage) ((sets.btreeForState a.state.stage).erase ⟨a.sortKey, o⟩))
      (m.erase o) := by
  intro slot x
  obtain ⟨key, o'⟩ := x
  rw [SortedAwaitedActions.btreeForState, SortedAwaitedActions.mem_set_erase, hs]
  by_cases ho : o' = o
  case pos =>
    subst ho
    rw [listed_iff_of_lookup (x := ⟨key, o'⟩) h]
    have hnone : ¬Listed (m.erase o') slot ⟨key, o'⟩ := not_listed_of_lookup (AList.lookup_erase _ _)
    simp only [SortedAwaitedAction.mk.injEq, and_true, hnone, iff_false]
    tauto
  case neg =>
    rw [listed_congr (AList.lookup_erase_ne ho)]
    simp [ho]

theorem SortedIndex.add (hs : SortedIndex sets m) (hfresh : o ∉ m) (hqueued : slotOf a.state.stage = .queued) :
    SortedIndex (sets.set .queued (insert ⟨a.sortKey, o⟩ (sets.get .queued))) (m.insert o a) := by
  intro slot x
  obtain ⟨key, o'⟩ := x
  rw [SortedAwaitedActions.mem_set_insert, hs]
  by_cases ho : o' = o
  case pos =>
    subst ho
    have hnone : ¬Listed m slot ⟨key, o'⟩ := not_listed_of_lookup (AList.lookup_eq_none.mpr hfresh)
    rw [listed_iff_of_lookup (x := ⟨key, o'⟩) (AList.lookup_insert _), hqueued]
    simp only [hnone, SortedAwaitedAction.mk.injEq, and_true, false_or]
    tauto
  case neg =>
    rw [listed_congr (AList.lookup_insert_ne ho)]
    simp [ho]

end SortedIndex

/-! ## The stored operations -/

-- Each operation is stored under its own id.
def IdsMatch (m : OperationMap) : Prop :=
  ∀ o a, m.lookup o = some a → a.operationId = o

section Stored

variable {m m' : OperationMap} {o o' : OperationId} {a b : AwaitedAction}

theorem mem_of_lookup {β : Type} {m : AList (fun _ : OperationId => β)} {b : β} (h : m.lookup o = some b) :
    o ∈ m :=
  AList.lookup_isSome.mp (by rw [h]; rfl)

theorem mem_insert_of_lookup {β : Type} {m : AList (fun _ : OperationId => β)} {b b' : β}
    (h : m.lookup o = some b) : o' ∈ m.insert o b' ↔ o' ∈ m := by
  rw [AList.mem_insert]
  constructor
  case mp =>
    rintro (rfl | h')
    case inl => exact mem_of_lookup h
    case inr => exact h'
  case mpr => exact Or.inr

theorem lookup_reinsert {β : Type} {m : AList (fun _ : OperationId => β)} {b : β} (h : m.lookup o = some b)
    (o' : OperationId) : ((m.erase o).insert o b).lookup o' = m.lookup o' := by
  by_cases ho : o' = o
  case pos => rw [ho, AList.lookup_insert, h]
  case neg => rw [AList.lookup_insert_ne ho, AList.lookup_erase_ne ho]

theorem mem_insert_erase {β : Type} {m : AList (fun _ : OperationId => β)} {b : β} (h : o ∈ m) :
    o' ∈ (m.erase o).insert o b ↔ o' ∈ m := by
  rw [AList.mem_insert, AList.mem_erase]
  by_cases ho : o' = o
  case pos =>
    subst ho
    simp [h]
  case neg => simp [ho]

theorem IdsMatch.insert (hm : IdsMatch m) (hb : b.operationId = o) : IdsMatch (m.insert o b) := by
  intro o' a' h'
  by_cases ho : o' = o
  case pos =>
    subst ho
    rw [AList.lookup_insert, Option.some.injEq] at h'
    rwa [← h']
  case neg => exact hm o' a' (by rwa [AList.lookup_insert_ne ho] at h')

theorem IdsMatch.erase (hm : IdsMatch m) (o : OperationId) : IdsMatch (m.erase o) := by
  intro o' a' h'
  by_cases ho : o' = o
  case pos => rw [ho, AList.lookup_erase] at h'; contradiction
  case neg => exact hm o' a' (by rwa [AList.lookup_erase_ne ho] at h')

theorem IdsMatch.congr (hm : IdsMatch m) (h : ∀ o, m'.lookup o = m.lookup o) : IdsMatch m' :=
  fun o' a' h' => hm o' a' (by rwa [h] at h')

end Stored

/-! ## The key map -/

-- Every key points at a stored unfinished operation of that key.
def KeyIndex (keys : KeyMap) (m : OperationMap) : Prop :=
  ∀ k o, keys.lookup k = some o →
    ∃ a, m.lookup o = some a ∧ a.actionInfo.uniqueQualifier = .cachable k ∧ a.state.stage.isFinished = false

section KeyIndex

variable {keys : KeyMap} {m : OperationMap} {o : OperationId} {a a' : AwaitedAction} {key : ActionUniqueKey}

theorem KeyIndex.erase (hk : KeyIndex keys m) (key : ActionUniqueKey) : KeyIndex (keys.erase key) m :=
  fun k o' h => hk k o' (lookup_of_lookup_erase h)

theorem KeyIndex.insert_of_lookup (hk : KeyIndex keys m) (h : m.lookup o = some a)
    (hq : a'.actionInfo.uniqueQualifier = a.actionInfo.uniqueQualifier)
    (hf : a'.state.stage.isFinished = a.state.stage.isFinished) : KeyIndex keys (m.insert o a') := by
  intro k o' hko
  obtain ⟨b, hb, hbq, hbf⟩ := hk k o' hko
  by_cases ho : o' = o
  case pos =>
    subst ho
    rw [h, Option.some.injEq] at hb
    subst hb
    exact ⟨a', AList.lookup_insert _, hq.trans hbq, hf.trans hbf⟩
  case neg => exact ⟨b, by rw [AList.lookup_insert_ne ho, hb], hbq, hbf⟩

theorem KeyIndex.congr {m' : OperationMap} (hk : KeyIndex keys m) (h : ∀ o, m'.lookup o = m.lookup o) :
    KeyIndex keys m' :=
  fun k o' hko => by
    rw [h]
    exact hk k o' hko

theorem KeyIndex.key_eq (hk : KeyIndex keys m) (h : m.lookup o = some a) (hko : keys.lookup k = some o) :
    a.actionInfo.uniqueQualifier = .cachable k := by
  obtain ⟨b, hb, hbq, -⟩ := hk k o hko
  rw [h, Option.some.injEq] at hb
  rwa [hb]

theorem KeyIndex.remove (hk : KeyIndex keys m) (h : m.lookup o = some a) :
    KeyIndex
      (match a.actionInfo.uniqueQualifier with
        | .cachable actionKey => keys.erase actionKey
        | .uncachable _ => keys)
      (m.erase o) := by
  intro k o' hko
  have hkey : keys.lookup k = some o' := by
    split at hko
    case h_1 => exact lookup_of_lookup_erase hko
    case h_2 => exact hko
  have ho : o' ≠ o := by
    rintro rfl
    have hq := hk.key_eq h hkey
    rw [hq] at hko
    simp at hko
  obtain ⟨b, hb, hbq, hbf⟩ := hk k o' hkey
  exact ⟨b, by rw [AList.lookup_erase_ne ho, hb], hbq, hbf⟩

theorem lookup_of_processStateChangesForHashKeyMap
    (h : (processStateChangesForHashKeyMap keys a').lookup k = some o) : keys.lookup k = some o := by
  unfold processStateChangesForHashKeyMap at h
  split at h
  case isTrue => exact h
  case isFalse =>
    split at h
    case h_1 => exact lookup_of_lookup_erase h
    case h_2 => exact h

theorem KeyIndex.update (hk : KeyIndex keys m) (h : m.lookup o = some a)
    (hq : a'.actionInfo.uniqueQualifier = a.actionInfo.uniqueQualifier) :
    KeyIndex (processStateChangesForHashKeyMap keys a') (m.insert o a') := by
  intro k o' hko
  have hkey := lookup_of_processStateChangesForHashKeyMap hko
  by_cases ho : o' = o
  case pos =>
    subst ho
    have hq' := hq.trans (hk.key_eq h hkey)
    cases hfin : a'.state.stage.isFinished
    case false => exact ⟨a', AList.lookup_insert _, hq', hfin⟩
    case true => simp [processStateChangesForHashKeyMap, hfin, hq'] at hko
  case neg =>
    obtain ⟨b, hb, hbq, hbf⟩ := hk k o' hkey
    exact ⟨b, by rw [AList.lookup_insert_ne ho, hb], hbq, hbf⟩

theorem KeyIndex.add (hk : KeyIndex keys m) (hfresh : o ∉ m) (hf : a.state.stage.isFinished = false) :
    KeyIndex
      (match a.actionInfo.uniqueQualifier with
        | .cachable uniqueKey => keys.insert uniqueKey o
        | .uncachable _ => keys)
      (m.insert o a) := by
  have hold : ∀ k o', keys.lookup k = some o' → o' ≠ o := by
    rintro k o' hko rfl
    obtain ⟨b, hb, -⟩ := hk k o' hko
    exact hfresh (AList.lookup_isSome.mp (by rw [hb]; rfl))
  intro k o' hko
  split at hko
  case h_1 uniqueKey hq =>
    by_cases hkey : k = uniqueKey
    case pos =>
      subst hkey
      rw [AList.lookup_insert, Option.some.injEq] at hko
      subst hko
      exact ⟨a, AList.lookup_insert _, hq, hf⟩
    case neg =>
      rw [AList.lookup_insert_ne hkey] at hko
      obtain ⟨b, hb, hbq, hbf⟩ := hk k o' hko
      exact ⟨b, by rw [AList.lookup_insert_ne (hold k o' hko), hb], hbq, hbf⟩
  case h_2 =>
    obtain ⟨b, hb, hbq, hbf⟩ := hk k o' hko
    exact ⟨b, by rw [AList.lookup_insert_ne (hold k o' hko), hb], hbq, hbf⟩

end KeyIndex

/-! ## The connected clients -/

-- The live handles of the operation.
def handles (s : AwaitedActionDbImpl) (operationId : OperationId) : Nat :=
  AList.countValues (· == operationId) s.clientOperationToAwaitedAction

-- Its drop events not yet handled.
def drops (s : AwaitedActionDbImpl) (operationId : OperationId) : Nat :=
  s.actionEvents.count (.clientDroppedOperation operationId)

theorem count_droppedHandle (s : AwaitedActionDbImpl) (c o : OperationId) :
    (s.droppedHandle c).count (.clientDroppedOperation o) =
      AList.lookupCount (· == o) c s.clientOperationToAwaitedAction := by
  unfold droppedHandle AList.lookupCount
  cases s.clientOperationToAwaitedAction.lookup c
  case none => rfl
  case some o' => simp [List.count_singleton]

theorem handles_add_drops_withHandle (s : AwaitedActionDbImpl) (c o o' : OperationId) :
    handles (s.withHandle c o) o' + drops (s.withHandle c o) o' =
      handles s o' + drops s o' + if o = o' then 1 else 0 := by
  have herase := AList.countValues_erase_add (· == o') c s.clientOperationToAwaitedAction
  simp only [handles, drops, withHandle, AList.countValues_insert, List.count_append, count_droppedHandle,
    beq_iff_eq] at herase ⊢
  omega

theorem handles_add_drops_withoutHandle (s : AwaitedActionDbImpl) (c o' : OperationId) :
    handles (s.withoutHandle c) o' + drops (s.withoutHandle c) o' = handles s o' + drops s o' := by
  have herase := AList.countValues_erase_add (· == o') c s.clientOperationToAwaitedAction
  simp only [handles, drops, withoutHandle, List.count_append, count_droppedHandle] at herase ⊢
  omega

/-! ## The invariant -/

structure Wf (s : AwaitedActionDbImpl) : Prop where
  sorted : SortedIndex s.sortedActionInfoHashKeys s.operationIdToAwaitedAction
  operationId : IdsMatch s.operationIdToAwaitedAction
  keys : KeyIndex s.actionInfoHashKeyToAwaitedAction s.operationIdToAwaitedAction
  -- `OperationId::default()` never draws an id in use
  fresh : ∀ o, o ∈ s.operationIdToAwaitedAction → o < s.nextOperationId
  connected : ∀ o, o ∈ s.connectedClientsForOperationId ↔ o ∈ s.operationIdToAwaitedAction
  count : ∀ o, (s.connectedClientsForOperationId.lookup o).getD 0 = handles s o + drops s o

theorem new_wf : Wf new where
  sorted slot x := by
    have hnone : ¬Listed new.operationIdToAwaitedAction slot x := not_listed_of_lookup (AList.lookup_empty _)
    rw [iff_false_intro hnone, iff_false]
    cases slot <;> exact Finset.notMem_empty x
  operationId o a h := by simp [new] at h
  keys k o h := by simp [new] at h
  fresh o h := by simp [new] at h
  connected o := by simp [new]
  count o := by simp [new, handles, drops, AList.countValues]

section Steps

variable {s : AwaitedActionDbImpl} {o : OperationId} {a : AwaitedAction}

theorem Wf.lookup_connected (hs : Wf s) (h : s.operationIdToAwaitedAction.lookup o = some a) :
    ∃ n, s.connectedClientsForOperationId.lookup o = some n ∧ n = handles s o + drops s o := by
  obtain ⟨n, hn⟩ := Option.isSome_iff_exists.mp (AList.lookup_isSome.mpr ((hs.connected o).mpr (mem_of_lookup h)))
  refine ⟨n, hn, ?_⟩
  have := hs.count o
  rwa [hn, Option.getD_some] at this

theorem Wf.withoutHandle (hs : Wf s) (c : OperationId) : Wf (s.withoutHandle c) where
  sorted := hs.sorted
  operationId := hs.operationId
  keys := hs.keys
  fresh := hs.fresh
  connected := hs.connected
  count o := by
    rw [handles_add_drops_withoutHandle]
    exact hs.count o

theorem Wf.keepAlive (hs : Wf s) (c : OperationId) :
    Wf { s with actionEvents := s.actionEvents ++ [.clientKeepAlive c] } where
  sorted := hs.sorted
  operationId := hs.operationId
  keys := hs.keys
  fresh := hs.fresh
  connected := hs.connected
  count o := by
    simp only [drops, List.count_append, List.count_singleton, beq_iff_eq, reduceCtorEq, if_false, Nat.add_zero]
    exact hs.count o

theorem Wf.join (hs : Wf s) (h : s.operationIdToAwaitedAction.lookup o = some a)
    (hn : s.connectedClientsForOperationId.lookup o = some n) (c : OperationId) (now : Nat) :
    Wf (joinOperation s c o a n now) where
  sorted := hs.sorted.insert_of_lookup h rfl rfl
  operationId := hs.operationId.insert (hs.operationId o a h)
  keys := hs.keys.insert_of_lookup h rfl rfl
  fresh o' h' := hs.fresh o' ((mem_insert_of_lookup h).mp h')
  connected o' := by
    simp only [joinOperation, withHandle]
    rw [mem_insert_of_lookup hn, mem_insert_of_lookup h, hs.connected o']
  count o' := by
    unfold joinOperation
    rw [handles_add_drops_withHandle]
    show _ = handles s o' + drops s o' + _
    rw [← hs.count o']
    by_cases ho : o = o'
    case pos =>
      subst ho
      simp [withHandle, hn]
    case neg =>
      simp [withHandle, AList.lookup_insert_ne (Ne.symm ho), ho]

theorem Wf.add (hs : Wf s) (c : OperationId) (actionInfo : ActionInfo) (now : Nat) :
    Wf (addOperation s c actionInfo now) where
  sorted := hs.sorted.add (fun h => Nat.lt_irrefl _ (hs.fresh _ h)) rfl
  operationId := hs.operationId.insert rfl
  keys := hs.keys.add (a := AwaitedAction.new s.nextOperationId actionInfo now)
    (fun h => Nat.lt_irrefl _ (hs.fresh _ h)) rfl
  fresh o' h' := by
    simp only [addOperation, withHandle, AList.mem_insert] at h'
    rcases h' with rfl | h'
    case inl => exact Nat.lt_succ_self _
    case inr => exact Nat.lt_succ_of_lt (hs.fresh o' h')
  connected o' := by
    simp only [addOperation, withHandle, AList.mem_insert]
    rw [hs.connected o']
  count o' := by
    unfold addOperation
    rw [handles_add_drops_withHandle]
    show _ = handles s o' + drops s o' + _
    rw [← hs.count o']
    by_cases ho : s.nextOperationId = o'
    case pos =>
      subst ho
      have hnone : s.connectedClientsForOperationId.lookup s.nextOperationId = none :=
        AList.lookup_eq_none.mpr fun h => Nat.lt_irrefl _ (hs.fresh _ ((hs.connected _).mp h))
      simp [withHandle, hnone]
    case neg =>
      simp [withHandle, AList.lookup_insert_ne (Ne.symm ho), ho]

theorem Wf.updateSameStage (hs : Wf s) (h : s.operationIdToAwaitedAction.lookup a.operationId = some old)
    (hkey : a.sortKey = old.sortKey) (hq : a.actionInfo.uniqueQualifier = old.actionInfo.uniqueQualifier)
    (hst : old.state.stage.isSameStage a.state.stage = true) :
    Wf { s with
      operationIdToAwaitedAction := s.operationIdToAwaitedAction.insert a.operationId a.incrementVersion } where
  sorted := hs.sorted.insert_of_lookup h hkey (slotOf_eq_of_isSameStage hst)
  operationId := hs.operationId.insert rfl
  keys := hs.keys.insert_of_lookup h hq (ActionStage.isFinished_eq_of_isSameStage hst)
  fresh o' h' := hs.fresh o' ((mem_insert_of_lookup h).mp h')
  connected o' := by
    rw [mem_insert_of_lookup h]
    exact hs.connected o'
  count := hs.count

theorem Wf.updateStageChange (hs : Wf s) (h : s.operationIdToAwaitedAction.lookup a.operationId = some old)
    (hkey : a.sortKey = old.sortKey) (hq : a.actionInfo.uniqueQualifier = old.actionInfo.uniqueQualifier) :
    Wf { s with
      operationIdToAwaitedAction := s.operationIdToAwaitedAction.insert a.operationId a.incrementVersion
      actionInfoHashKeyToAwaitedAction :=
        processStateChangesForHashKeyMap s.actionInfoHashKeyToAwaitedAction a.incrementVersion
      sortedActionInfoHashKeys := moveSorted s.sortedActionInfoHashKeys old a.incrementVersion } where
  sorted := hs.sorted.move h hkey rfl
  operationId := hs.operationId.insert rfl
  keys := hs.keys.update h hq
  fresh o' h' := hs.fresh o' ((mem_insert_of_lookup h).mp h')
  connected o' := by
    rw [mem_insert_of_lookup h]
    exact hs.connected o'
  count := hs.count

theorem drops_cons (s : AwaitedActionDbImpl) (hev : s.actionEvents = event :: events) (o : OperationId) :
    drops s o = drops { s with actionEvents := events } o + if event = .clientDroppedOperation o then 1 else 0 := by
  simp only [drops, hev, List.count_cons, beq_iff_eq]

theorem Wf.popKeepAlive (hs : Wf s) (hev : s.actionEvents = .clientKeepAlive c :: events) :
    Wf { s with actionEvents := events } where
  sorted := hs.sorted
  operationId := hs.operationId
  keys := hs.keys
  fresh := hs.fresh
  connected := hs.connected
  count o := by
    have hd := drops_cons s hev o
    rw [if_neg (by simp)] at hd
    rw [hs.count o, hd]
    rfl

theorem Wf.reinsert (hs : Wf s) (hev : s.actionEvents = .clientDroppedOperation o :: events)
    (h : s.operationIdToAwaitedAction.lookup o = some a) (hn : s.connectedClientsForOperationId.lookup o = some n) :
    Wf { s with
      actionEvents := events
      operationIdToAwaitedAction := (s.operationIdToAwaitedAction.erase o).insert o a
      connectedClientsForOperationId := (s.connectedClientsForOperationId.erase o).insert o (n - 1) } where
  sorted := hs.sorted.congr (lookup_reinsert h)
  operationId := hs.operationId.congr (lookup_reinsert h)
  keys := hs.keys.congr (lookup_reinsert h)
  fresh o' h' := hs.fresh o' ((mem_insert_erase (mem_of_lookup h)).mp h')
  connected o' := by
    rw [mem_insert_erase (mem_of_lookup h), mem_insert_erase (mem_of_lookup hn)]
    exact hs.connected o'
  count o' := by
    have hd := drops_cons s hev o'
    have hc := hs.count o'
    by_cases ho : o' = o
    case pos =>
      subst ho
      rw [hn, Option.getD_some, hd, if_pos rfl] at hc
      simp only [AList.lookup_insert, Option.getD_some]
      show n - 1 = handles s o' + drops { s with actionEvents := events } o'
      omega
    case neg =>
      rw [if_neg (by simpa using Ne.symm ho)] at hd
      simp only [AList.lookup_insert_ne ho, AList.lookup_erase_ne ho]
      rw [hc, hd]
      rfl

theorem Wf.remove (hs : Wf s) (hev : s.actionEvents = .clientDroppedOperation o :: events)
    (h : s.operationIdToAwaitedAction.lookup o = some a) (hn : s.connectedClientsForOperationId.lookup o = some 1) :
    Wf (removeOperation { s with actionEvents := events } o a) where
  sorted := hs.sorted.remove h
  operationId := hs.operationId.erase o
  keys := hs.keys.remove h
  fresh o' h' := hs.fresh o' (AList.mem_erase.mp h').2
  connected o' := by
    simp only [removeOperation, AList.mem_erase]
    rw [hs.connected o']
  count o' := by
    have hd := drops_cons s hev o'
    have hc := hs.count o'
    by_cases ho : o' = o
    case pos =>
      subst ho
      rw [hn, Option.getD_some, hd, if_pos rfl] at hc
      simp only [removeOperation, AList.lookup_erase, Option.getD_none]
      show 0 = handles s o' + drops { s with actionEvents := events } o'
      omega
    case neg =>
      rw [if_neg (by simpa using Ne.symm ho)] at hd
      simp only [removeOperation, AList.lookup_erase_ne ho]
      rw [hc, hd]
      rfl

end Steps

/-! ## The calls -/

section Calls

variable {s : AwaitedActionDbImpl} {a old : AwaitedAction}

theorem derivedFrom_of_lookup (hd : s.derivedFrom a = true)
    (h : s.operationIdToAwaitedAction.lookup a.operationId = some old) :
    a.actionInfo = old.actionInfo ∧ a.sortKey = old.sortKey := by
  unfold derivedFrom at hd
  rw [h] at hd
  simpa using hd

-- From an invariant state the update of a stored operation with its version and its key goes
-- through, whatever stage it moves to: the entry is in the set of the old stage and not in the set
-- of the new one.
theorem updateAwaitedAction_run_of_wf (hs : Wf s) (h : s.operationIdToAwaitedAction.lookup a.operationId = some old)
    (hv : old.version = a.version) (hq : old.actionInfo.uniqueQualifier = a.actionInfo.uniqueQualifier) :
    ∃ s', (updateAwaitedAction a).run s = .ok () s' ∧
      s'.operationIdToAwaitedAction = s.operationIdToAwaitedAction.insert a.operationId a.incrementVersion ∧
      s'.nextOperationId = s.nextOperationId ∧ (a.sortKey = old.sortKey → Wf s') := by
  cases hst : old.state.stage.isSameStage a.state.stage
  case true =>
    exact ⟨_, updateAwaitedAction_run_of_same_stage h hv hq hst, rfl, rfl,
      fun hkey => hs.updateSameStage h hkey hq.symm hst⟩
  case false =>
    have hin := hs.sorted.mem_of_lookup h
    have hout : (⟨old.sortKey, a.operationId⟩ : SortedAwaitedAction) ∉
        (s.sortedActionInfoHashKeys.set (slotOf old.state.stage)
          ((s.sortedActionInfoHashKeys.btreeForState old.state.stage).erase
            ⟨old.sortKey, a.operationId⟩)).btreeForState a.state.stage := by
      simp only [SortedAwaitedActions.btreeForState]
      rw [SortedAwaitedActions.mem_set_erase, hs.sorted, listed_iff_of_lookup h]
      tauto
    exact ⟨_, updateAwaitedAction_run_of_stage_change h hv hq hst hin hout, rfl, rfl,
      fun hkey => hs.updateStageChange h hkey hq.symm⟩

theorem updateAwaitedAction_wf (hs : Wf s) (hd : s.derivedFrom a = true) :
    Wf ((updateAwaitedAction a).run s).state := by
  cases h : s.operationIdToAwaitedAction.lookup a.operationId
  case none =>
    obtain ⟨e, he⟩ := updateAwaitedAction_run_of_lookup_none h
    rw [he]
    exact hs
  case some old =>
    obtain ⟨hinfo, hkey⟩ := derivedFrom_of_lookup hd h
    by_cases hv : old.version = a.version
    case neg =>
      obtain ⟨e, he⟩ := updateAwaitedAction_run_of_version_ne h hv
      rw [he]
      exact hs
    case pos =>
      obtain ⟨s', hrun, -, -, hs'⟩ := updateAwaitedAction_run_of_wf hs h hv (by rw [hinfo])
      rw [hrun]
      exact hs' hkey

-- What `add_action` does from an invariant state: the client joins the operation its key points
-- at, or a new operation is added under the next id.
inductive ActionAdded (s : AwaitedActionDbImpl) (c : OperationId) (actionInfo : ActionInfo) (now : Nat) :
    OperationId → AwaitedActionDbImpl → Prop
  | join {o : OperationId} {a : AwaitedAction} {n : Nat} (h : s.operationIdToAwaitedAction.lookup o = some a)
      (hn : s.connectedClientsForOperationId.lookup o = some n) :
      ActionAdded s c actionInfo now o (joinOperation s c o a n now)
  | new : ActionAdded s c actionInfo now s.nextOperationId (addOperation s c actionInfo now)

theorem ActionAdded.wf {c : OperationId} {actionInfo : ActionInfo} {now : Nat} {o : OperationId}
    {s' : AwaitedActionDbImpl} (hs : Wf s) : ActionAdded s c actionInfo now o s' → Wf s'
  | .join h hn => hs.join h hn c now
  | .new => hs.add c actionInfo now

theorem addAction_added (hs : Wf s) (c : OperationId) (actionInfo : ActionInfo) (now : Nat) :
    ∃ o s', (addAction c actionInfo now).run s = .ok o s' ∧ ActionAdded s c actionInfo now o s' := by
  have hnew : (trySubscribe c actionInfo.uniqueQualifier now).run s = .ok none s →
      ∃ o s', (addAction c actionInfo now).run s = .ok o s' ∧ ActionAdded s c actionInfo now o s' := by
    intro hsub
    have hfresh : (⟨(AwaitedAction.new s.nextOperationId actionInfo now).sortKey, s.nextOperationId⟩ :
        SortedAwaitedAction) ∉ s.sortedActionInfoHashKeys.queued := by
      intro hmem
      obtain ⟨b, hb, -⟩ := (hs.sorted .queued _).mp hmem
      exact Nat.lt_irrefl _ (hs.fresh _ (mem_of_lookup hb))
    exact ⟨_, _, addAction_run_of_new hsub hfresh, .new⟩
  cases hq : actionInfo.uniqueQualifier
  case uncachable key =>
    exact hnew (by rw [hq]; exact trySubscribe_run_of_uncachable c key now s)
  case cachable key =>
    cases hk : s.actionInfoHashKeyToAwaitedAction.lookup key
    case none => exact hnew (by rw [hq]; exact trySubscribe_run_of_key_none c now hk)
    case some o =>
      obtain ⟨a, ha, -, hf⟩ := hs.keys key o hk
      obtain ⟨n, hn, -⟩ := hs.lookup_connected ha
      exact ⟨o, _, addAction_run_of_join (by rw [hq]; exact trySubscribe_run_of_join c now hk ha hf hn),
        .join ha hn⟩

-- What the event task does from an invariant state, by the event it takes.
inductive EventHandled (s : AwaitedActionDbImpl) : AwaitedActionDbImpl → Prop
  | empty (hev : s.actionEvents = []) : EventHandled s s
  | keepAlive {c : OperationId} {events : List ActionEvent}
      (hev : s.actionEvents = .clientKeepAlive c :: events) : EventHandled s { s with actionEvents := events }
  | remaining {o : OperationId} {events : List ActionEvent} {a : AwaitedAction} {n : Nat}
      (hev : s.actionEvents = .clientDroppedOperation o :: events)
      (h : s.operationIdToAwaitedAction.lookup o = some a) (hn : s.connectedClientsForOperationId.lookup o = some n) :
      EventHandled s { s with
        actionEvents := events
        operationIdToAwaitedAction := (s.operationIdToAwaitedAction.erase o).insert o a
        connectedClientsForOperationId := (s.connectedClientsForOperationId.erase o).insert o (n - 1) }
  | last {o : OperationId} {events : List ActionEvent} {a : AwaitedAction}
      (hev : s.actionEvents = .clientDroppedOperation o :: events)
      (h : s.operationIdToAwaitedAction.lookup o = some a) (hn : s.connectedClientsForOperationId.lookup o = some 1) :
      EventHandled s (removeOperation { s with actionEvents := events } o a)

theorem EventHandled.wf {s' : AwaitedActionDbImpl} (hs : Wf s) : EventHandled s s' → Wf s'
  | .empty _ => hs
  | .keepAlive hev => hs.popKeepAlive hev
  | .remaining hev h hn => hs.reinsert hev h hn
  | .last hev h hn => hs.remove hev h hn

theorem exec_handleActionEvent_handled (hs : Wf s) : EventHandled s (Call.handleActionEvent.exec.run s).state := by
  cases hev : s.actionEvents
  case nil =>
    rw [exec_handleActionEvent_run_nil hev]
    exact .empty hev
  case cons event events =>
    rw [exec_handleActionEvent_run_cons hev]
    cases event
    case clientKeepAlive c =>
      rw [handleActionEvent_run_keepAlive]
      exact .keepAlive hev
    case clientDroppedOperation o =>
      have hpos : 0 < (s.connectedClientsForOperationId.lookup o).getD 0 := by
        rw [hs.count o, drops_cons s hev o, if_pos rfl]
        omega
      obtain ⟨n, hn⟩ : ∃ n, s.connectedClientsForOperationId.lookup o = some n := by
        cases h : s.connectedClientsForOperationId.lookup o
        case none =>
          rw [h, Option.getD_none] at hpos
          exact absurd hpos (Nat.lt_irrefl 0)
        case some n => exact ⟨n, rfl⟩
      rw [hn, Option.getD_some] at hpos
      obtain ⟨a, ha⟩ := Option.isSome_iff_exists.mp
        (AList.lookup_isSome.mpr ((hs.connected o).mp (mem_of_lookup hn)))
      by_cases h1 : n = 1
      case pos =>
        subst h1
        rw [handleActionEvent_run_of_last (s := { s with actionEvents := events }) ha hn]
        exact .last hev ha hn
      case neg =>
        rw [handleActionEvent_run_of_remaining (s := { s with actionEvents := events }) ha hn (by omega)]
        exact .remaining hev ha hn

/-! ### The calls as steps -/

theorem step_addAction (hs : Wf s) (c : OperationId) (actionInfo : ActionInfo) (now : Nat) :
    ∃ o, ActionAdded s c actionInfo now o (s.step (.addAction c actionInfo now)) := by
  obtain ⟨o, s', hrun, hadded⟩ := addAction_added hs c actionInfo now
  refine ⟨o, ?_⟩
  show ActionAdded s c actionInfo now o ((addAction c actionInfo now >>= fun _ => pure ()).run s).state
  rw [state_run_bind_pure, hrun]
  exact hadded

theorem step_evictClient (s : AwaitedActionDbImpl) (c : OperationId) :
    s.step (.evictClient c) = s.withoutHandle c := by
  show ((evictClient c).run s).state = _
  rw [evictClient_run]
  rfl

theorem step_sendKeepAlive (s : AwaitedActionDbImpl) (c : OperationId) :
    s.step (.sendKeepAlive c) = { s with actionEvents := s.actionEvents ++ [.clientKeepAlive c] } := by
  show ((modify fun s : AwaitedActionDbImpl =>
    { s with actionEvents := s.actionEvents ++ [ActionEvent.clientKeepAlive c] } : M PUnit).run s).state = _
  rw [run_modify]
  rfl

theorem step_handleActionEvent (hs : Wf s) : EventHandled s (s.step .handleActionEvent) :=
  exec_handleActionEvent_handled hs

theorem step_wf (hs : Wf s) (call : Call) : Wf (step s call) := by
  cases call
  case addAction c actionInfo now =>
    obtain ⟨o, hadded⟩ := step_addAction hs c actionInfo now
    exact hadded.wf hs
  case updateAwaitedAction a =>
    show Wf (if s.derivedFrom a then ((updateAwaitedAction a).run s).state else s)
    split
    case isTrue hd => exact updateAwaitedAction_wf hs hd
    case isFalse => exact hs
  case evictClient c =>
    rw [step_evictClient]
    exact hs.withoutHandle c
  case sendKeepAlive c =>
    rw [step_sendKeepAlive]
    exact hs.keepAlive c
  case handleActionEvent => exact (step_handleActionEvent hs).wf hs

theorem run_wf (calls : List Call) : Wf (run calls) :=
  fold_inv (I := Wf) step (fun _ call hs => step_wf hs call) calls new new_wf

end Calls

end NativeLink.Scheduler.AwaitedActionDbImpl
