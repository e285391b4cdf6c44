import NativeLink.Scheduler.MemoryAwaitedActionDb.Invariant

-- What the clients of the awaited-action database see in every state a run reaches: the queues it
-- lists, and the compare-and-set of `update_awaited_action`. All of it follows from the invariant;
-- the key map, whose invariant has one direction only, is where the event task's cleanup goes
-- wrong.

namespace NativeLink.Scheduler.AwaitedActionDbImpl

open EStateM

-- The set a `SortedAwaitedActionState` names.
def SortedAwaitedActionState.slot : SortedAwaitedActionState → SortedSlot
  | .cacheCheck => .cacheCheck
  | .queued => .queued
  | .executing => .executing
  | .completed => .completed

variable {s s' : AwaitedActionDbImpl} {a : AwaitedAction}

theorem getRangeOfActions_eq (s : AwaitedActionDbImpl) (state : SortedAwaitedActionState) :
    s.getRangeOfActions state =
      ((s.sortedActionInfoHashKeys.get state.slot).sort (· ≤ ·)).map fun sortedAwaitedAction =>
        match s.getByOperationId sortedAwaitedAction.operationId with
        | some awaitedAction => .ok awaitedAction
        | none => .error (Error.new .internal "Failed to get operation id") := by
  cases state <;> rfl

theorem mem_getRangeOfActions_of_wf (hs : Wf s) (state : SortedAwaitedActionState) (r : Except Error AwaitedAction) :
    r ∈ s.getRangeOfActions state ↔
      ∃ a, r = .ok a ∧ s.operationIdToAwaitedAction.lookup a.operationId = some a ∧
        slotOf a.state.stage = state.slot := by
  rw [getRangeOfActions_eq, List.mem_map]
  simp only [Finset.mem_sort]
  constructor
  case mp =>
    rintro ⟨x, hx, rfl⟩
    obtain ⟨a, ha, -, hslot⟩ := (hs.sorted _ x).mp hx
    refine ⟨a, by simp [getByOperationId, ha], ?_, hslot⟩
    rw [hs.operationId _ a ha]
    exact ha
  case mpr =>
    rintro ⟨a, rfl, ha, hslot⟩
    exact ⟨⟨a.sortKey, a.operationId⟩, (hs.sorted _ _).mpr ⟨a, ha, rfl, hslot⟩, by simp [getByOperationId, ha]⟩

theorem existsUnique_slot_of_wf (hs : Wf s) {o : OperationId} (h : s.operationIdToAwaitedAction.lookup o = some a) :
    ∃! slot, (⟨a.sortKey, o⟩ : SortedAwaitedAction) ∈ s.sortedActionInfoHashKeys.get slot := by
  refine ⟨slotOf a.state.stage, (hs.sorted _ _).mpr ⟨a, h, rfl, rfl⟩, fun slot hslot => ?_⟩
  obtain ⟨b, hb, -, hbslot⟩ := (hs.sorted _ _).mp hslot
  rw [h, Option.some.injEq] at hb
  rw [← hbslot, hb]

theorem updateAwaitedAction_ok_or_error (hs : Wf s) (a : AwaitedAction) :
    ((∃ old, s.operationIdToAwaitedAction.lookup a.operationId = some old ∧ old.version = a.version ∧
        old.actionInfo.uniqueQualifier = a.actionInfo.uniqueQualifier) ∧
      ∃ s', (updateAwaitedAction a).run s = .ok () s' ∧
        s'.operationIdToAwaitedAction = s.operationIdToAwaitedAction.insert a.operationId a.incrementVersion ∧
        s'.nextOperationId = s.nextOperationId) ∨
    ((¬∃ old, s.operationIdToAwaitedAction.lookup a.operationId = some old ∧ old.version = a.version ∧
        old.actionInfo.uniqueQualifier = a.actionInfo.uniqueQualifier) ∧
      ∃ e, (updateAwaitedAction a).run s = .error e s) := by
  by_cases hc : ∃ old, s.operationIdToAwaitedAction.lookup a.operationId = some old ∧ old.version = a.version ∧
      old.actionInfo.uniqueQualifier = a.actionInfo.uniqueQualifier
  case pos =>
    obtain ⟨old, h, hv, hq⟩ := hc
    obtain ⟨s', hrun, hm, hn, -⟩ := updateAwaitedAction_run_of_wf hs h hv hq
    exact Or.inl ⟨⟨old, h, hv, hq⟩, s', hrun, hm, hn⟩
  case neg =>
    refine Or.inr ⟨hc, ?_⟩
    cases h : s.operationIdToAwaitedAction.lookup a.operationId
    case none => exact updateAwaitedAction_run_of_lookup_none h
    case some old =>
      by_cases hv : old.version = a.version
      case pos => exact updateAwaitedAction_run_of_qualifier_ne h hv fun hq => hc ⟨old, h, hv, hq⟩
      case neg => exact updateAwaitedAction_run_of_version_ne h hv

theorem updateAwaitedAction_error_of_wf (hs : Wf s) {e : Stop} (he : (updateAwaitedAction a).run s = .error e s') :
    s' = s ∧ ¬∃ old, s.operationIdToAwaitedAction.lookup a.operationId = some old ∧ old.version = a.version ∧
      old.actionInfo.uniqueQualifier = a.actionInfo.uniqueQualifier := by
  rcases updateAwaitedAction_ok_or_error hs a with ⟨-, s'', hrun, -, -⟩ | ⟨hc, e', hrun⟩
  case inl =>
    rw [hrun] at he
    cases he
  case inr =>
    rw [hrun] at he
    cases he
    exact ⟨rfl, hc⟩

theorem queue_index_consistent (calls : List Call) :
    (∀ slot x, x ∈ (run calls).sortedActionInfoHashKeys.get slot ↔
      ∃ a, (run calls).operationIdToAwaitedAction.lookup x.operationId = some a ∧
        x.sortKey = a.sortKey ∧ slotOf a.state.stage = slot) ∧
    (∀ o a, (run calls).operationIdToAwaitedAction.lookup o = some a →
      ∃! slot, (⟨a.sortKey, o⟩ : SortedAwaitedAction) ∈ (run calls).sortedActionInfoHashKeys.get slot) ∧
    (∀ o, o ∈ (run calls).connectedClientsForOperationId ↔ o ∈ (run calls).operationIdToAwaitedAction) ∧
    (∀ o, ((run calls).connectedClientsForOperationId.lookup o).getD 0 =
      handles (run calls) o + drops (run calls) o) ∧
    (∀ state r, r ∈ (run calls).getRangeOfActions state ↔
      ∃ a, r = .ok a ∧ (run calls).operationIdToAwaitedAction.lookup a.operationId = some a ∧
        slotOf a.state.stage = state.slot) ∧
    (∀ a e s', (updateAwaitedAction a).run (run calls) = .error e s' →
      s' = run calls ∧ ¬∃ old, (run calls).operationIdToAwaitedAction.lookup a.operationId = some old ∧
        old.version = a.version ∧ old.actionInfo.uniqueQualifier = a.actionInfo.uniqueQualifier) := by
  have hs := run_wf calls
  exact ⟨hs.sorted, fun o a h => existsUnique_slot_of_wf hs h, hs.connected, hs.count,
    mem_getRangeOfActions_of_wf hs, fun a e s' he => updateAwaitedAction_error_of_wf hs he⟩

/-! ## `update_awaited_action` as a compare-and-set -/

theorem update_succeeds_iff_current (calls : List Call) (a : AwaitedAction) :
    ((∃ s', (updateAwaitedAction a).run (run calls) = .ok () s') ↔
      ∃ old, (run calls).operationIdToAwaitedAction.lookup a.operationId = some old ∧
        old.version = a.version ∧ old.actionInfo.uniqueQualifier = a.actionInfo.uniqueQualifier) ∧
    (∀ s', (updateAwaitedAction a).run (run calls) = .ok () s' →
      s'.operationIdToAwaitedAction =
        (run calls).operationIdToAwaitedAction.insert a.operationId a.incrementVersion ∧
      ∀ a', a'.operationId = a.operationId → a'.version = a.version →
        ∃ e, (updateAwaitedAction a').run s' = .error e s') ∧
    (∀ e s', (updateAwaitedAction a).run (run calls) = .error e s' → s' = run calls) := by
  have hs := run_wf calls
  refine ⟨⟨?mp, ?mpr⟩, ?ok, fun e s' he => (updateAwaitedAction_error_of_wf hs he).1⟩
  case mp =>
    rintro ⟨s', hrun⟩
    rcases updateAwaitedAction_ok_or_error hs a with ⟨hc, -⟩ | ⟨-, e, herr⟩
    case inl => exact hc
    case inr =>
      rw [hrun] at herr
      cases herr
  case mpr =>
    intro hc
    rcases updateAwaitedAction_ok_or_error hs a with ⟨-, s', hrun, -, -⟩ | ⟨hnc, -⟩
    case inl => exact ⟨s', hrun⟩
    case inr => exact absurd hc hnc
  case ok =>
    intro s' hrun
    rcases updateAwaitedAction_ok_or_error hs a with ⟨-, s'', hrun', hm, -⟩ | ⟨-, e, herr⟩
    case inr =>
      rw [hrun] at herr
      cases herr
    case inl =>
      rw [hrun] at hrun'
      cases hrun'
      refine ⟨hm, fun a' hop hv => ?_⟩
      -- the stored version is now one past the one the second update was computed from
      have hlookup : s'.operationIdToAwaitedAction.lookup a'.operationId = some a.incrementVersion := by
        rw [hm, hop, AList.lookup_insert]
      exact updateAwaitedAction_run_of_version_ne hlookup (by simp [hv])

-- An update computed from the current version is refused when it changes the action's key.
theorem update_fails_on_current_version :
    ∃ s, run [.addAction 0 ⟨0, 0, .cachable ⟨"main", .sha256, ⟨1, 1⟩⟩⟩ 0] = s ∧
      (s.operationIdToAwaitedAction.lookup 0).map AwaitedAction.version = some 0 ∧
      ∃ e, (updateAwaitedAction (AwaitedAction.new 0 ⟨0, 0, .uncachable ⟨"main", .sha256, ⟨1, 1⟩⟩⟩ 0)).run s =
        .error e s :=
  ⟨_, rfl, rfl, _, rfl⟩

/-! ## The key map -/

-- The key of an operation that finished is given to a new operation; when the last client of the
-- finished one drops it, the event task erases the key, which now belongs to the new operation.
-- A third request then starts a second operation for the same key while the first still runs.
theorem dropped_client_clears_key_of_running_operation :
    ∃ s, run [.addAction 100 ⟨0, 0, .cachable ⟨"main", .sha256, ⟨1, 1⟩⟩⟩ 0,
        .updateAwaitedAction { AwaitedAction.new 0 ⟨0, 0, .cachable ⟨"main", .sha256, ⟨1, 1⟩⟩⟩ 0 with
          state := ⟨.completed ⟨"worker", none⟩, 0, ⟨1, 1⟩⟩ },
        .addAction 101 ⟨0, 0, .cachable ⟨"main", .sha256, ⟨1, 1⟩⟩⟩ 0,
        .evictClient 100,
        .handleActionEvent,
        .addAction 102 ⟨0, 0, .cachable ⟨"main", .sha256, ⟨1, 1⟩⟩⟩ 0] = s ∧
      (s.operationIdToAwaitedAction.lookup 1).map (fun a => (a.actionInfo.uniqueQualifier, a.state.stage)) =
        some (.cachable ⟨"main", .sha256, ⟨1, 1⟩⟩, .queued) ∧
      (s.operationIdToAwaitedAction.lookup 2).map (fun a => (a.actionInfo.uniqueQualifier, a.state.stage)) =
        some (.cachable ⟨"main", .sha256, ⟨1, 1⟩⟩, .queued) ∧
      s.actionInfoHashKeyToAwaitedAction.lookup ⟨"main", .sha256, ⟨1, 1⟩⟩ = some 2 := by
  refine ⟨_, rfl, ?_, ?_, ?_⟩ <;> decide +kernel

end NativeLink.Scheduler.AwaitedActionDbImpl
