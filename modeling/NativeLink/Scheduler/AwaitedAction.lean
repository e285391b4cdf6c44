import NativeLink.Util.ActionMessages
import Mathlib

-- Model of `nativelink-scheduler/src/awaited_action_db/awaited_action.rs` and of the
-- `SortedAwaitedAction` of `awaited_action_db/mod.rs`: the record the scheduler keeps for each
-- operation, with the version that makes every write a compare-and-set, and the key that orders
-- the queues. `action_info`, `operation_id` and `sort_key` are set when the record is made and no
-- method changes them. The origin metadata is left out.

namespace NativeLink

-- `AwaitedActionSortKey::new_with_unique_key`: the priority moved by `2 ^ 31` into a `u32` in the
-- high half and the inverted `u32` of the insert time in seconds in the low half, so a higher
-- priority and then an earlier insert sort last. `x ^ u32::MAX` is `u32::MAX - x`.
def AwaitedActionSortKey.newWithUniqueKey (priority : Int) (insertTimestamp : Nat) : Nat :=
  ((priority + 2 ^ 31) % 2 ^ 32).toNat * 2 ^ 32 + (2 ^ 32 - 1 - insertTimestamp % 2 ^ 32)

structure AwaitedAction where
  version : Nat
  actionInfo : ActionInfo
  operationId : OperationId
  sortKey : Nat
  lastWorkerUpdatedTimestamp : Nat
  lastClientKeepaliveTimestamp : Nat
  workerId : Option WorkerId
  state : ActionState
  attempts : Nat
  deriving DecidableEq, Repr

namespace AwaitedAction

def new (operationId : OperationId) (actionInfo : ActionInfo) (now : Nat) : AwaitedAction where
  version := 0
  actionInfo := actionInfo
  operationId := operationId
  sortKey := AwaitedActionSortKey.newWithUniqueKey actionInfo.priority actionInfo.insertTimestamp
  lastWorkerUpdatedTimestamp := now
  lastClientKeepaliveTimestamp := now
  workerId := none
  -- the record in the database carries the operation id where a client's copy has its own
  state := ⟨.queued, operationId, actionInfo.uniqueQualifier.digest⟩
  attempts := 0

def incrementVersion (a : AwaitedAction) : AwaitedAction :=
  { a with version := a.version + 1 }

@[simp] theorem incrementVersion_version (a : AwaitedAction) : a.incrementVersion.version = a.version + 1 :=
  rfl

@[simp] theorem incrementVersion_actionInfo (a : AwaitedAction) :
    a.incrementVersion.actionInfo = a.actionInfo :=
  rfl

@[simp] theorem incrementVersion_operationId (a : AwaitedAction) :
    a.incrementVersion.operationId = a.operationId :=
  rfl

@[simp] theorem incrementVersion_sortKey (a : AwaitedAction) : a.incrementVersion.sortKey = a.sortKey :=
  rfl

@[simp] theorem incrementVersion_state (a : AwaitedAction) : a.incrementVersion.state = a.state :=
  rfl

def workerKeepAlive (a : AwaitedAction) (now : Nat) : AwaitedAction :=
  { a with lastWorkerUpdatedTimestamp := now }

def updateClientKeepAlive (a : AwaitedAction) (now : Nat) : AwaitedAction :=
  { a with lastClientKeepaliveTimestamp := now }

def setClientOperationId (a : AwaitedAction) (clientOperationId : OperationId) : AwaitedAction :=
  { a with state := { a.state with clientOperationId } }

def setWorkerId (a : AwaitedAction) (newMaybeWorkerId : Option WorkerId) (now : Nat) : AwaitedAction :=
  if a.workerId ≠ newMaybeWorkerId then { a with workerId := newMaybeWorkerId }.workerKeepAlive now
  else a

def workerSetState (a : AwaitedAction) (state : ActionState) (now : Nat) : AwaitedAction :=
  { a with state }.workerKeepAlive now

-- What no method but `increment_version` changes: the version, and what is fixed when the record
-- is made.
structure SameRecord (a b : AwaitedAction) : Prop where
  version : b.version = a.version
  actionInfo : b.actionInfo = a.actionInfo
  operationId : b.operationId = a.operationId
  sortKey : b.sortKey = a.sortKey

theorem SameRecord.trans {a b c : AwaitedAction} (hab : SameRecord a b) (hbc : SameRecord b c) : SameRecord a c :=
  ⟨hbc.version.trans hab.version, hbc.actionInfo.trans hab.actionInfo, hbc.operationId.trans hab.operationId,
    hbc.sortKey.trans hab.sortKey⟩

theorem sameRecord_workerKeepAlive (a : AwaitedAction) (now : Nat) : SameRecord a (a.workerKeepAlive now) :=
  ⟨rfl, rfl, rfl, rfl⟩

theorem sameRecord_updateClientKeepAlive (a : AwaitedAction) (now : Nat) :
    SameRecord a (a.updateClientKeepAlive now) :=
  ⟨rfl, rfl, rfl, rfl⟩

theorem sameRecord_setClientOperationId (a : AwaitedAction) (clientOperationId : OperationId) :
    SameRecord a (a.setClientOperationId clientOperationId) :=
  ⟨rfl, rfl, rfl, rfl⟩

theorem sameRecord_setWorkerId (a : AwaitedAction) (newMaybeWorkerId : Option WorkerId) (now : Nat) :
    SameRecord a (a.setWorkerId newMaybeWorkerId now) := by
  unfold setWorkerId
  split
  case isTrue => exact ⟨rfl, rfl, rfl, rfl⟩
  case isFalse => exact ⟨rfl, rfl, rfl, rfl⟩

theorem sameRecord_workerSetState (a : AwaitedAction) (state : ActionState) (now : Nat) :
    SameRecord a (a.workerSetState state now) :=
  ⟨rfl, rfl, rfl, rfl⟩

end AwaitedAction

-- An entry of the sorted sets: the sort key, then the operation id.
structure SortedAwaitedAction where
  sortKey : Nat
  operationId : OperationId
  deriving DecidableEq, Repr

namespace SortedAwaitedAction

def toLexPair (a : SortedAwaitedAction) : Nat ×ₗ Nat :=
  toLex (a.sortKey, a.operationId)

theorem toLexPair_injective : Function.Injective toLexPair := by
  intro a b h
  cases a
  cases b
  simp only [toLexPair, toLex_inj, Prod.mk.injEq] at h
  obtain ⟨rfl, rfl⟩ := h
  rfl

-- `Ord for SortedAwaitedAction`: by sort key, then by operation id.
instance : LinearOrder SortedAwaitedAction :=
  LinearOrder.lift' toLexPair toLexPair_injective

-- The order's laws by name, so that a sort by `≤` refers to them rather than to a proof made for
-- each use.
instance : IsTrans SortedAwaitedAction (· ≤ ·) :=
  inferInstance

instance : Std.Antisymm (· ≤ · : SortedAwaitedAction → SortedAwaitedAction → Prop) :=
  inferInstance

-- `From<&AwaitedAction> for SortedAwaitedAction`.
def ofAwaitedAction (a : AwaitedAction) : SortedAwaitedAction :=
  ⟨a.sortKey, a.operationId⟩

theorem lt_of_sortKey_lt {a b : SortedAwaitedAction} (h : a.sortKey < b.sortKey) : a < b :=
  Prod.Lex.left _ _ h

end SortedAwaitedAction

/-! ## The order of the sort key -/

namespace AwaitedActionSortKey

theorem newWithUniqueKey_eq (p : Int32) (t : UInt32) :
    (newWithUniqueKey p.toInt t.toNat : Int) = (p.toInt + 2 ^ 31) * 2 ^ 32 + (2 ^ 32 - 1 - t.toNat) := by
  have hp := Int32.le_toInt p
  have hp' := Int32.toInt_lt p
  have ht := UInt32.toNat_lt t
  have hmod : (p.toInt + 2 ^ 31) % 2 ^ 32 = p.toInt + 2 ^ 31 := Int.emod_eq_of_lt (by omega) (by omega)
  rw [newWithUniqueKey, hmod, Nat.mod_eq_of_lt ht]
  omega

theorem newWithUniqueKey_lt_iff (p1 p2 : Int32) (t1 t2 : UInt32) :
    newWithUniqueKey p1.toInt t1.toNat < newWithUniqueKey p2.toInt t2.toNat ↔ p1 < p2 ∨ p1 = p2 ∧ t2 < t1 := by
  rw [← Int.ofNat_lt, newWithUniqueKey_eq, newWithUniqueKey_eq, Int32.lt_iff_toInt_lt, ← Int32.toInt_inj,
    UInt32.lt_iff_toNat_lt]
  have := UInt32.toNat_lt t1
  have := UInt32.toNat_lt t2
  omega

theorem newWithUniqueKey_eq_iff (p1 p2 : Int32) (t1 t2 : UInt32) :
    newWithUniqueKey p1.toInt t1.toNat = newWithUniqueKey p2.toInt t2.toNat ↔ p1 = p2 ∧ t1 = t2 := by
  rw [← Int.ofNat_inj, newWithUniqueKey_eq, newWithUniqueKey_eq, ← Int32.toInt_inj, ← UInt32.toNat_inj]
  have := UInt32.toNat_lt t1
  have := UInt32.toNat_lt t2
  omega

theorem sort_key_orders_by_priority_then_insert_time (p1 p2 : Int32) (t1 t2 : UInt32) :
    (newWithUniqueKey p1.toInt t1.toNat < newWithUniqueKey p2.toInt t2.toNat ↔ p1 < p2 ∨ p1 = p2 ∧ t2 < t1) ∧
    (newWithUniqueKey p1.toInt t1.toNat = newWithUniqueKey p2.toInt t2.toNat ↔ p1 = p2 ∧ t1 = t2) ∧
    -- the sorted sets, walked in descending order, meet a higher priority first, and within one
    -- priority the earlier insert
    ∀ (o1 o2 : OperationId) (q1 q2 : ActionUniqueQualifier) (now1 now2 : Nat), (p1 < p2 ∨ p1 = p2 ∧ t2 < t1) →
      SortedAwaitedAction.ofAwaitedAction (AwaitedAction.new o1 ⟨p1.toInt, t1.toNat, q1⟩ now1) <
        SortedAwaitedAction.ofAwaitedAction (AwaitedAction.new o2 ⟨p2.toInt, t2.toNat, q2⟩ now2) := by
  refine ⟨newWithUniqueKey_lt_iff p1 p2 t1 t2, newWithUniqueKey_eq_iff p1 p2 t1 t2, ?_⟩
  intro o1 o2 q1 q2 now1 now2 h
  exact SortedAwaitedAction.lt_of_sortKey_lt ((newWithUniqueKey_lt_iff p1 p2 t1 t2).mpr h)

end AwaitedActionSortKey

end NativeLink
