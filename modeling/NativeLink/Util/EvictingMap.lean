import NativeLink.Lib.Lru
import NativeLink.Lib.Bound
import NativeLink.Lib.Invariant
import Mathlib

-- Model of `nativelink-util/src/evicting_map.rs`.
--
-- Every public method takes the state mutex for its whole run, so a method is one atomic
-- transition of `State`; the methods are `EStateM` programs whose error channel is a panic. A
-- panic unwinds through the mutex guard and leaves the state as it was at the panic point, which is
-- what `EStateM` keeps in its error result. `anchor_time.elapsed().as_secs()` is the argument
-- `now`, and the outcome of each `LenEntry::touch` call is an argument as well.

open Lru

namespace NativeLink

-- `nativelink_config::stores::EvictionPolicy`.
structure EvictionPolicy where
  maxBytes : Nat
  evictBytes : Nat
  maxSeconds : UInt32
  maxCount : Nat
  deriving Repr

-- The part of the `LenEntry` trait the map reads; `touch` and `unref` are effects, modelled as
-- call outcomes and as the `unrefd` log of the state.
class LenEntry (T : Type*) where
  len : T → Nat

namespace EvictingMap

inductive Panic
  -- `sum_store_size -= len` below zero: the overflow check of a debug build.
  | subtractOverflow
  -- `.expect("Tried to peek() then pop() but failed")` in `evict_items`.
  | expectFailed
  -- `.unwrap()` on `lru.peek(key)` in `range`.
  | unwrapNone
  -- `BTreeSet::range` with a start past its end.
  | rangeInvalid
  deriving DecidableEq, Repr

structure EvictionItem (T : Type*) where
  secondsSinceAnchor : Int32
  data : T

-- `State`, without its metrics counters, which nothing reads. `unrefd` lists, in order, the
-- entries handed to `LenEntry::unref`, that is every entry that has left the map.
structure State (K T : Type*) where
  lru : LruCache K (EvictionItem T)
  btree : Option (Finset K)
  sumStoreSize : Nat
  unrefd : List T

def State.new {K T : Type*} : State K T :=
  ⟨.unbounded, none, 0, []⟩

end EvictingMap

structure EvictingMap where
  maxBytes : Nat
  evictBytes : Nat
  maxSeconds : Int32
  maxCount : Nat
  deriving Repr

namespace EvictingMap

def new (config : EvictionPolicy) : EvictingMap where
  maxBytes := config.maxBytes
  evictBytes := config.evictBytes
  maxSeconds := config.maxSeconds.toInt32
  maxCount := config.maxCount

abbrev Program (K T α : Type) :=
  EStateM Panic (State K T) α

def u64Max : Nat :=
  2 ^ 64 - 1

variable {K T σ : Type} [LinearOrder K] [LenEntry T]

def itemLen (item : EvictionItem T) : Nat :=
  LenEntry.len item.data

namespace State

def remove (key : K) (item : EvictionItem T) : Program K T Unit := fun s =>
  let s := { s with btree := s.btree.map (·.erase key) }
  if s.sumStoreSize < itemLen item then .error .subtractOverflow s
  else .ok () { s with sumStoreSize := s.sumStoreSize - itemLen item, unrefd := s.unrefd ++ [item.data] }

def put (key : K) (item : EvictionItem T) : Program K T (Option T) := do
  modify fun (s : State K T) => { s with btree := s.btree.map (insert key) }
  let old ← modifyGet fun (s : State K T) => ((s.lru.put key item).1, { s with lru := (s.lru.put key item).2 })
  match old with
  | some oldItem => do
    remove key oldItem
    pure (some oldItem.data)
  | none => pure none

end State

variable (m : EvictingMap)

def shouldEvict (now lruLen : Nat) (peekEntry : EvictionItem T) (sumStoreSize maxBytes : Nat) : Bool :=
  let isOverSize := maxBytes != 0 && decide (sumStoreSize ≥ maxBytes)
  let evictOlderThanSeconds := Int32.ofNat now - m.maxSeconds
  let oldItemExists := m.maxSeconds != 0 && decide (peekEntry.secondsSinceAnchor < evictOlderThanSeconds)
  let isOverCount := m.maxCount != 0 && decide (lruLen > m.maxCount)
  isOverSize || oldItemExists || isOverCount

-- The `while` loop of `evict_items`. Each turn pops an entry, so the length of the LRU at the start
-- is enough fuel for the loop to stop by its own test.
def evictLoop (now maxBytes : Nat) : Nat → Program K T Unit
  | 0 => pure ()
  | fuel + 1 => do
    let s ← getThe (State K T)
    let some (_, peekEntry) := s.lru.peekLru | pure ()
    if m.shouldEvict now s.lru.len peekEntry s.sumStoreSize maxBytes then
      let some ((key, item), lru) := s.lru.popLru | throw .expectFailed
      set { s with lru }
      State.remove key item
      evictLoop now maxBytes fuel

def evictItems (now : Nat) : Program K T Unit := do
  let s ← getThe (State K T)
  let some (_, peekEntry) := s.lru.peekLru | pure ()
  let maxBytes :=
    if m.maxBytes != 0 && m.evictBytes != 0 &&
        m.shouldEvict now s.lru.len peekEntry s.sumStoreSize m.maxBytes then
      if m.maxBytes > m.evictBytes then m.maxBytes - m.evictBytes else 0
    else m.maxBytes
  evictLoop m now maxBytes s.lru.len

def touchEntry (now : Nat) (key : K) : Program K T Unit :=
  modify fun (s : State K T) =>
    { s with lru := s.lru.modify key fun e => { e with secondsSinceAnchor := Int32.ofNat now } }

-- `lru.pop_entry(key)` followed by `State::remove`, shared by the three places that evict one
-- looked-up entry.
def popAndRemove (key : K) : Program K T Unit := do
  let s ← getThe (State K T)
  let (some item, lru) := s.lru.pop key | pure ()
  set { s with lru }
  State.remove key item

-- One turn of the loop of `sizes_for_keys`; `touched` is the outcome of `touch()`, which is only
-- called when the entry is neither expired nor peeked.
def sizeForKeyStep (now lruLen : Nat) (peek touched : Bool) (key : K) :
    Program K T (Option Nat) := do
  let s ← getThe (State K T)
  let some entry := s.lru.peek key | pure none
  -- `get_mut` promotes the entry, `peek_mut` does not.
  if !peek then set { s with lru := s.lru.promote key }
  let shouldEvict := m.shouldEvict now lruLen entry 0 u64Max
  if !shouldEvict && peek then
    pure (some (itemLen entry))
  else if !shouldEvict && touched then
    touchEntry now key
    pure (some (itemLen entry))
  else
    popAndRemove key
    pure none

def sizesForKeysLoop (now lruLen : Nat) (peek : Bool) (touched : Nat → Bool) :
    Nat → List K → Program K T (List (Option Nat))
  | _, [] => pure []
  | i, key :: keys => do
    let r ← m.sizeForKeyStep now lruLen peek (touched i) key
    let rs ← sizesForKeysLoop now lruLen peek touched (i + 1) keys
    pure (r :: rs)

def sizesForKeys (now : Nat) (keys : List K) (peek : Bool) (touched : Nat → Bool) :
    Program K T (List (Option Nat)) := do
  let lruLen := (← getThe (State K T)).lru.len
  m.sizesForKeysLoop now lruLen peek touched 0 keys

def sizeForKey (now : Nat) (key : K) (touched : Bool) : Program K T (Option Nat) := do
  let results ← m.sizesForKeys now [key] false fun _ => touched
  pure (results.head?.join)

def get (now : Nat) (key : K) (touched : Bool) : Program K T (Option T) := do
  m.evictItems now
  let s ← getThe (State K T)
  let some entry := s.lru.peek key | pure none
  set { s with lru := s.lru.promote key }
  if touched then
    touchEntry now key
    pure (some entry.data)
  else
    popAndRemove key
    pure none

-- One turn of the loop of `inner_insert_many`.
def insertStep (now : Nat) (secondsSinceAnchor : Int32) (key : K) (data : T) :
    Program K T (Option T) := do
  let newItemSize := LenEntry.len data
  let old ← State.put key ⟨secondsSinceAnchor, data⟩
  modify fun (s : State K T) => { s with sumStoreSize := s.sumStoreSize + newItemSize }
  m.evictItems now
  pure old

def innerInsertMany (now : Nat) (secondsSinceAnchor : Int32) : List (K × T) → Program K T (List T)
  | [] => pure []
  | (key, data) :: inserts => do
    let old ← m.insertStep now secondsSinceAnchor key data
    let replaced ← innerInsertMany now secondsSinceAnchor inserts
    pure (old.toList ++ replaced)

def insertWithTime (now : Nat) (key : K) (data : T) (secondsSinceAnchor : Int32) :
    Program K T (Option T) := do
  let results ← m.innerInsertMany now secondsSinceAnchor [(key, data)]
  pure results.head?

def insert (now : Nat) (key : K) (data : T) : Program K T (Option T) :=
  m.insertWithTime now key data (Int32.ofNat now)

def insertMany (now : Nat) (inserts : List (K × T)) : Program K T (List T) :=
  -- An empty batch returns without taking the lock, so without evicting either.
  if inserts.isEmpty then pure []
  else m.innerInsertMany now (Int32.ofNat now) inserts

def innerRemove (now : Nat) (key : K) : Program K T Bool := do
  m.evictItems now
  let s ← getThe (State K T)
  let (some entry, lru) := s.lru.pop key | pure false
  set { s with lru }
  State.remove key entry
  pure true

def remove (now : Nat) (key : K) : Program K T Bool :=
  m.innerRemove now key

def removeIf (now : Nat) (key : K) (cond : T → Bool) : Program K T Bool := do
  let s ← getThe (State K T)
  let some entry := s.lru.peek key | pure false
  -- `lru.get` promotes the entry whatever the condition says.
  set { s with lru := s.lru.promote key }
  if !cond entry.data then pure false
  else m.innerRemove now key

def rebuildBtreeIndex : Program K T Unit :=
  modify fun (s : State K T) => { s with btree := some s.lru.keys.toFinset }

def enableFiltering : Program K T Unit := do
  let s ← getThe (State K T)
  if s.btree.isNone then rebuildBtreeIndex

-- The loop of `range` over the index keys in the requested bounds, ascending. `handler` is the
-- `FnMut` closure, with its captured state `σ` threaded through.
def rangeLoop (lru : LruCache K (EvictionItem T)) (handler : σ → K → T → σ × Bool) :
    List K → σ → Nat → Except Panic (σ × Nat)
  | [], acc, count => .ok (acc, count)
  | key :: keys, acc, count =>
    match lru.peek key with
    | none => .error .unwrapNone
    | some item =>
      let (acc, shouldContinue) := handler acc key item.data
      if shouldContinue then rangeLoop lru handler keys acc (count + 1) else .ok (acc, count)

def range (lo hi : Bound K) (handler : σ → K → T → σ × Bool) (init : σ) :
    Program K T (σ × Nat) := do
  let s ← getThe (State K T)
  if s.btree.isNone then rebuildBtreeIndex
  let s ← getThe (State K T)
  let btree := s.btree.getD ∅
  if !Bound.rangeValid lo hi then throw .rangeInvalid
  let keys := (btree.sort (· ≤ ·)).filter (Bound.contains lo hi)
  match rangeLoop s.lru handler keys init 0 with
  | .ok result => pure result
  | .error e => throw e

-- A call to one of the public methods, with the arguments that decide its effect on the state.
inductive Op (K T : Type)
  | insert (key : K) (data : T)
  | insertWithTime (key : K) (data : T) (secondsSinceAnchor : Int32)
  | insertMany (inserts : List (K × T))
  | get (key : K) (touched : Bool)
  | sizeForKey (key : K) (touched : Bool)
  | sizesForKeys (keys : List K) (peek : Bool) (touched : Nat → Bool)
  | remove (key : K)
  | removeIf (key : K) (cond : T → Bool)
  | range (lo hi : Bound K)
  | enableFiltering

-- The effect of a call on the state. The effect of `range` does not depend on the handler, which
-- only sees the entries; a handler that never stops is the one that reads them all.
def Op.exec (now : Nat) : Op K T → Program K T Unit
  | .insert key data => discard <| m.insert now key data
  | .insertWithTime key data secs => discard <| m.insertWithTime now key data secs
  | .insertMany inserts => discard <| m.insertMany now inserts
  | .get key touched => discard <| m.get now key touched
  | .sizeForKey key touched => discard <| m.sizeForKey now key touched
  | .sizesForKeys keys peek touched => discard <| m.sizesForKeys now keys peek touched
  | .remove key => discard <| m.remove now key
  | .removeIf key cond => discard <| m.removeIf now key cond
  | .range lo hi => discard <| EvictingMap.range lo hi (fun (_ : Unit) _ _ => ((), true)) ()
  | .enableFiltering => EvictingMap.enableFiltering

-- A call runs to its end or panics; either way the next call sees the state it left.
def step (s : State K T) (call : Nat × Op K T) : State K T :=
  ((call.2.exec m call.1).run s).state

def run (calls : List (Nat × Op K T)) : State K T :=
  calls.foldl m.step State.new

end EvictingMap
end NativeLink
