import NativeLink.Util.EvictingMap.Spec

-- Model of `nativelink-store/src/memory_store.rs`: a store whose entries are byte buffers held in
-- an `EvictingMap`. `StoreKey` is left abstract: the map only uses its order. `BytesWrapper`
-- keeps the default `LenEntry::touch`, which always succeeds.

namespace NativeLink

structure BytesWrapper where
  bytes : List UInt8

instance : LenEntry BytesWrapper :=
  ⟨fun b => b.bytes.length⟩

-- `nativelink_config::stores::MemorySpec`.
structure MemorySpec where
  evictionPolicy : Option EvictionPolicy

structure MemoryStore where
  evictingMap : EvictingMap

namespace MemoryStore

open EvictingMap

-- `EvictionPolicy::default()`: every limit is zero, so nothing is ever evicted.
def emptyPolicy : EvictionPolicy :=
  ⟨0, 0, 0, 0⟩

def new (spec : MemorySpec) : MemoryStore :=
  ⟨EvictingMap.new (spec.evictionPolicy.getD emptyPolicy)⟩

variable {K σ : Type} [LinearOrder K] (store : MemoryStore)

def update (now : Nat) (key : K) (data : List UInt8) : Program K BytesWrapper Unit :=
  discard <| store.evictingMap.insert now key ⟨data⟩

def list (lo hi : Bound K) (handler : σ → K → σ × Bool) (init : σ) : Program K BytesWrapper (σ × Nat) :=
  EvictingMap.range lo hi (fun acc key _ => handler acc key) init

-- `list` on the empty store, which builds the index, `update` of one key twice, and `list` over
-- every key: the key is stored, but the second `update` erased it from the index, so `list` finds
-- nothing. In the calls of the map, `list` is `Op.range` and `update` is `Op.insert`.
theorem list_misses_updated_key :
    ∃ s : State Nat BytesWrapper,
      (MemoryStore.new ⟨none⟩).evictingMap.run
          [(0, .range .unbounded .unbounded), (0, .insert 7 ⟨[1]⟩), (0, .insert 7 ⟨[2]⟩)] = s ∧
        7 ∈ s.lru.keys ∧
        (MemoryStore.list .unbounded .unbounded (fun (acc : List Nat) key => (acc ++ [key], true)) []).run s =
          .ok ([], 0) s := by
  refine ⟨_, rfl, by decide +kernel, ?_⟩
  rw [list, range_run_of_btree ?hb rfl, Finset.sort_empty]
  case hb => decide +kernel
  rfl

def removeEntry (now : Nat) (key : K) : Program K BytesWrapper Bool :=
  store.evictingMap.remove now key

-- `has_with_results`: the sizes of the keys, with every zero digest present with size zero.
def hasWithResults (isZeroDigest : K → Bool) (now : Nat) (keys : List K) :
    Program K BytesWrapper (List (Option Nat)) := do
  let results ← store.evictingMap.sizesForKeys now keys false fun _ => true
  pure (List.zipWith (fun key result => if isZeroDigest key then some 0 else result) keys results)

-- `get_part`, with `none` for the `NotFound` error; a zero digest is an empty stream.
def getPart (isZeroDigest : K → Bool) (now : Nat) (key : K) (offset : Nat) (length : Option Nat) :
    Program K BytesWrapper (Option (List UInt8)) := do
  if isZeroDigest key then return some []
  let some value ← store.evictingMap.get now key true | pure none
  let defaultLen := value.bytes.length - offset
  let length := min (length.getD defaultLen) defaultLen
  pure (some ((value.bytes.drop offset).take length))

end MemoryStore

end NativeLink
