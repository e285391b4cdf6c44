import NativeLink.Util.EvictingMap.Spec

-- Induction over the runs of the map. The methods change the state in a few ways only: they
-- promote or touch an entry, hand an entry just popped from the LRU to `State::remove`, `put` an
-- entry and add its length as `inner_insert_many` does, rebuild the index, and run the loop of
-- `range`. `Invariant I bad` asks that `I` survive each of these; then every method preserves `I`
-- and raises nothing `bad`, and `I` holds in every state a run of calls reaches.

namespace NativeLink.EvictingMap

open Lru EStateM

variable {K T : Type} [LinearOrder K] [LenEntry T] {m : EvictingMap} {now : Nat} {key : K}
  {I : State K T → Prop} {bad : Panic → Prop}

structure Invariant (I : State K T → Prop) (bad : Panic → Prop) : Prop where
  promote : ∀ s key, I s → I { s with lru := s.lru.promote key }
  touch : ∀ now key, Preserves I bad (touchEntry now key : Program K T Unit)
  removePopped : ∀ s key item lru, I s → s.lru.pop key = (some item, lru) →
    Ends I bad ((State.remove key item).run { s with lru })
  putAdd : ∀ key item {α : Type} (k : Option T → Program K T α), (∀ old, Preserves I bad (k old)) →
    Preserves I bad (do
      let old ← State.put key item
      modify fun (s : State K T) => { s with sumStoreSize := s.sumStoreSize + itemLen item }
      k old)
  rebuild : Preserves I bad (rebuildBtreeIndex : Program K T Unit)
  rangeInvalid : ¬bad .rangeInvalid
  rangeLoopSafe : ∀ s {σ : Type} (handler : σ → K → T → σ × Bool) (lo hi : Bound K) (init : σ) e,
    I s → rangeLoop s.lru handler (((s.btree.getD ∅).sort (· ≤ ·)).filter (Bound.contains lo hi))
      init 0 = .error e → ¬bad e

namespace Invariant

variable (hI : Invariant I bad)
include hI

theorem evictLoop (maxBytes : Nat) :
    ∀ fuel, Preserves I bad (m.evictLoop now maxBytes fuel : Program K T Unit)
  | 0 => Preserves.pure ()
  | fuel + 1 => Preserves.getThe_bind fun s hs => by
    split
    case h_2 => exact hs
    case h_1 peekEntry hpeek =>
      split
      case isFalse => exact hs
      case isTrue =>
        split
        case h_1 key item lru hpop =>
          rw [run_bind_of_ok (run_set _ _)]
          exact (hI.removePopped s key item lru hs (LruCache.pop_of_popLru hpop)).bind_preserves
            fun _ => evictLoop maxBytes fuel
        case h_2 hnone =>
          obtain ⟨_, hpop⟩ := LruCache.popLru_of_peekLru hpeek
          exact (hnone _ _ _ hpop).elim

theorem evictItems : Preserves I bad (m.evictItems now : Program K T Unit) :=
  Preserves.getThe_bind fun s hs => by
    split
    case h_1 => exact hI.evictLoop _ _ s hs
    case h_2 => exact hs

theorem popAndRemove : Preserves I bad (popAndRemove key : Program K T Unit) :=
  Preserves.getThe_bind fun s hs => by
    split
    case h_1 item lru hpop =>
      rw [run_bind_of_ok (run_set _ _)]
      exact hI.removePopped s key item lru hs hpop
    case h_2 => exact hs

theorem sizeForKeyStep (lruLen : Nat) (peek touched : Bool) :
    Preserves I bad (m.sizeForKeyStep now lruLen peek touched key : Program K T (Option Nat)) :=
  Preserves.getThe_bind fun s hs => by
    split
    case h_2 => exact hs
    case h_1 entry _ =>
      refine Preserves.ite (fun _ => (Preserves.set (hI.promote s key hs)).bind fun _ => ?_)
        (fun _ => ?_) s hs
      all_goals
        exact Preserves.ite (fun _ => Preserves.pure _) fun _ =>
          Preserves.ite (fun _ => (hI.touch now key).bind fun _ => Preserves.pure _)
            fun _ => hI.popAndRemove.bind fun _ => Preserves.pure _

theorem sizesForKeysLoop (lruLen : Nat) (peek : Bool) (touched : Nat → Bool) :
    ∀ i keys, Preserves I bad
      (m.sizesForKeysLoop now lruLen peek touched i keys : Program K T (List (Option Nat)))
  | _, [] => Preserves.pure _
  | i, _ :: keys =>
    (hI.sizeForKeyStep lruLen peek (touched i)).bind fun _ =>
      (sizesForKeysLoop lruLen peek touched (i + 1) keys).bind fun _ => Preserves.pure _

theorem sizesForKeys (keys : List K) (peek : Bool) (touched : Nat → Bool) :
    Preserves I bad (m.sizesForKeys now keys peek touched : Program K T _) :=
  Preserves.getThe_bind fun s hs => hI.sizesForKeysLoop _ peek touched 0 keys s hs

theorem sizeForKey (touched : Bool) : Preserves I bad (m.sizeForKey now key touched : Program K T _) :=
  (hI.sizesForKeys [key] false _).bind fun _ => Preserves.pure _

theorem get (touched : Bool) : Preserves I bad (m.get now key touched : Program K T _) :=
  hI.evictItems.bind fun _ => Preserves.getThe_bind fun s hs => by
    split
    case h_2 => exact hs
    case h_1 entry _ =>
      refine ((Preserves.set (hI.promote s key hs)).bind fun _ => Preserves.ite ?_ ?_) s hs
      case refine_1 => exact fun _ => (hI.touch now key).bind fun _ => Preserves.pure _
      case refine_2 => exact fun _ => hI.popAndRemove.bind fun _ => Preserves.pure _

theorem insertStep (secondsSinceAnchor : Int32) (data : T) :
    Preserves I bad (m.insertStep now secondsSinceAnchor key data : Program K T (Option T)) :=
  hI.putAdd key ⟨secondsSinceAnchor, data⟩ _ fun _ => hI.evictItems.bind fun _ => Preserves.pure _

theorem innerInsertMany (secondsSinceAnchor : Int32) :
    ∀ inserts, Preserves I bad (m.innerInsertMany now secondsSinceAnchor inserts : Program K T (List T))
  | [] => Preserves.pure _
  | (_, data) :: inserts =>
    (hI.insertStep secondsSinceAnchor data).bind fun _ =>
      (innerInsertMany secondsSinceAnchor inserts).bind fun _ => Preserves.pure _

theorem insertWithTime (data : T) (secondsSinceAnchor : Int32) :
    Preserves I bad (m.insertWithTime now key data secondsSinceAnchor) :=
  (hI.innerInsertMany secondsSinceAnchor _).bind fun _ => Preserves.pure _

theorem insertMany (inserts : List (K × T)) : Preserves I bad (m.insertMany now inserts) :=
  Preserves.ite (fun _ => Preserves.pure _) fun _ => hI.innerInsertMany _ inserts

theorem innerRemove : Preserves I bad (m.innerRemove now key : Program K T Bool) :=
  hI.evictItems.bind fun _ => Preserves.getThe_bind fun s hs => by
    split
    case h_1 entry lru hpop =>
      rw [run_bind_of_ok (run_set _ _)]
      exact (hI.removePopped s key entry lru hs hpop).bind_preserves fun _ => Preserves.pure _
    case h_2 => exact hs

theorem removeIf (cond : T → Bool) : Preserves I bad (m.removeIf now key cond : Program K T Bool) :=
  Preserves.getThe_bind fun s hs => by
    split
    case h_2 => exact hs
    case h_1 entry _ =>
      exact ((Preserves.set (hI.promote s key hs)).bind fun _ =>
        Preserves.ite (fun _ => Preserves.pure _) fun _ => hI.innerRemove) s hs

theorem enableFiltering : Preserves I bad (enableFiltering : Program K T Unit) :=
  Preserves.getThe_bind fun s hs => Preserves.ite (fun _ => hI.rebuild) (fun _ => Preserves.pure _) s hs

theorem range {σ : Type} (lo hi : Bound K) (handler : σ → K → T → σ × Bool) (init : σ) :
    Preserves I bad (EvictingMap.range lo hi handler init : Program K T _) :=
  Preserves.getThe_bind fun s hs => by
    refine Preserves.ite (fun _ => hI.rebuild.bind fun _ => ?_) (fun _ => ?_) s hs
    all_goals
      refine Preserves.getThe_bind fun s hs =>
        Preserves.ite (fun _ => Preserves.throw hI.rangeInvalid) (fun _ => ?_) s hs
      dsimp only
      split
      case h_1 => exact Preserves.pure _
      case h_2 e he => exact Preserves.throw (hI.rangeLoopSafe s handler lo hi init e hs he)

theorem exec (op : Op K T) : Preserves I bad (op.exec m now) := by
  cases op
  case insert key data => exact (hI.insertWithTime data _).discard
  case insertWithTime key data secs => exact (hI.insertWithTime data secs).discard
  case insertMany inserts => exact (hI.insertMany inserts).discard
  case get key touched => exact (hI.get touched).discard
  case sizeForKey key touched => exact (hI.sizeForKey touched).discard
  case sizesForKeys keys peek touched => exact (hI.sizesForKeys keys peek touched).discard
  case remove key => exact hI.innerRemove.discard
  case removeIf key cond => exact (hI.removeIf cond).discard
  case range lo hi => exact (hI.range lo hi _ ()).discard
  case enableFiltering => exact hI.enableFiltering

theorem run (h0 : I State.new) (calls : List (Nat × Op K T)) : I (m.run calls) :=
  fold_inv (I := I) m.step (fun s call hs => (hI.exec call.2 s hs).state) calls State.new h0

theorem exec_not_bad (h0 : I State.new) (calls : List (Nat × Op K T)) (op : Op K T) {e : Panic}
    {s' : State K T} (h : (op.exec m now).run (m.run calls) = .error e s') : ¬bad e := by
  have hends := (hI.exec op : Preserves I bad (op.exec m now)) _ (hI.run (m := m) h0 calls)
  rw [h] at hends
  exact hends.2

end Invariant

end NativeLink.EvictingMap
