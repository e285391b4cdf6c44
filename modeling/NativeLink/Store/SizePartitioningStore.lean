import NativeLink.Store.ShardStore

-- `has_with_results` of `nativelink-store/src/size_partitioning_store.rs`: the keys are split by
-- their size into the lower and the upper store's batch, both stores are asked, and the answers are
-- put back in the order of the keys by walking the keys beside the upper batch. Also the
-- `has_with_results` of `ShardStore` against what each key's own store reports, in every order its
-- stores finish in.

namespace NativeLink

open StoreTrait

structure SizePartitioningStore (σ : Type) where
  partitionSize : Nat
  lowerStore : σ
  upperStore : σ

namespace SizePartitioningStore

variable {σ : Type}

-- `has_many`: `has_with_results` over results that start as `None`.
def hasMany (storeHas : σ → List StoreTrait.StoreKey → List (Option Nat) → Except Error (List (Option Nat)))
    (store : σ) (digests : List StoreTrait.StoreKey) : Except Error (List (Option Nat)) :=
  storeHas store digests (List.replicate digests.length none)

-- The test of the `partition`: a digest below the partition size goes to the lower store, and
-- everything else to the upper one.
def isLower (partitionSize : Nat) : StoreTrait.StoreKey → Bool
  | .digest digest => digest.sizeBytes < partitionSize
  | .str _ => false

-- `non_digest_sample`: the text of the last key that is not a digest.
def nonDigestSample (keys : List StoreTrait.StoreKey) : Option String :=
  keys.foldl (fun sample key => match key with
    | .str s => some s
    | .digest _ => sample) none

-- The loop over `keys.iter().zip(results.iter_mut())`: a key equal to the next upper digest takes
-- the next upper result, any other key the next lower result.
def merge : List StoreTrait.StoreKey → List StoreTrait.StoreKey → List (Option Nat) → List (Option Nat) →
    Except Error (List (Option Nat))
  | [], _, _, _ => .ok []
  | key :: keys, upperDigests, upperResults, lowerResults =>
    if upperDigests.head? = some key then
      match upperResults with
      | result :: upperResults => (merge keys upperDigests.tail upperResults lowerResults).map (result :: ·)
      | [] => .error ⟨.internal, ["upper_results out of sync with upper_digests"]⟩
    else
      match lowerResults with
      | result :: lowerResults => (merge keys upperDigests upperResults lowerResults).map (result :: ·)
      | [] => .error ⟨.internal, ["lower_results out of sync with lower_digests"]⟩

-- The results past the last key are left as they are. The `Debug` text of the sample is
-- `Str("...")`, its escapes taken as Lean's `String.quote` writes them.
def hasWithResults (storeHas : σ → List StoreTrait.StoreKey → List (Option Nat) → Except Error (List (Option Nat)))
    (s : SizePartitioningStore σ) (keys : List StoreTrait.StoreKey) (results : List (Option Nat)) :
    Except Error (List (Option Nat)) :=
  match nonDigestSample keys with
  | some nonDigest =>
    .error (makeInputErr ("SizePartitioningStore only supports Digest keys, got Str(" ++ nonDigest.quote ++ ")"))
  | none =>
    let (lowerDigests, upperDigests) := keys.partition (isLower s.partitionSize)
    match hasMany storeHas s.lowerStore lowerDigests, hasMany storeHas s.upperStore upperDigests with
    | .error err, .ok _ => .error err
    | .error err, .error upperErr => .error (err.merge upperErr)
    | .ok _, .error upperErr => .error upperErr
    | .ok lowerResults, .ok upperResults =>
      (merge (keys.take results.length) upperDigests upperResults lowerResults).map
        (· ++ results.drop keys.length)

theorem nonDigestSample_digests (digests : List DigestInfo) : nonDigestSample (digests.map .digest) = none := by
  suffices h : ∀ sample, (digests.map StoreTrait.StoreKey.digest).foldl (fun sample key => match key with
      | .str s => some s
      | .digest _ => sample) sample = sample from h none
  induction digests with
  | nil => exact fun _ => rfl
  | cons digest digests ih => exact fun sample => ih sample

section Report

variable {storeHas : σ → List StoreTrait.StoreKey → List (Option Nat) → Except Error (List (Option Nat))}
  (report : σ → StoreTrait.StoreKey → Option Nat)
  (hreport : ∀ store keys results, results.length = keys.length →
    storeHas store keys results = .ok (keys.map (report store)))

theorem merge_partition (partitionSize : Nat) (lower upper : σ) : ∀ keys : List StoreTrait.StoreKey,
    merge keys (keys.filter (not ∘ isLower partitionSize))
        ((keys.filter (not ∘ isLower partitionSize)).map (report upper))
        ((keys.filter (isLower partitionSize)).map (report lower)) =
      .ok (keys.map fun key => report (if isLower partitionSize key then lower else upper) key)
  | [] => rfl
  | key :: keys => by
    have ih := merge_partition partitionSize lower upper keys
    by_cases hkey : isLower partitionSize key = true
    case pos =>
      have hhead : (keys.filter (not ∘ isLower partitionSize)).head? ≠ some key := by
        intro hhead
        have := List.mem_filter.mp (List.mem_of_head? hhead)
        simp [hkey] at this
      rw [List.filter_cons_of_neg (by simp [hkey]), List.filter_cons_of_pos hkey, merge.eq_def]
      dsimp only
      rw [if_neg hhead]
      simp [ih, hkey, Except.map]
    case neg =>
      rw [List.filter_cons_of_pos (by simpa using hkey), List.filter_cons_of_neg hkey, merge.eq_def]
      dsimp only
      rw [if_pos List.head?_cons]
      simp [ih, hkey, Except.map]

include hreport

theorem hasMany_of_report (store : σ) (digests : List StoreTrait.StoreKey) :
    hasMany storeHas store digests = .ok (digests.map (report store)) :=
  hreport _ _ _ (List.length_replicate ..)

theorem hasWithResults_of_report (s : SizePartitioningStore σ) (digests : List DigestInfo)
    (results : List (Option Nat)) (hlen : results.length = digests.length) :
    hasWithResults storeHas s (digests.map .digest) results =
      .ok (digests.map fun digest =>
        report (if digest.sizeBytes < s.partitionSize then s.lowerStore else s.upperStore) (.digest digest)) := by
  rw [hasWithResults, nonDigestSample_digests]
  dsimp only
  rw [List.partition_eq_filter_filter, hasMany_of_report report hreport, hasMany_of_report report hreport]
  dsimp only
  rw [List.take_of_length_le (by simp [hlen]), merge_partition, List.drop_eq_nil_of_le (by simp [hlen])]
  simp [Except.map, isLower]

end Report

end SizePartitioningStore

-- Both stores split a batch and gather the answers back to the keys they belong to. In the shard
-- store each key gets what the store `get_store` picks for it reports, in every order the stores
-- finish in and with keys repeated; in the size-partitioning store each digest gets the answer of
-- the lower store below the partition size and of the upper store from it on, and the walk never
-- goes out of step.
theorem batched_has_agrees_with_routing {σ : Type}
    (storeHas : σ → List StoreTrait.StoreKey → List (Option Nat) → Except Error (List (Option Nat)))
    (report : σ → StoreTrait.StoreKey → Option Nat)
    (hreport : ∀ store keys results, results.length = keys.length →
      storeHas store keys results = .ok (keys.map (report store))) :
    (∀ (defaultHasher : String → UInt64) (spec : List ShardConfig) (stores : List σ) (s : ShardStore σ),
      ShardStore.new spec stores = .ok s →
      ∀ (keys : List StoreTrait.StoreKey) (results : List (Option Nat)) (completionOrder : List Nat),
        results.length = keys.length → completionOrder.Perm (List.range s.weightsAndStores.length) →
        ∃ results', ShardStore.hasWithResults defaultHasher storeHas s keys results completionOrder = .ok results' ∧
          results'.length = keys.length ∧
          ∀ i (hi : i < keys.length), ∃ store, ShardStore.getStore defaultHasher s keys[i] = some store ∧
            results'[i]? = some (report store keys[i])) ∧
    (∀ (s : SizePartitioningStore σ) (digests : List DigestInfo) (results : List (Option Nat)),
      results.length = digests.length →
      SizePartitioningStore.hasWithResults storeHas s (digests.map .digest) results =
        .ok (digests.map fun digest =>
          report (if digest.sizeBytes < s.partitionSize then s.lowerStore else s.upperStore) (.digest digest))) := by
  refine ⟨?_, fun s digests results hlen => SizePartitioningStore.hasWithResults_of_report report hreport s digests results hlen⟩
  intro defaultHasher spec stores s hnew keys results completionOrder hlen horder
  have hw := ShardStore.wellFormed_of_new hnew
  refine ⟨_, ShardStore.hasWithResults_of_report report hreport hw hlen horder, by simp, fun i hi => ?_⟩
  -- the store of every key is in the table
  obtain ⟨sw, hsw⟩ : ∃ sw, s.weightsAndStores[ShardStore.getStoreIndex defaultHasher s keys[i]]? = some sw :=
    ⟨_, List.getElem?_eq_getElem (ShardStore.getStoreIndex_lt hw defaultHasher keys[i])⟩
  have hstore : ShardStore.getStore defaultHasher s keys[i] = some sw.store := by
    rw [ShardStore.getStore, hsw]
    rfl
  refine ⟨sw.store, hstore, ?_⟩
  simp [List.getElem?_eq_getElem hi, hstore]

-- Of two digests, the one below the partition size is answered by the lower store.
theorem batched_has_agrees_with_routing_of_two_digests :
    SizePartitioningStore.hasWithResults (fun (store : Bool) keys _ => .ok (keys.map fun _ => if store then some 1 else some 2))
        ⟨5, true, false⟩ ([⟨0, 1⟩, ⟨0, 9⟩].map .digest) [none, none] = .ok [some 1, some 2] := by
  rw [(batched_has_agrees_with_routing (fun (store : Bool) keys _ => .ok (keys.map fun _ => if store then some 1 else some 2))
    (fun store _ => if store then some 1 else some 2) (fun _ _ _ _ => rfl)).2 ⟨5, true, false⟩ [⟨0, 1⟩, ⟨0, 9⟩] [none, none] rfl]
  rfl

end NativeLink
