import NativeLink.Lib.BinarySearch
import NativeLink.Util.StoreTrait
import Mathlib

-- The sharding of `nativelink-store/src/shard_store.rs`. `ShardStore::new` turns the weights of
-- the configuration into a table of 32-bit bounds, one per store and rising, the last one
-- `u32::MAX`; `get_store_index` maps a key to a 32-bit value and sends it to the first store whose
-- bound is not below it, by `binary_search_by_key`. `has_with_results` splits a batch of keys by
-- store and gathers the answers back in the order the stores finish.

namespace NativeLink

open StoreTrait

-- `ShardConfig`, of which `new` reads the weight.
structure ShardConfig where
  weight : Option UInt32
  deriving DecidableEq, Repr

structure StoreAndWeight (σ : Type) where
  weight : Nat
  store : σ

structure ShardStore (σ : Type) where
  weightsAndStores : List (StoreAndWeight σ)

namespace ShardStore

variable {σ : Type}

def u32Max : Nat := 2 ^ 32 - 1

/-! ## The table -/

-- `shard_config.weight.unwrap_or(1)`.
def weightOf (c : ShardConfig) : Nat :=
  (c.weight.getD 1).toNat

-- `total_weight`, the `u64` sum of the weights.
def totalWeight (spec : List ShardConfig) : Nat :=
  (spec.map weightOf).sum

-- `(u64::from(u32::MAX) * weight / total_weight) as u32`.
def scaledWeight (totalWeight weight : Nat) : Nat :=
  u32Max * weight / totalWeight % 2 ^ 32

-- The share of each store, in the order of the configuration.
def scaledWeights (spec : List ShardConfig) : List Nat :=
  spec.map fun c => scaledWeight (totalWeight spec) (weightOf c)

-- The running sums of the `scan`, whose `*state += weight` is a `u32` addition.
def scan : Nat → List Nat → Except Failure (List Nat)
  | _, [] => .ok []
  | state, weight :: weights =>
    if state + weight > u32Max then .error (.panic "attempt to add with overflow")
    else (scan (state + weight) weights).map ((state + weight) :: ·)

-- The store the `zip` and `map` at the end of `new` build.
def ofWeights (weights : List Nat) (stores : List σ) : ShardStore σ :=
  ⟨(weights.zip stores).map fun (weight, store) => ⟨weight, store⟩⟩

def new (spec : List ShardConfig) (stores : List σ) : Except Failure (ShardStore σ) := do
  if spec.length ≠ stores.length then throw (.error "Config shards do not match stores length")
  if spec.isEmpty then throw (.error "ShardStore must have at least one store")
  if totalWeight spec > u64Max then throw (.panic "attempt to add with overflow")
  if totalWeight spec = 0 then throw (.panic "attempt to divide by zero")
  let weights ← scan 0 (scaledWeights spec)
  -- `*weights.last_mut().unwrap() = u32::MAX`
  let weights := weights.dropLast ++ [u32Max]
  pure (ofWeights weights stores)

/-! ## Routing a key -/

-- `packed_hash()`: the 32 bytes of the hash, the most significant first.
def packedHashBytes (packedHash : Nat) : List UInt8 :=
  (List.range 32).map fun k => (packedHash / 256 ^ (31 - k)).toUInt8

-- `size_bytes.to_le_bytes()`.
def sizeLeBytes (sizeBytes : Nat) : List UInt8 :=
  (List.range 8).map fun k => (sizeBytes / 256 ^ k).toUInt8

-- `u32::from_le_bytes(bytes[i..i + 4])`.
def fromLeBytes (bytes : List UInt8) (i : Nat) : UInt32 :=
  ((bytes.drop i).take 4).foldr (fun b word => b.toUInt32 ||| word <<< 8) 0

-- The 32-bit value of a key: the words of a digest's hash and size xor'ed together, or the top
-- half of the `DefaultHasher` hash of a text, which is taken as a parameter.
def keyValue (defaultHasher : String → UInt64) : StoreTrait.StoreKey → UInt32
  | .digest digest =>
    let hash := packedHashBytes digest.packedHash
    let sizeBytes := sizeLeBytes digest.sizeBytes
    ([0, 4, 8, 12, 16, 20, 24, 28].map (fromLeBytes hash) ++ [0, 4].map (fromLeBytes sizeBytes)).foldl
      (· ^^^ ·) 0
  | .str s => (defaultHasher s >>> 32).toUInt32

-- The binary search of `get_store_index`, with `unwrap_or_else(|index| index)`.
def indexOfKey (s : ShardStore σ) (key : Nat) : Nat :=
  match BinarySearch.binarySearchByKey key StoreAndWeight.weight s.weightsAndStores with
  | .ok index => index
  | .error index => index

def getStoreIndex (defaultHasher : String → UInt64) (s : ShardStore σ) (storeKey : StoreTrait.StoreKey) : Nat :=
  indexOfKey s (keyValue defaultHasher storeKey).toNat

/-! ## The table `new` builds -/

section Table

variable {spec : List ShardConfig} {stores : List σ} {s : ShardStore σ} {T w : Nat}

-- What `new` guarantees of the table `get_store_index` searches: bounds that rise and end at
-- `u32::MAX`.
structure WellFormed (s : ShardStore σ) : Prop where
  ne_nil : s.weightsAndStores ≠ []
  sorted : s.weightsAndStores.Pairwise fun x y => x.weight ≤ y.weight
  last : ∀ x, s.weightsAndStores.getLast? = some x → x.weight = u32Max

theorem weightOf_le (c : ShardConfig) : weightOf c ≤ u32Max := by
  have := (c.weight.getD 1).toNat_lt
  unfold weightOf u32Max
  omega

theorem mul_weightOf_le (c : ShardConfig) : u32Max * weightOf c ≤ u64Max :=
  calc u32Max * weightOf c ≤ u32Max * u32Max := Nat.mul_le_mul_left _ (weightOf_le c)
    _ ≤ u64Max := by decide

theorem totalWeight_le (h : spec.length ≤ 2 ^ 32) : totalWeight spec ≤ u64Max := by
  have hsum : totalWeight spec ≤ spec.length * u32Max := by
    have := List.sum_le_card_nsmul (spec.map weightOf) u32Max (by simpa using fun c _ => weightOf_le c)
    simpa [totalWeight] using this
  calc totalWeight spec ≤ spec.length * u32Max := hsum
    _ ≤ 2 ^ 32 * u32Max := Nat.mul_le_mul_right _ h
    _ ≤ u64Max := by decide

theorem scaledWeight_le (T w : Nat) : scaledWeight T w ≤ u32Max * w / T :=
  Nat.mod_le _ _

theorem scaledWeight_eq (hw : w ≤ T) : scaledWeight T w = u32Max * w / T := by
  have hle : u32Max * w / T ≤ u32Max :=
    Nat.div_le_of_le_mul (by rw [Nat.mul_comm T]; exact Nat.mul_le_mul_left _ hw)
  exact Nat.mod_eq_of_lt (Nat.lt_of_le_of_lt hle (by decide))

theorem scaledWeight_mul_le (T w : Nat) : scaledWeight T w * T ≤ u32Max * w :=
  le_trans (Nat.mul_le_mul_right T (scaledWeight_le T w)) (Nat.div_mul_le_self _ _)

theorem lt_scaledWeight_mul (hT : 0 < T) (hw : w ≤ T) : u32Max * w < scaledWeight T w * T + T := by
  rw [scaledWeight_eq hw]
  exact Nat.lt_div_mul_add hT

theorem sum_scaledWeight_mul_le (T : Nat) :
    ∀ ws : List Nat, (ws.map (scaledWeight T)).sum * T ≤ u32Max * ws.sum
  | [] => by simp
  | w :: ws => by
    have hw := scaledWeight_mul_le T w
    have hws := sum_scaledWeight_mul_le T ws
    simp only [List.map_cons, List.sum_cons, Nat.add_mul, Nat.mul_add]
    omega

theorem sum_scaledWeight_mul_ge (hT : 0 < T) :
    ∀ ws : List Nat, (∀ w ∈ ws, w ≤ T) →
      u32Max * ws.sum + ws.length ≤ (ws.map (scaledWeight T)).sum * T + ws.length * T
  | [], _ => by simp
  | w :: ws, hle => by
    have hw := lt_scaledWeight_mul hT (hle w List.mem_cons_self)
    have hws := sum_scaledWeight_mul_ge hT ws fun x hx => hle x (List.mem_cons_of_mem w hx)
    simp only [List.map_cons, List.sum_cons, List.length_cons, Nat.add_mul, Nat.mul_add, Nat.one_mul]
    omega

theorem scaledWeights_eq (spec : List ShardConfig) :
    scaledWeights spec = (spec.map weightOf).map (scaledWeight (totalWeight spec)) := by
  simp [scaledWeights]

theorem sum_scaledWeights_le (hT : 0 < totalWeight spec) : (scaledWeights spec).sum ≤ u32Max := by
  have h := sum_scaledWeight_mul_le (totalWeight spec) (spec.map weightOf)
  rw [← scaledWeights_eq] at h
  exact Nat.le_of_mul_le_mul_right (by simpa [totalWeight] using h) hT

theorem scan_eq : ∀ (state : Nat) (weights : List Nat), state + weights.sum ≤ u32Max →
    scan state weights = .ok ((List.range weights.length).map fun i => state + (weights.take (i + 1)).sum)
  | state, [], _ => rfl
  | state, w :: ws, h => by
    have hle : state + w + ws.sum ≤ u32Max := by simp at h; omega
    rw [scan, if_neg (by omega), scan_eq (state + w) ws hle]
    simp [List.range_succ_eq_map, Except.map, Nat.add_assoc]

theorem map_weight_ofWeights {weights : List Nat} (h : weights.length = stores.length) :
    (ofWeights weights stores).weightsAndStores.map (·.weight) = weights := by
  rw [ofWeights, List.map_map]
  exact List.map_fst_zip (Nat.le_of_eq h)

theorem map_store_ofWeights {weights : List Nat} (h : weights.length = stores.length) :
    (ofWeights weights stores).weightsAndStores.map (·.store) = stores := by
  rw [ofWeights, List.map_map]
  exact List.map_snd_zip (Nat.le_of_eq h.symm)

theorem new_eq (spec : List ShardConfig) (stores : List σ) :
    new spec stores =
      if spec.length ≠ stores.length then .error (.error "Config shards do not match stores length")
      else if spec = [] then .error (.error "ShardStore must have at least one store")
      else if totalWeight spec > u64Max then .error (.panic "attempt to add with overflow")
      else if totalWeight spec = 0 then .error (.panic "attempt to divide by zero")
      else (scan 0 (scaledWeights spec)).map fun sums => ofWeights (sums.dropLast ++ [u32Max]) stores := by
  unfold new
  dsimp only
  simp only [List.isEmpty_iff]
  split_ifs <;> rfl

theorem new_of_checks (hlen : spec.length = stores.length) (hne : spec ≠ []) (hmax : totalWeight spec ≤ u64Max)
    (hT : 0 < totalWeight spec) :
    new spec stores =
      (scan 0 (scaledWeights spec)).map fun sums => ofWeights (sums.dropLast ++ [u32Max]) stores := by
  rw [new_eq, if_neg (by simpa using hlen), if_neg hne, if_neg (by omega), if_neg (by omega)]

theorem new_eq_ok : new spec stores = .ok s ↔
    spec.length = stores.length ∧ spec ≠ [] ∧ totalWeight spec ≤ u64Max ∧ 0 < totalWeight spec ∧
      ∃ sums, scan 0 (scaledWeights spec) = .ok sums ∧ s = ofWeights (sums.dropLast ++ [u32Max]) stores := by
  rw [new_eq]
  split_ifs with hlen hne hmax hT
  case pos => simp [hlen]
  case pos => simp [hne]
  case pos => simp; omega
  case pos => simp [hT]
  case neg =>
    cases hscan : scan 0 (scaledWeights spec) with
    | error e => simp [Except.map]
    | ok sums =>
      simp only [Except.map, Except.ok.injEq]
      constructor
      case mp =>
        rintro rfl
        exact ⟨by simpa using hlen, hne, by omega, by omega, sums, rfl, rfl⟩
      case mpr =>
        rintro ⟨-, -, -, -, sums', hsums, rfl⟩
        cases hsums
        rfl

theorem weightsAndStores_of_new (h : new spec stores = .ok s) :
    s.weightsAndStores.map (·.weight) =
        ((List.range spec.length).map fun i => ((scaledWeights spec).take (i + 1)).sum).dropLast ++ [u32Max] ∧
      s.weightsAndStores.map (·.store) = stores := by
  obtain ⟨hlen, hne, -, hT, sums, hscan, rfl⟩ := new_eq_ok.mp h
  rw [scan_eq 0 _ (by simpa using sum_scaledWeights_le hT)] at hscan
  cases hscan
  have hpos : 0 < spec.length := List.length_pos_of_ne_nil hne
  have hlen' : (((List.range (scaledWeights spec).length).map fun i =>
      0 + ((scaledWeights spec).take (i + 1)).sum).dropLast ++ [u32Max]).length = stores.length := by
    simp [scaledWeights]
    omega
  refine ⟨?_, map_store_ofWeights hlen'⟩
  rw [map_weight_ofWeights hlen']
  simp [scaledWeights]

theorem length_of_new (h : new spec stores = .ok s) : s.weightsAndStores.length = spec.length := by
  have hne := (new_eq_ok.mp h).2.1
  have := congrArg List.length (weightsAndStores_of_new h).1
  simp at this
  have := List.length_pos_of_ne_nil hne
  omega

theorem weight_of_new (h : new spec stores = .ok s) {i : Nat} {x : StoreAndWeight σ}
    (hx : s.weightsAndStores[i]? = some x) :
    x.weight = if i + 1 < spec.length then ((scaledWeights spec).take (i + 1)).sum else u32Max := by
  have hi : i < spec.length := by
    rw [← length_of_new h]
    exact (List.getElem?_eq_some_iff.mp hx).1
  have hentry := congrArg (·[i]?) (weightsAndStores_of_new h).1
  simp only [List.getElem?_map, hx, Option.map_some] at hentry
  split
  case isTrue hlt =>
    rw [List.getElem?_append_left (by simp; omega)] at hentry
    simp [List.getElem?_dropLast, hi] at hentry
    exact hentry.2
  case isFalse hge =>
    rw [List.getElem?_append_right (by simp; omega)] at hentry
    simpa [show i - (spec.length - 1) = 0 by omega] using hentry

theorem weight_of_new_le (h : new spec stores = .ok s) {i : Nat} {x : StoreAndWeight σ}
    (hx : s.weightsAndStores[i]? = some x) : x.weight ≤ u32Max := by
  rw [weight_of_new h hx]
  split
  case isTrue =>
    have hsum := List.sum_take_add_sum_drop (scaledWeights spec) (i + 1)
    have hle := sum_scaledWeights_le (new_eq_ok.mp h).2.2.2.1
    omega
  case isFalse => exact Nat.le_refl _

theorem wellFormed_of_new (h : new spec stores = .ok s) : WellFormed s where
  ne_nil := by
    rw [← List.length_pos_iff, length_of_new h]
    exact List.length_pos_of_ne_nil (new_eq_ok.mp h).2.1
  sorted := by
    rw [List.pairwise_iff_getElem]
    intro i j hi hj hij
    have hxi := weight_of_new h (List.getElem?_eq_getElem hi)
    have hxj := weight_of_new h (List.getElem?_eq_getElem hj)
    rw [length_of_new h] at hj
    by_cases hlast : j + 1 < spec.length
    case pos =>
      rw [hxi, if_pos (by omega), hxj, if_pos hlast]
      exact List.monotone_sum_take _ (by omega)
    case neg =>
      rw [hxj, if_neg hlast]
      exact weight_of_new_le h (List.getElem?_eq_getElem hi)
  last := by
    intro x hx
    rw [List.getLast?_eq_getElem?] at hx
    rw [weight_of_new h hx, if_neg (by rw [length_of_new h]; omega)]

theorem totalWeight_eq_zero (hzero : ∀ c ∈ spec, c.weight = some 0) : totalWeight spec = 0 := by
  apply List.sum_eq_zero
  intro w hw
  obtain ⟨c, hc, rfl⟩ := List.mem_map.mp hw
  simp [weightOf, hzero c hc]

theorem new_of_zero_weights (hlen : spec.length = stores.length) (hne : spec ≠ [])
    (hzero : ∀ c ∈ spec, c.weight = some 0) : new spec stores = .error (.panic "attempt to divide by zero") := by
  rw [new_eq, if_neg (by simpa using hlen), if_neg hne, if_neg (by rw [totalWeight_eq_zero hzero]; decide),
    if_pos (totalWeight_eq_zero hzero)]

-- What `new` ends in: an `Error` for a configuration that does not fit the stores, a panic
-- dividing by zero when the weights add up to `0`, a panic on the `u64` sum, which takes more than
-- `2^32` stores, or a table of rising bounds ending at `u32::MAX`.
theorem new_outcomes (spec : List ShardConfig) (stores : List σ) :
    (∃ msg, new spec stores = .error (.error msg)) ∨
      (totalWeight spec = 0 ∧ new spec stores = .error (.panic "attempt to divide by zero")) ∨
      (2 ^ 32 < spec.length ∧ new spec stores = .error (.panic "attempt to add with overflow")) ∨
      (∃ s, new spec stores = .ok s ∧ WellFormed s) := by
  rw [new_eq]
  split_ifs with hlen hne hmax hT
  case pos => exact Or.inl ⟨_, rfl⟩
  case pos => exact Or.inl ⟨_, rfl⟩
  case pos =>
    refine Or.inr (Or.inr (Or.inl ⟨?_, rfl⟩))
    by_contra hle
    exact absurd (totalWeight_le (by omega : spec.length ≤ 2 ^ 32)) (by omega)
  case pos => exact Or.inr (Or.inl ⟨hT, rfl⟩)
  case neg =>
    have hscan := scan_eq 0 (scaledWeights spec) (by simpa using sum_scaledWeights_le (by omega : 0 < totalWeight spec))
    have hnew := new_of_checks (by simpa using hlen : spec.length = stores.length) hne (by omega) (by omega)
    rw [hscan] at hnew ⊢
    exact Or.inr (Or.inr (Or.inr ⟨_, rfl, wellFormed_of_new hnew⟩))

end Table

/-! ## Where the keys go -/

-- The 32-bit key values `get_store_index` sends to the store at `index`.
def routedKeys (s : ShardStore σ) (index : Nat) : Finset Nat :=
  (Finset.range (2 ^ 32)).filter fun key => indexOfKey s key = index

section Routing

variable {s : ShardStore σ} {i j key : Nat} {x y : StoreAndWeight σ}

theorem WellFormed.weight_le (hw : WellFormed s) (hy : s.weightsAndStores[j]? = some y) : y.weight ≤ u32Max := by
  have hj := (List.getElem?_eq_some_iff.mp hy).1
  have hlast : s.weightsAndStores[s.weightsAndStores.length - 1]? = some s.weightsAndStores[s.weightsAndStores.length - 1] :=
    List.getElem?_eq_getElem (by omega)
  rw [← hw.last _ (by rw [List.getLast?_eq_getElem?]; exact hlast)]
  exact BinarySearch.sorted_le hw.sorted (by omega) hy hlast

theorem indexOfKey_lt (hw : WellFormed s) (hkey : key ≤ u32Max) : indexOfKey s key < s.weightsAndStores.length := by
  unfold indexOfKey
  split
  case h_1 i h =>
    obtain ⟨x, hx, -, -⟩ := BinarySearch.binarySearchByKey_ok hw.sorted h
    exact (List.getElem?_eq_some_iff.mp hx).1
  case h_2 i h =>
    obtain ⟨-, hcmp⟩ := BinarySearch.binarySearchByKey_error hw.sorted h
    by_contra hge
    have hpos := List.length_pos_of_ne_nil hw.ne_nil
    have hlast : s.weightsAndStores[s.weightsAndStores.length - 1]? = some s.weightsAndStores[s.weightsAndStores.length - 1] :=
      List.getElem?_eq_getElem (by omega)
    have hbelow := (hcmp _ _ hlast).1 (by omega)
    rw [hw.last _ (by rw [List.getLast?_eq_getElem?]; exact hlast)] at hbelow
    omega

theorem indexOfKey_eq_iff (hw : WellFormed s) (hx : s.weightsAndStores[i]? = some x) :
    indexOfKey s key = i ↔
      ((∀ j y, j < i → s.weightsAndStores[j]? = some y → y.weight < key) ∧ key < x.weight) ∨
        (key = x.weight ∧ ∀ j y, i < j → s.weightsAndStores[j]? = some y → key < y.weight) := by
  unfold indexOfKey
  split
  case h_1 j h =>
    obtain ⟨y, hy, hyk, habove⟩ := BinarySearch.binarySearchByKey_ok hw.sorted h
    constructor
    case mp =>
      rintro rfl
      rw [hx] at hy
      cases hy
      exact Or.inr ⟨hyk.symm, habove⟩
    case mpr =>
      intro hcase
      rcases Nat.lt_trichotomy j i with hlt | heq | hgt
      case inr.inr =>
        rcases hcase with ⟨-, hlt'⟩ | ⟨-, habove'⟩
        · have := BinarySearch.sorted_le hw.sorted (Nat.le_of_lt hgt) hx hy
          omega
        · have := habove' j y hgt hy
          omega
      case inl =>
        have := habove i x hlt hx
        rcases hcase with ⟨hbelow, -⟩ | ⟨rfl, -⟩
        · have := hbelow j y hlt hy
          omega
        · omega
      case inr.inl => exact heq
  case h_2 j h =>
    obtain ⟨-, hcmp⟩ := BinarySearch.binarySearchByKey_error hw.sorted h
    constructor
    case mp =>
      rintro rfl
      exact Or.inl ⟨fun l z hl hz => (hcmp l z hz).1 hl, (hcmp _ x hx).2 (Nat.le_refl _)⟩
    case mpr =>
      intro hcase
      have hxi := hcmp i x hx
      rcases hcase with ⟨hbelow, hlt⟩ | ⟨rfl, -⟩
      case inl =>
        rcases Nat.lt_trichotomy j i with hji | heq | hij
        case inl =>
          obtain ⟨y, hy⟩ : ∃ y, s.weightsAndStores[j]? = some y :=
            ⟨_, List.getElem?_eq_getElem (by have := (List.getElem?_eq_some_iff.mp hx).1; omega)⟩
          have := hbelow j y hji hy
          have := (hcmp j y hy).2 (Nat.le_refl _)
          omega
        case inr.inl => exact heq
        case inr.inr =>
          have := hxi.1 hij
          omega
      case inr =>
        rcases Nat.lt_or_ge i j with hij | hji
        · have := hxi.1 hij
          omega
        · have := hxi.2 hji
          omega

-- The bounds before store `i` are below exactly the values from `lo` on: `0` for the first store,
-- one past the bound before for the others.
def LowerBound (s : ShardStore σ) (i lo : Nat) : Prop :=
  ∀ k, lo ≤ k ↔ ∀ j y, j < i → s.weightsAndStores[j]? = some y → y.weight < k

theorem lowerBound_zero (s : ShardStore σ) : LowerBound s 0 0 :=
  fun _ => ⟨fun _ j _ hj => absurd hj (Nat.not_lt_zero j), fun _ => Nat.zero_le _⟩

theorem WellFormed.lowerBound_succ (hw : WellFormed s) (hy : s.weightsAndStores[j]? = some y) :
    LowerBound s (j + 1) (y.weight + 1) := by
  intro k
  constructor
  case mp =>
    intro hk l z hl hz
    have := BinarySearch.sorted_le hw.sorted (Nat.le_of_lt_succ hl) hz hy
    omega
  case mpr =>
    intro hbelow
    have := hbelow j y (Nat.lt_succ_self j) hy
    omega

theorem routedKeys_subset (hw : WellFormed s) (hx : s.weightsAndStores[i]? = some x) {lo : Nat}
    (hlo : LowerBound s i lo) :
    Finset.Ico lo x.weight ⊆ routedKeys s i ∧ routedKeys s i ⊆ insert x.weight (Finset.Ico lo x.weight) := by
  constructor
  case left =>
    intro k hk
    rw [Finset.mem_Ico] at hk
    have hxle := hw.weight_le hx
    have hmax : u32Max < 2 ^ 32 := by decide
    rw [routedKeys, Finset.mem_filter, Finset.mem_range]
    exact ⟨by omega, (indexOfKey_eq_iff hw hx).mpr (Or.inl ⟨(hlo k).mp hk.1, hk.2⟩)⟩
  case right =>
    intro k hk
    rw [routedKeys, Finset.mem_filter] at hk
    rw [Finset.mem_insert, Finset.mem_Ico]
    rcases (indexOfKey_eq_iff hw hx).mp hk.2 with ⟨hbelow, hlt⟩ | ⟨rfl, -⟩
    · exact Or.inr ⟨(hlo k).mpr hbelow, hlt⟩
    · exact Or.inl rfl

theorem card_routedKeys (hw : WellFormed s) (hx : s.weightsAndStores[i]? = some x) {lo : Nat}
    (hlo : LowerBound s i lo) :
    x.weight - lo ≤ (routedKeys s i).card ∧ (routedKeys s i).card ≤ x.weight - lo + 1 := by
  obtain ⟨hsub, hsup⟩ := routedKeys_subset hw hx hlo
  constructor
  case left => simpa using Finset.card_le_card hsub
  case right =>
    calc (routedKeys s i).card ≤ (insert x.weight (Finset.Ico lo x.weight)).card := Finset.card_le_card hsup
      _ ≤ (Finset.Ico lo x.weight).card + 1 := Finset.card_insert_le _ _
      _ = x.weight - lo + 1 := by rw [Nat.card_Ico]

theorem card_routedKeys_last (hw : WellFormed s) (hx : s.weightsAndStores[i]? = some x)
    (hi : i + 1 = s.weightsAndStores.length) {lo : Nat} (hlo : LowerBound s i lo) :
    (routedKeys s i).card = x.weight - lo + 1 := by
  obtain ⟨hsub, hsup⟩ := routedKeys_subset hw hx hlo
  have hmem : x.weight ∈ routedKeys s i := by
    have hxle := hw.weight_le hx
    have hmax : u32Max < 2 ^ 32 := by decide
    rw [routedKeys, Finset.mem_filter, Finset.mem_range]
    refine ⟨by omega, (indexOfKey_eq_iff hw hx).mpr (Or.inr ⟨rfl, fun j y hj hy => ?_⟩)⟩
    have := (List.getElem?_eq_some_iff.mp hy).1
    omega
  have heq : routedKeys s i = insert x.weight (Finset.Ico lo x.weight) :=
    Finset.Subset.antisymm hsup (Finset.insert_subset hmem hsub)
  rw [heq, Finset.card_insert_of_notMem (by simp), Nat.card_Ico]

end Routing

/-! ## How many key values each store takes -/

section Shares

variable {spec : List ShardConfig} {stores : List σ} {s : ShardStore σ} {i : Nat}

theorem weightOf_le_totalWeight (hi : i < spec.length) : weightOf spec[i] ≤ totalWeight spec :=
  List.le_sum_of_mem (List.mem_map_of_mem (List.getElem_mem hi))

theorem sum_take_succ_scaledWeights (hi : i < spec.length) :
    ((scaledWeights spec).take (i + 1)).sum =
      ((scaledWeights spec).take i).sum + scaledWeight (totalWeight spec) (weightOf spec[i]) := by
  rw [List.sum_take_succ _ _ (by simpa [scaledWeights] using hi)]
  simp [scaledWeights]

theorem card_routedKeys_of_share (h : new spec stores = .ok s) (hi : i + 1 < spec.length) :
    (routedKeys s i).card ≤ scaledWeight (totalWeight spec) (weightOf spec[i]) + 1 ∧
      scaledWeight (totalWeight spec) (weightOf spec[i]) ≤ (routedKeys s i).card + min i 1 := by
  have hw := wellFormed_of_new h
  have hlen := length_of_new h
  have hx := List.getElem?_eq_getElem (l := s.weightsAndStores) (i := i) (by omega)
  have hxw := weight_of_new h hx
  rw [if_pos hi, sum_take_succ_scaledWeights (by omega)] at hxw
  cases i with
  | zero =>
    have hcard := card_routedKeys hw hx (lowerBound_zero s)
    simp only [List.take_zero, List.sum_nil, Nat.zero_add] at hxw
    omega
  | succ j =>
    have hy := List.getElem?_eq_getElem (l := s.weightsAndStores) (i := j) (by omega)
    have hyw := weight_of_new h hy
    rw [if_pos (by omega)] at hyw
    have hcard := card_routedKeys hw hx (hw.lowerBound_succ hy)
    omega

theorem card_routedKeys_of_last (h : new spec stores = .ok s) (hi : i + 1 = spec.length) :
    (routedKeys s i).card = u32Max - (if i = 0 then 0 else ((scaledWeights spec).take i).sum + 1) + 1 := by
  have hw := wellFormed_of_new h
  have hlen := length_of_new h
  have hx := List.getElem?_eq_getElem (l := s.weightsAndStores) (i := i) (by omega)
  have hxw := weight_of_new h hx
  rw [if_neg (by omega)] at hxw
  cases i with
  | zero => rw [card_routedKeys_last hw hx (by omega) (lowerBound_zero s), hxw, if_pos rfl]
  | succ j =>
    have hy := List.getElem?_eq_getElem (l := s.weightsAndStores) (i := j) (by omega)
    have hyw := weight_of_new h hy
    rw [if_pos (by omega)] at hyw
    rw [card_routedKeys_last hw hx (by omega) (hw.lowerBound_succ hy), hxw, hyw, if_neg (Nat.succ_ne_zero j)]

theorem share_bound {card S w T n m : Nat} (hS : S * T ≤ u32Max * w) (hS' : u32Max * w < S * T + T)
    (hw : w ≤ T) (hcard : card ≤ S + 1) (hcard' : S ≤ card + m) (hm : m + 2 ≤ n) :
    card * T ≤ 2 ^ 32 * w + n * T ∧ 2 ^ 32 * w ≤ card * T + n * T := by
  have h1 : card * T ≤ S * T + T :=
    calc card * T ≤ (S + 1) * T := Nat.mul_le_mul_right T hcard
      _ = S * T + T := Nat.succ_mul S T
  have h2 : S * T ≤ card * T + m * T :=
    calc S * T ≤ (card + m) * T := Nat.mul_le_mul_right T hcard'
      _ = card * T + m * T := Nat.add_mul card m T
  have h3 : m * T + 2 * T ≤ n * T := by
    rw [← Nat.add_mul]
    exact Nat.mul_le_mul_right T hm
  have h4 : 2 ^ 32 * w = u32Max * w + w := by unfold u32Max; omega
  constructor <;> omega

theorem last_bound {card P W w T n : Nat} (hT : T = W + w) (hP : P * T ≤ u32Max * W)
    (hP' : u32Max * W + (n - 1) ≤ P * T + (n - 1) * T) (hcard : u32Max - P ≤ card)
    (hcard' : card ≤ u32Max - P + 1) (hn : 2 ≤ n) :
    card * T ≤ 2 ^ 32 * w + n * T ∧ 2 ^ 32 * w ≤ card * T + n * T := by
  have h1 : (u32Max - P) * T = u32Max * T - P * T := Nat.sub_mul _ _ _
  have h2 : u32Max * T = u32Max * W + u32Max * w := by rw [hT, Nat.mul_add]
  have h3 : card * T ≤ (u32Max - P) * T + T :=
    calc card * T ≤ (u32Max - P + 1) * T := Nat.mul_le_mul_right T hcard'
      _ = (u32Max - P) * T + T := Nat.succ_mul _ T
  have h4 : (u32Max - P) * T ≤ card * T := Nat.mul_le_mul_right T hcard
  have h5 : (n - 1) * T + T = n * T := by
    rw [← Nat.succ_mul]
    congr 1
    omega
  have h6 : 2 ^ 32 * w = u32Max * w + w := by unfold u32Max; omega
  constructor <;> omega

theorem card_routedKeys_of_new (h : new spec stores = .ok s) (hi : i < spec.length) :
    (routedKeys s i).card * totalWeight spec ≤ 2 ^ 32 * weightOf spec[i] + spec.length * totalWeight spec ∧
      2 ^ 32 * weightOf spec[i] ≤ (routedKeys s i).card * totalWeight spec + spec.length * totalWeight spec := by
  have hT := (new_eq_ok.mp h).2.2.2.1
  have hwi := weightOf_le_totalWeight hi
  by_cases hlast : i + 1 < spec.length
  case pos =>
    obtain ⟨hcard, hcard'⟩ := card_routedKeys_of_share h hlast
    refine share_bound (scaledWeight_mul_le _ _) (lt_scaledWeight_mul hT hwi) hwi hcard hcard' ?_
    omega
  case neg =>
    have hcard := card_routedKeys_of_last (i := i) h (by omega)
    cases i with
    | zero =>
      have hone : spec.length = 1 := by omega
      have hsum : totalWeight spec = weightOf spec[0] := by
        obtain ⟨c, hc⟩ := List.length_eq_one_iff.mp hone
        subst hc
        simp [totalWeight]
      rw [if_pos rfl] at hcard
      rw [hcard, hsum, hone]
      have h2 : u32Max - 0 + 1 = 2 ^ 32 := by decide
      rw [h2]
      omega
    | succ j =>
      rw [if_neg (Nat.succ_ne_zero j)] at hcard
      have hfirst : (scaledWeights spec).take (j + 1) =
          ((spec.map weightOf).take (j + 1)).map (scaledWeight (totalWeight spec)) := by
        rw [scaledWeights_eq, List.map_take]
      have hsplit : totalWeight spec = ((spec.map weightOf).take (j + 1)).sum + weightOf spec[j + 1] := by
        have := List.sum_take_succ (spec.map weightOf) (j + 1) (by simpa using hi)
        rw [List.take_of_length_le (by simp; omega)] at this
        simpa [totalWeight] using this
      have hP := sum_scaledWeight_mul_le (totalWeight spec) ((spec.map weightOf).take (j + 1))
      have hP' := sum_scaledWeight_mul_ge hT ((spec.map weightOf).take (j + 1))
        fun w hw => List.le_sum_of_mem (List.mem_of_mem_take hw)
      rw [← hfirst] at hP hP'
      have hlen : ((spec.map weightOf).take (j + 1)).length = spec.length - 1 := by simp; omega
      rw [hlen] at hP'
      exact last_bound hsplit hP hP' (by omega) (by omega) (by omega)

theorem card_routedKeys_le_one (h : new spec stores = .ok s) (hi : i + 1 < spec.length)
    (hzero : weightOf spec[i] = 0) : (routedKeys s i).card ≤ 1 := by
  have hcard := (card_routedKeys_of_share h hi).1
  rwa [hzero, show scaledWeight (totalWeight spec) 0 = 0 by simp [scaledWeight]] at hcard

end Shares

theorem getStoreIndex_lt {s : ShardStore σ} (hw : WellFormed s) (defaultHasher : String → UInt64)
    (storeKey : StoreTrait.StoreKey) : getStoreIndex defaultHasher s storeKey < s.weightsAndStores.length := by
  have hkey := (keyValue defaultHasher storeKey).toNat_lt
  exact indexOfKey_lt hw (by unfold u32Max; omega)

-- `new` returns an error, panics dividing by zero when the weights add up to `0` (every weight
-- `Some(0)`, with any number of stores), panics on the `u64` sum only with more than `2^32` stores,
-- or builds a table of rising bounds that ends at `u32::MAX` with no overflow. Every key then goes
-- to a store, and each store takes `2^32 * w / T` of the 32-bit key values give or take the number
-- of stores; the last store, weight `0` or not, also takes what the rounding down left over.
theorem shard_table_divides_by_zero_on_zero_weights :
    (∀ (spec : List ShardConfig) (stores : List σ),
      (∃ msg, new spec stores = .error (.error msg)) ∨
        (totalWeight spec = 0 ∧ new spec stores = .error (.panic "attempt to divide by zero")) ∨
        (2 ^ 32 < spec.length ∧ new spec stores = .error (.panic "attempt to add with overflow")) ∨
        (∃ s, new spec stores = .ok s ∧ WellFormed s)) ∧
    (∀ (spec : List ShardConfig) (stores : List σ), spec.length = stores.length → spec ≠ [] →
      (∀ c ∈ spec, c.weight = some 0) → new spec stores = .error (.panic "attempt to divide by zero")) ∧
    (∀ c : ShardConfig, u32Max * weightOf c ≤ u64Max) ∧
    (∀ (spec : List ShardConfig) (stores : List σ) (s : ShardStore σ), new spec stores = .ok s →
      (∀ (defaultHasher : String → UInt64) (key : StoreTrait.StoreKey), getStoreIndex defaultHasher s key < spec.length) ∧
      ∀ i (hi : i < spec.length),
        (routedKeys s i).card * totalWeight spec ≤ 2 ^ 32 * weightOf spec[i] + spec.length * totalWeight spec ∧
          2 ^ 32 * weightOf spec[i] ≤ (routedKeys s i).card * totalWeight spec + spec.length * totalWeight spec) ∧
    (∀ stores : List σ, stores.length = 5 → ∃ s,
      new [⟨some 1⟩, ⟨some 1⟩, ⟨some 1⟩, ⟨some 1⟩, ⟨some 0⟩] stores = .ok s ∧ (routedKeys s 4).card = 3) := by
  refine ⟨new_outcomes, fun spec stores hlen hne hzero => new_of_zero_weights hlen hne hzero, mul_weightOf_le,
    fun spec stores s h => ⟨fun defaultHasher key => ?_, fun i hi => card_routedKeys_of_new h hi⟩, ?_⟩
  case refine_1 =>
    rw [← length_of_new h]
    exact getStoreIndex_lt (wellFormed_of_new h) defaultHasher key
  case refine_2 =>
    -- four stores of weight `1` share `u32::MAX` in quarters rounded down; the fifth, of weight
    -- `0`, takes the last three values
    intro stores hlen
    have hnew := new_of_checks (by simp [hlen] : [⟨some 1⟩, ⟨some 1⟩, ⟨some 1⟩, ⟨some 1⟩, ⟨some 0⟩].length = stores.length)
      (by simp) (by decide) (by decide)
    rw [scan_eq 0 _ (by decide)] at hnew
    refine ⟨_, hnew, ?_⟩
    rw [card_routedKeys_of_last (i := 4) hnew rfl]
    decide

theorem shard_table_divides_by_zero_of_one_store :
    new [⟨some 0⟩] [()] = .error (.panic "attempt to divide by zero") :=
  (shard_table_divides_by_zero_on_zero_weights (σ := Unit)).2.1 [⟨some 0⟩] [()] rfl (by simp) (by simp)

/-! ## Batched existence checks -/

section HasWithResults

-- A store's own `has_with_results`: the results it leaves for the keys, or its error.
variable (defaultHasher : String → UInt64)
  (storeHas : σ → List StoreTrait.StoreKey → List (Option Nat) → Except Error (List (Option Nat)))

-- `get_store`. Rust indexes `weights_and_stores`, which would panic where this is `none`;
-- `getStoreIndex_lt` shows that never happens.
def getStore (s : ShardStore σ) (key : StoreTrait.StoreKey) : Option σ :=
  (s.weightsAndStores[getStoreIndex defaultHasher s key]?).map (·.store)

-- `keys_for_store`: for each store, the indices of the keys it gets and the keys, in their order.
-- Rust pushes each key onto the list of its store; every store index is in range.
def keysForStore (s : ShardStore σ) (keys : List StoreTrait.StoreKey) : List (List Nat × List StoreTrait.StoreKey) :=
  (List.range s.weightsAndStores.length).map fun storeIdx =>
    let mine := keys.zipIdx.filter fun (key, _) => getStoreIndex defaultHasher s key = storeIdx
    (mine.map (·.2), mine.map (·.1))

-- The future of one store: its answers for its keys, beside the keys' indices.
def storeFuture (sw : StoreAndWeight σ) (keyIdxs : List Nat) (keys : List StoreTrait.StoreKey) :
    Except Error (List Nat × List (Option Nat)) :=
  ((storeHas sw.store keys (List.replicate keys.length none)).mapError
    (·.append "In ShardStore::has_with_results() for store \x7bstore_idx\x7d")).map (keyIdxs, ·)

-- `results[key_idx] = inner_result` for each answer.
def writeResults : List (Option Nat) → List (Nat × Option Nat) → List (Option Nat)
  | results, [] => results
  | results, (keyIdx, innerResult) :: answers => writeResults (results.set keyIdx innerResult) answers

-- The `while let` over the stream: the futures in the order they complete, the first error ending
-- the call.
def gather : List (Except Error (List Nat × List (Option Nat))) → List (Option Nat) →
    Except Error (List (Option Nat))
  | [], results => .ok results
  | .error e :: _, _ => .error e
  | .ok (keyIdxs, innerResults) :: futures, results => gather futures (writeResults results (keyIdxs.zip innerResults))

-- `completionOrder` is the order in which the stores' futures finish.
def hasWithResults (s : ShardStore σ) (keys : List StoreTrait.StoreKey) (results : List (Option Nat))
    (completionOrder : List Nat) : Except Error (List (Option Nat)) :=
  match keys with
  | [key] =>
    match s.weightsAndStores[getStoreIndex defaultHasher s key]? with
    | some sw =>
      (storeHas sw.store keys results).mapError
        (·.append "In ShardStore::has_with_results() for store \x7bstore_idx\x7d\x7d")
    | none => .ok results
  | keys =>
    let futures := (s.weightsAndStores.zip (keysForStore defaultHasher s keys)).map fun (sw, keyIdxs, keys) =>
      storeFuture storeHas sw keyIdxs keys
    gather (completionOrder.filterMap (futures[·]?)) results

end HasWithResults

section Gather

variable {g : Nat → Option Nat}

theorem writeResults_append : ∀ (results : List (Option Nat)) (first second : List (Nat × Option Nat)),
    writeResults results (first ++ second) = writeResults (writeResults results first) second
  | _, [], _ => rfl
  | results, (k, v) :: first, second => writeResults_append (results.set k v) first second

theorem writeResults_getElem? : ∀ (results : List (Option Nat)) (answers : List (Nat × Option Nat)),
    (∀ p ∈ answers, p.2 = g p.1) → ∀ idx,
      (writeResults results answers)[idx]? =
        if idx ∈ answers.map Prod.fst ∧ idx < results.length then some (g idx) else results[idx]?
  | results, [], _, idx => by simp [writeResults]
  | results, (k, v) :: answers, h, idx => by
    have hv : v = g k := h (k, v) List.mem_cons_self
    rw [writeResults, writeResults_getElem? _ answers (fun p hp => h p (List.mem_cons_of_mem _ hp)) idx,
      List.getElem?_set, List.length_set]
    by_cases hk : k = idx
    case pos =>
      subst hk
      by_cases hlt : k < results.length <;> simp [hlt, hv]
    case neg =>
      have hne : ¬idx = k := Ne.symm hk
      simp only [hk, if_false, List.map_cons, List.mem_cons, hne, false_or]

theorem gather_ok : ∀ (answers : List (List Nat × List (Option Nat))) (results : List (Option Nat)),
    gather (answers.map .ok) results =
      .ok (writeResults results (answers.flatMap fun (keyIdxs, innerResults) => keyIdxs.zip innerResults))
  | [], results => rfl
  | (keyIdxs, innerResults) :: answers, results => by
    rw [List.map_cons, gather, gather_ok answers, List.flatMap_cons, writeResults_append]

end Gather

theorem getElem?_keysForStore (defaultHasher : String → UInt64) (s : ShardStore σ) (keys : List StoreTrait.StoreKey) {j : Nat}
    (hj : j < s.weightsAndStores.length) :
    (keysForStore defaultHasher s keys)[j]? =
      some (let mine := keys.zipIdx.filter fun (key, _) => getStoreIndex defaultHasher s key = j
        (mine.map (·.2), mine.map (·.1))) := by
  simp [keysForStore, hj]

theorem zip_answers (report : StoreTrait.StoreKey → Option Nat) (mine : List (StoreTrait.StoreKey × Nat)) :
    (mine.map (·.2)).zip ((mine.map (·.1)).map report) = mine.map fun (key, idx) => (idx, report key) := by
  rw [List.map_map, List.zip_map']
  rfl

-- What the futures return when every store answers by `report`.
def reportedAnswers (defaultHasher : String → UInt64) (report : σ → StoreTrait.StoreKey → Option Nat) (s : ShardStore σ)
    (keys : List StoreTrait.StoreKey) : List (List Nat × List (Option Nat)) :=
  (s.weightsAndStores.zip (keysForStore defaultHasher s keys)).map fun (sw, keyIdxs, keys) =>
    (keyIdxs, keys.map (report sw.store))

theorem getElem?_reportedAnswers (defaultHasher : String → UInt64) (report : σ → StoreTrait.StoreKey → Option Nat)
    (s : ShardStore σ) (keys : List StoreTrait.StoreKey) {j : Nat} (hj : j < s.weightsAndStores.length) :
    (reportedAnswers defaultHasher report s keys)[j]? =
      some (let mine := keys.zipIdx.filter fun (key, _) => getStoreIndex defaultHasher s key = j
        (mine.map (·.2), (mine.map (·.1)).map (report s.weightsAndStores[j].store))) := by
  have hk := getElem?_keysForStore defaultHasher s keys hj
  have hz : (s.weightsAndStores.zip (keysForStore defaultHasher s keys))[j]? = some (s.weightsAndStores[j], _) :=
    List.getElem?_zip_eq_some.mpr ⟨List.getElem?_eq_getElem hj, hk⟩
  rw [reportedAnswers, List.getElem?_map, hz]
  rfl

theorem mem_reportedAnswers {defaultHasher : String → UInt64} {report : σ → StoreTrait.StoreKey → Option Nat}
    {s : ShardStore σ} {keys : List StoreTrait.StoreKey} {order : List Nat} {p : Nat × Option Nat}
    (hp : p ∈ (order.filterMap ((reportedAnswers defaultHasher report s keys)[·]?)).flatMap
      fun (keyIdxs, innerResults) => keyIdxs.zip innerResults) :
    ∃ key sw, keys[p.1]? = some key ∧ s.weightsAndStores[getStoreIndex defaultHasher s key]? = some sw ∧
      p.2 = report sw.store key := by
  obtain ⟨⟨keyIdxs, innerResults⟩, ha, hp⟩ := List.mem_flatMap.mp hp
  obtain ⟨j, -, hj⟩ := List.mem_filterMap.mp ha
  have hjlt : j < s.weightsAndStores.length := by
    have := (List.getElem?_eq_some_iff.mp hj).1
    simp only [reportedAnswers, List.length_map, List.length_zip] at this
    omega
  rw [getElem?_reportedAnswers defaultHasher report s keys hjlt] at hj
  cases hj
  dsimp only at hp
  rw [zip_answers] at hp
  obtain ⟨⟨key, idx⟩, hmem, rfl⟩ := List.mem_map.mp hp
  rw [List.mem_filter] at hmem
  obtain ⟨hzip, hidx⟩ := hmem
  refine ⟨key, s.weightsAndStores[j], List.mem_zipIdx_iff_getElem?.mp hzip, ?_, rfl⟩
  simp only [decide_eq_true_eq] at hidx
  rw [hidx]
  exact List.getElem?_eq_getElem hjlt
theorem mem_map_fst_reportedAnswers {defaultHasher : String → UInt64} {report : σ → StoreTrait.StoreKey → Option Nat}
    {s : ShardStore σ} {keys : List StoreTrait.StoreKey} {order : List Nat} (hw : WellFormed s)
    (horder : ∀ j < s.weightsAndStores.length, j ∈ order) {idx : Nat} (hidx : idx < keys.length) :
    idx ∈ ((order.filterMap ((reportedAnswers defaultHasher report s keys)[·]?)).flatMap
      fun (keyIdxs, innerResults) => keyIdxs.zip innerResults).map Prod.fst := by
  have hj := getStoreIndex_lt hw defaultHasher keys[idx]
  rw [List.mem_map]
  refine ⟨(idx, report s.weightsAndStores[getStoreIndex defaultHasher s keys[idx]].store keys[idx]), ?_, rfl⟩
  rw [List.mem_flatMap]
  refine ⟨_, List.mem_filterMap.mpr ⟨_, horder _ hj, getElem?_reportedAnswers defaultHasher report s keys hj⟩, ?_⟩
  dsimp only
  rw [zip_answers]
  refine List.mem_map.mpr ⟨(keys[idx], idx), List.mem_filter.mpr ⟨?_, by simp⟩, rfl⟩
  exact List.mem_zipIdx_iff_getElem?.mpr (List.getElem?_eq_getElem hidx)

theorem writeResults_reportedAnswers {defaultHasher : String → UInt64} {report : σ → StoreTrait.StoreKey → Option Nat}
    {s : ShardStore σ} {keys : List StoreTrait.StoreKey} {results : List (Option Nat)} {order : List Nat} (hw : WellFormed s)
    (horder : ∀ j < s.weightsAndStores.length, j ∈ order) (hlen : results.length = keys.length) :
    writeResults results ((order.filterMap ((reportedAnswers defaultHasher report s keys)[·]?)).flatMap
      fun (keyIdxs, innerResults) => keyIdxs.zip innerResults) =
      keys.map fun key => (getStore defaultHasher s key).bind (report · key) := by
  apply List.ext_getElem?
  intro idx
  rw [writeResults_getElem? (g := fun idx => keys[idx]?.bind fun key => (getStore defaultHasher s key).bind (report · key))]
  case a =>
    intro p hp
    obtain ⟨key, sw, hkey, hsw, hv⟩ := mem_reportedAnswers hp
    simp [hkey, hv, getStore, hsw]
  by_cases hidx : idx < keys.length
  case pos =>
    rw [if_pos ⟨mem_map_fst_reportedAnswers hw horder hidx, by omega⟩]
    simp [List.getElem?_eq_getElem hidx]
  case neg =>
    rw [if_neg (by omega), List.getElem?_eq_none (by omega), List.getElem?_eq_none (by simp; omega)]

theorem filterMap_getElem?_map {α β : Type} (l : List α) (f : α → β) (order : List Nat) :
    order.filterMap ((l.map f)[·]?) = (order.filterMap (l[·]?)).map f := by
  simp [List.getElem?_map, List.map_filterMap]

section Report

variable {defaultHasher : String → UInt64}
  {storeHas : σ → List StoreTrait.StoreKey → List (Option Nat) → Except Error (List (Option Nat))}
  (report : σ → StoreTrait.StoreKey → Option Nat)
  (hreport : ∀ store keys results, results.length = keys.length →
    storeHas store keys results = .ok (keys.map (report store)))
include hreport

theorem storeFuture_of_report (sw : StoreAndWeight σ) (keyIdxs : List Nat) (keys : List StoreTrait.StoreKey) :
    storeFuture storeHas sw keyIdxs keys = .ok (keyIdxs, keys.map (report sw.store)) := by
  rw [storeFuture, hreport _ _ _ (List.length_replicate ..)]
  rfl

theorem futures_of_report (s : ShardStore σ) (keys : List StoreTrait.StoreKey) :
    (s.weightsAndStores.zip (keysForStore defaultHasher s keys)).map
        (fun (sw, keyIdxs, keys) => storeFuture storeHas sw keyIdxs keys) =
      (reportedAnswers defaultHasher report s keys).map .ok := by
  rw [reportedAnswers, List.map_map]
  apply List.map_congr_left
  rintro ⟨sw, keyIdxs, keys⟩ -
  exact storeFuture_of_report report hreport sw keyIdxs keys

theorem hasWithResults_of_report {s : ShardStore σ} {keys : List StoreTrait.StoreKey} {results : List (Option Nat)}
    {completionOrder : List Nat} (hw : WellFormed s) (hlen : results.length = keys.length)
    (horder : completionOrder.Perm (List.range s.weightsAndStores.length)) :
    hasWithResults defaultHasher storeHas s keys results completionOrder =
      .ok (keys.map fun key => (getStore defaultHasher s key).bind (report · key)) := by
  by_cases hsingle : ∃ key, keys = [key]
  case pos =>
    obtain ⟨key, rfl⟩ := hsingle
    obtain ⟨sw, hsw⟩ : ∃ sw, s.weightsAndStores[getStoreIndex defaultHasher s key]? = some sw :=
      ⟨_, List.getElem?_eq_getElem (getStoreIndex_lt hw defaultHasher key)⟩
    rw [hasWithResults, hsw]
    simp [hreport _ _ _ hlen, getStore, hsw, Except.mapError]
  case neg =>
    have hgather : hasWithResults defaultHasher storeHas s keys results completionOrder =
        gather (completionOrder.filterMap
          (((s.weightsAndStores.zip (keysForStore defaultHasher s keys)).map
            fun (sw, keyIdxs, keys) => storeFuture storeHas sw keyIdxs keys)[·]?)) results := by
      unfold hasWithResults
      split
      case h_1 key => exact absurd ⟨key, rfl⟩ hsingle
      case h_2 => rfl
    have hall : ∀ j < s.weightsAndStores.length, j ∈ completionOrder :=
      fun j hj => horder.symm.subset (List.mem_range.mpr hj)
    rw [hgather, futures_of_report report hreport, filterMap_getElem?_map, gather_ok,
      writeResults_reportedAnswers hw hall hlen]

end Report

end ShardStore

end NativeLink
