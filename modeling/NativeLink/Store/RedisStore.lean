import NativeLink.Lib.Overwrite
import NativeLink.Util.StoreTrait

-- Model of `update` and `get_part` of `nativelink-store/src/redis_store.rs`, over the Redis
-- commands they send. The server is its keyspace, the byte string each key holds, with SETRANGE,
-- STRLEN, EXISTS, RENAME and GETRANGE as Redis documents them. `update` writes each chunk of the
-- upload into a temporary key with one SETRANGE, the SETRANGEs finishing in an order that
-- `try_buffer_unordered` allows, checks the temporary key's length and renames it to the final
-- key. `get_part` reads the requested range with GETRANGE, `read_chunk_size` bytes at a time, and
-- its loop is given a number of rounds, one GETRANGE each. `usize` is 64 bits wide.

namespace NativeLink

abbrev Redis := String → Option (List UInt8)

namespace Redis

-- `SETRANGE key offset value`: a key that does not exist is an empty string, and a string
-- shorter than `offset` is padded with zero bytes. An empty value changes nothing.
def setrange (db : Redis) (key : String) (offset : Nat) (value : List UInt8) : Redis :=
  if value.isEmpty then db
  else Function.update db key (some (Overwrite.overwrite 0 ((db key).getD []) offset value))

-- `STRLEN key`, 0 for a key that does not exist.
def strlen (db : Redis) (key : String) : Nat :=
  ((db key).getD []).length

-- `EXISTS key`.
def existsKey (db : Redis) (key : String) : Bool :=
  (db key).isSome

-- `RENAME key newkey`, which fails on a key that does not exist.
def rename (db : Redis) (key newkey : String) : Except Failure Redis :=
  match db key with
  | none => throw (.error "ERR no such key")
  | some value => pure (Function.update (Function.update db key none) newkey (some value))

-- `GETRANGE key start end` for indices that are not negative: both ends included, the end
-- clamped to the string, and nothing when the start is past the end or the string is empty.
def getrange (db : Redis) (key : String) (start end' : Nat) : List UInt8 :=
  let s := (db key).getD []
  let end' := min end' (s.length - 1)
  if start > end' ∨ s.length = 0 then [] else (s.drop start).take (end' - start + 1)

variable {db : Redis} {key : String}

theorem getrange_eq (start end' : Nat) :
    db.getrange key start end' = (((db key).getD []).drop start).take (end' + 1 - start) := by
  unfold getrange
  dsimp only
  split
  case isTrue h =>
    symm
    rw [List.take_eq_nil_iff, List.drop_eq_nil_iff]
    omega
  case isFalse h =>
    rw [List.take_eq_take_iff, List.length_drop]
    omega

theorem setrange_of_ne_nil {offset : Nat} {value : List UInt8} (h : value ≠ []) :
    db.setrange key offset value =
      Function.update db key (some (Overwrite.overwrite 0 ((db key).getD []) offset value)) := by
  simp [setrange, List.isEmpty_iff, h]

theorem foldl_setrange : ∀ (writes : List (Nat × List UInt8)) (s : List UInt8),
    (∀ w ∈ writes, w.2 ≠ []) →
    writes.foldl (fun (db : Redis) w => db.setrange key w.1 w.2) (Function.update db key (some s)) =
      Function.update db key (some (writes.foldl (fun l w => Overwrite.overwrite 0 l w.1 w.2) s))
  | [], _, _ => rfl
  | w :: writes, s, hne => by
    rw [List.foldl_cons, setrange_of_ne_nil (hne w List.mem_cons_self), Function.update_self,
      Option.getD_some, Function.update_idem,
      foldl_setrange writes _ (fun w' hw' => hne w' (List.mem_cons_of_mem w hw')), List.foldl_cons]

theorem rename_of_some {newkey : String} {value : List UInt8} (h : db key = some value) :
    db.rename key newkey = pure (Function.update (Function.update db key none) newkey (some value)) := by
  simp [rename, h]

end Redis

-- `StoreKey`: its text, `key.as_str()`, and whether it is one of the zero-byte digests of
-- `is_zero_digest`.
structure StoreKey where
  asStr : String
  isZeroDigest : Bool

-- The settings of a `RedisStore` that `update` and `get_part` read.
structure RedisStore where
  keyPrefix : String
  readChunkSize : Nat
  maxChunkUploadsPerUpdate : Nat

-- An order in which `try_buffer_unordered(n)` can finish `len` futures, by their place in the
-- stream: each one once, and the k-th to finish among the first k + n the stream gave.
structure Completion (n len : Nat) where
  order : List Nat
  perm : order.Perm (List.range len)
  window : ∀ k (hk : k < order.length), order[k] < k + n

theorem filterMap_getElem?_range {α : Type} (l : List α) :
    (List.range l.length).filterMap (fun i => l[i]?) = l := by
  induction l
  case nil => rfl
  case cons x l ih =>
    have htail : ((fun i => (x :: l)[i]?) ∘ Nat.succ) = fun i => l[i]? := by
      funext i
      exact List.getElem?_cons_succ
    rw [List.length_cons, List.range_succ_eq_map, List.filterMap_cons, List.filterMap_map, htail, ih]
    rfl

theorem Completion.perm_filterMap {α : Type} {n len : Nat} (completion : Completion n len)
    {l : List α} (hlen : l.length = len) : (completion.order.filterMap fun i => l[i]?).Perm l := by
  subst hlen
  have h := completion.perm.filterMap (fun i => l[i]?)
  rwa [filterMap_getElem?_range] at h

namespace RedisStore

def defaultReadChunkSize : Nat := 64 * 1024
def defaultMaxChunkUploadsPerUpdate : Nat := 10

-- `RedisStore::new`, for the settings above: a zero in the spec takes the default.
def new (keyPrefix : String) (readChunkSize maxChunkUploadsPerUpdate : Nat) : RedisStore where
  keyPrefix := keyPrefix
  readChunkSize := if readChunkSize = 0 then defaultReadChunkSize else readChunkSize
  maxChunkUploadsPerUpdate :=
    if maxChunkUploadsPerUpdate = 0 then defaultMaxChunkUploadsPerUpdate else maxChunkUploadsPerUpdate

def u32Max : Nat := 2 ^ 32 - 1
def isizeMax : Nat := 2 ^ 63 - 1
def usizeMax : Nat := 2 ^ 64 - 1

-- `usize::saturating_add`; `saturating_sub` is the subtraction of `Nat`.
def saturatingAdd (a b : Nat) : Nat :=
  min (a + b) usizeMax

variable (store : RedisStore)

-- `encode_key`.
def encodeKey (key : StoreKey) : String :=
  store.keyPrefix ++ key.asStr

-- The temporary key of `update`, named by `temp_name_generator_fn`. The braces make Redis hash it
-- as it hashes the final key.
def tempKey (tempName : String) (key : StoreKey) : String :=
  "temp-" ++ tempName ++ "-\x7b" ++ store.encodeKey key ++ "\x7d"

/-! ## `update` -/

-- The `scan` of `update` over the reader's chunks: each chunk with its offset and its end,
-- `bytes_read` bytes in, both `u32`.
def scanChunks : List (List UInt8) → Nat → Except Failure (List (Nat × Nat × List UInt8))
  | [], _ => pure []
  | chunk :: chunks, bytesRead => do
    if chunk.length > u32Max then
      throw (.error "Could not convert chunk length to u32 in RedisStore::update")
    let newBytesRead := bytesRead + chunk.length
    if newBytesRead > u32Max then throw (.error "Overflow protection in RedisStore::update")
    let rest ← scanChunks chunks newBytesRead
    pure ((bytesRead, newBytesRead, chunk) :: rest)

-- `update(key, reader, _)` for a reader that gives the chunks `reads` and then its EOF, the
-- SETRANGEs finishing in the order `completion`: the keyspace after it.
def update (tempName : String) (key : StoreKey) (reads : List (List UInt8))
    (completion : Completion store.maxChunkUploadsPerUpdate reads.length) (db : Redis) :
    Except Failure Redis := do
  let finalKey := store.encodeKey key
  let tempKey := store.tempKey tempName key
  -- Zero-digest keys are special -- we don't need to do anything with it.
  if key.isZeroDigest && reads.isEmpty then return db
  let uploads ← scanChunks reads 0
  let done := completion.order.filterMap fun i => uploads[i]?
  let db := done.foldl (fun (db : Redis) upload => db.setrange tempKey upload.1 upload.2.2) db
  -- the `while let` loop over the ends the SETRANGEs return
  let totalLen := done.foldl (fun totalLen upload => max totalLen upload.2.1) 0
  let blobLen := db.strlen tempKey
  if blobLen ≠ totalLen then
    let keyStr := key.asStr
    throw (.error s!"Data length mismatch in RedisStore::update for {keyStr}({tempKey}) - expected {totalLen} bytes, got {blobLen} bytes")
  db.rename tempKey finalKey

/-! ## `get_part` -/

-- `start.saturating_add(read_chunk_size) - 1`, no further than `data_end`: where the chunk read
-- from `start` ends.
def chunkEndFrom (dataEnd start : Nat) : Except Failure Nat :=
  if saturatingAdd start store.readChunkSize = 0 then
    throw (.panic "attempt to subtract with overflow")
  else pure (min (saturatingAdd start store.readChunkSize - 1) dataEnd)

-- The `loop` of `get_part` from `chunk_start ..= chunk_end`, for at most `rounds` GETRANGE calls:
-- the bytes written, or `none` when the loop goes on past them.
def getPartLoop (db : Redis) (encodedKey : String) (dataEnd : Nat) :
    Nat → Nat → Nat → List UInt8 → Except Failure (Option (List UInt8))
  | 0, _, _, _ => pure none
  | rounds + 1, chunkStart, chunkEnd, written => do
    let chunk := db.getrange encodedKey chunkStart chunkEnd
    let didntReceiveFullChunk := decide (chunk.length < store.readChunkSize)
    let reachedEndOfData := chunkEnd == dataEnd
    if didntReceiveFullChunk || reachedEndOfData then
      -- No more data to read.
      if !chunk.isEmpty then return some (← writerSend written chunk)
      else return some written
    -- We received a full chunk's worth of data, so write it...
    let written ← writerSend written chunk
    -- ...and go grab the next chunk.
    let nextEnd ← store.chunkEndFrom dataEnd (chunkEnd + 1)
    getPartLoop db encodedKey dataEnd rounds (chunkEnd + 1) nextEnd written

-- `get_part(key, writer, offset, length)` with at most `rounds` GETRANGE calls: the bytes written
-- before the writer's EOF, or `none` when the loop goes on past them.
def getPart (db : Redis) (key : StoreKey) (offset : Nat) (length : Option Nat) (rounds : Nat) :
    Except Failure (Option (List UInt8)) := do
  -- To follow RBE spec we need to consider any digest's with zero size to be existing.
  if key.isZeroDigest then return some []
  let encodedKey := store.encodeKey key
  -- GETRANGE includes both ends, so `data_end` is the last byte asked for.
  let dataStart := offset
  let dataEnd := saturatingAdd dataStart (length.getD isizeMax) - 1
  let chunkEnd ← store.chunkEndFrom dataEnd dataStart
  let some written ← store.getPartLoop db encodedKey dataEnd rounds dataStart chunkEnd []
    | return none
  -- If we didn't write any data, check if the key exists, if not return a NotFound error.
  if written.isEmpty && !db.existsKey encodedKey then
    throw (.error ("Data not found in Redis store for digest: " ++ key.asStr))
  return some written

theorem new_settings_pos (keyPrefix : String) (readChunkSize maxChunkUploadsPerUpdate : Nat) :
    0 < (new keyPrefix readChunkSize maxChunkUploadsPerUpdate).readChunkSize ∧
      0 < (new keyPrefix readChunkSize maxChunkUploadsPerUpdate).maxChunkUploadsPerUpdate := by
  simp only [new, defaultReadChunkSize, defaultMaxChunkUploadsPerUpdate]
  constructor
  · split <;> omega
  · split <;> omega

/-! ## What `update` stores -/

section Update

variable {store}

theorem scanChunks_eq : ∀ (reads : List (List UInt8)) (bytesRead : Nat),
    bytesRead + reads.flatten.length ≤ u32Max →
    scanChunks reads bytesRead =
      pure ((Overwrite.placed reads bytesRead).map fun p => (p.1, p.1 + p.2.length, p.2))
  | [], _, _ => rfl
  | chunk :: chunks, bytesRead, hsize => by
    rw [List.flatten_cons, List.length_append] at hsize
    have hchunk : ¬chunk.length > u32Max := by omega
    have hread : ¬bytesRead + chunk.length > u32Max := by omega
    simp only [scanChunks, if_neg hchunk, if_neg hread,
      scanChunks_eq chunks (bytesRead + chunk.length) (by omega)]
    rfl

theorem setranges_eq {reads : List (List UInt8)} (hreads : reads ≠ []) (hne : ∀ r ∈ reads, r ≠ [])
    {done : List (Nat × Nat × List UInt8)}
    (hperm : done.Perm ((Overwrite.placed reads 0).map fun p => (p.1, p.1 + p.2.length, p.2)))
    {db : Redis} {tempKey : String} (htemp : db tempKey = none) :
    done.foldl (fun (db : Redis) upload => db.setrange tempKey upload.1 upload.2.2) db =
      Function.update db tempKey (some reads.flatten) := by
  have hwrites : (done.map fun u => (u.1, u.2.2)).Perm (Overwrite.placed reads 0) := by
    have h := hperm.map fun u => (u.1, u.2.2)
    rwa [List.map_map, show ((fun u : Nat × Nat × List UInt8 => (u.1, u.2.2)) ∘
      fun p : Nat × List UInt8 => (p.1, p.1 + p.2.length, p.2)) = id from rfl, List.map_id] at h
  have hvalues : ∀ w ∈ done.map (fun u => (u.1, u.2.2)), w.2 ≠ [] :=
    fun w hw => hne w.2 (Overwrite.mem_of_mem_placed (hwrites.mem_iff.mp hw))
  have hlength : (done.map fun u => (u.1, u.2.2)).length = reads.length := by
    rw [hwrites.length_eq, Overwrite.length_placed]
  have hmap : done.foldl (fun (db : Redis) upload => db.setrange tempKey upload.1 upload.2.2) db =
      (done.map fun u => (u.1, u.2.2)).foldl (fun (db : Redis) w => db.setrange tempKey w.1 w.2) db := by
    rw [List.foldl_map]
  rw [hmap]
  obtain ⟨w, rest, hcons⟩ := List.exists_cons_of_ne_nil
    (List.ne_nil_of_length_pos (by rw [hlength]; exact List.length_pos_of_ne_nil hreads))
  rw [hcons] at hvalues
  rw [hcons, List.foldl_cons, Redis.setrange_of_ne_nil (hvalues w List.mem_cons_self), htemp,
    Option.getD_none, Redis.foldl_setrange rest _ (fun w' hw' => hvalues w' (List.mem_cons_of_mem w hw')),
    ← List.foldl_cons, ← hcons, Overwrite.foldl_overwrite_of_perm 0 hwrites]

theorem totalLen_eq {reads : List (List UInt8)} {done : List (Nat × Nat × List UInt8)}
    (hperm : done.Perm ((Overwrite.placed reads 0).map fun p => (p.1, p.1 + p.2.length, p.2))) :
    done.foldl (fun totalLen upload => max totalLen upload.2.1) 0 = reads.flatten.length := by
  have : RightCommutative (fun (t : Nat) (u : Nat × Nat × List UInt8) => max t u.2.1) :=
    ⟨fun a b c => by omega⟩
  rw [hperm.foldl_eq, List.foldl_map]
  simpa using Overwrite.foldl_max_placed reads 0

theorem update_eq {tempName : String} {key : StoreKey} {reads : List (List UInt8)}
    (completion : Completion store.maxChunkUploadsPerUpdate reads.length) {db : Redis}
    (hreads : reads ≠ []) (hne : ∀ r ∈ reads, r ≠ []) (hsize : reads.flatten.length ≤ u32Max)
    (htemp : db (store.tempKey tempName key) = none) :
    store.update tempName key reads completion db =
      pure (Function.update (Function.update db (store.tempKey tempName key) none)
        (store.encodeKey key) (some reads.flatten)) := by
  have hperm := completion.perm_filterMap
    (l := (Overwrite.placed reads 0).map fun p => (p.1, p.1 + p.2.length, p.2))
    (by rw [List.length_map, Overwrite.length_placed])
  have hempty : reads.isEmpty = false := by simpa using hreads
  have hlen : Redis.strlen (Function.update db (store.tempKey tempName key) (some reads.flatten))
      (store.tempKey tempName key) = reads.flatten.length := by
    simp [Redis.strlen]
  simp only [update, hempty, Bool.and_false, Bool.false_eq_true, if_false,
    scanChunks_eq reads 0 (by omega), pure_bind, setranges_eq hreads hne hperm htemp,
    totalLen_eq hperm, hlen, ne_eq, not_true_eq_false]
  rw [Redis.rename_of_some (Function.update_self _ _ _), Function.update_idem]

theorem scanChunks_error_of_long : ∀ (reads : List (List UInt8)) (bytesRead : Nat),
    bytesRead ≤ u32Max → u32Max < bytesRead + reads.flatten.length →
    ∃ e, scanChunks reads bytesRead = .error e
  | [], _, hb, hlong => by
    rw [List.flatten_nil, List.length_nil] at hlong
    omega
  | chunk :: chunks, bytesRead, hb, hlong => by
    rw [List.flatten_cons, List.length_append] at hlong
    by_cases hchunk : chunk.length > u32Max
    case pos => exact ⟨_, by simp [scanChunks, hchunk]; rfl⟩
    case neg =>
      by_cases hread : bytesRead + chunk.length > u32Max
      case pos => exact ⟨_, by simp [scanChunks, hchunk, hread]; rfl⟩
      case neg =>
        obtain ⟨e, he⟩ :=
          scanChunks_error_of_long chunks (bytesRead + chunk.length) (by omega) (by omega)
        exact ⟨e, by simp [scanChunks, hchunk, hread, he]⟩

theorem update_error_of_long {tempName : String} {key : StoreKey} {reads : List (List UInt8)}
    (completion : Completion store.maxChunkUploadsPerUpdate reads.length) {db : Redis}
    (hlong : u32Max < reads.flatten.length) :
    ∃ e, store.update tempName key reads completion db = .error e := by
  have hreads : reads.isEmpty = false := by
    rw [List.isEmpty_eq_false_iff]
    rintro rfl
    simp at hlong
  obtain ⟨e, he⟩ := scanChunks_error_of_long reads 0 (Nat.zero_le _) (by omega)
  exact ⟨e, by simp [update, hreads, he]; rfl⟩

end Update

/-! ## What `get_part` writes -/

section GetPart

variable {store}

theorem chunkEndFrom_eq (hc : 0 < store.readChunkSize) (dataEnd start : Nat) :
    store.chunkEndFrom dataEnd start =
      pure (min (saturatingAdd start store.readChunkSize - 1) dataEnd) := by
  rw [chunkEndFrom, if_neg (by unfold saturatingAdd usizeMax; omega)]

theorem chunkEnd_cases {c dataEnd : Nat} (start : Nat) (hc : 0 < c) (hend : dataEnd < usizeMax) :
    min (saturatingAdd start c - 1) dataEnd = dataEnd ∨
      (min (saturatingAdd start c - 1) dataEnd = start + c - 1 ∧ start + c - 1 < dataEnd) := by
  unfold saturatingAdd
  omega

theorem writeLast (written chunk : List UInt8) :
    (if (!chunk.isEmpty) = true then
        (do let w ← writerSend written chunk; pure (some w) : Except Failure (Option (List UInt8)))
      else pure (some written)) = pure (some (written ++ chunk)) := by
  by_cases hempty : chunk = []
  case pos => simp [hempty]
  case neg => simp [hempty, writerSend_of_ne_nil hempty]

-- From `chunk_start` on, the loop writes the bytes up to `data_end`: a full chunk in each round
-- but the last, which stops at `data_end` or at the end of the string. The rounds are enough when
-- the bytes left fit in as many chunks. The induction is on the rounds.
theorem getPartLoop_eq {db : Redis} {encodedKey : String} {D : List UInt8}
    (hD : (db encodedKey).getD [] = D) {dataEnd : Nat} (hc : 0 < store.readChunkSize)
    (hend : dataEnd < usizeMax) :
    ∀ (rounds chunkStart : Nat) (written : List UInt8),
      min D.length (dataEnd + 1) - chunkStart < rounds * store.readChunkSize →
      store.getPartLoop db encodedKey dataEnd rounds chunkStart
          (min (saturatingAdd chunkStart store.readChunkSize - 1) dataEnd) written =
        pure (some (written ++ (D.drop chunkStart).take (dataEnd + 1 - chunkStart)))
  | 0, _, _, hrounds => by simp at hrounds
  | rounds + 1, chunkStart, written, hrounds => by
    set c := store.readChunkSize with hcdef
    set chunkEnd := min (saturatingAdd chunkStart c - 1) dataEnd with hce
    have hread : db.getrange encodedKey chunkStart chunkEnd =
        (D.drop chunkStart).take (chunkEnd + 1 - chunkStart) := by
      rw [Redis.getrange_eq, hD]
    simp only [getPartLoop, hread]
    have hcases := chunkEnd_cases chunkStart hc hend
    rw [← hce] at hcases
    rcases hcases with hreach | ⟨hwidth, hbefore⟩
    case inl =>
      rw [if_pos (by simp [hreach]), hreach, writeLast]
    case inr =>
      rw [show chunkEnd + 1 - chunkStart = c by omega]
      by_cases hshort : ((D.drop chunkStart).take c).length < c
      case pos =>
        have hrest : (D.drop chunkStart).take c = (D.drop chunkStart).take (dataEnd + 1 - chunkStart) := by
          rw [List.length_take, List.length_drop] at hshort
          rw [List.take_eq_take_iff, List.length_drop]
          omega
        have hcond : (decide (((D.drop chunkStart).take c).length < c) || chunkEnd == dataEnd) = true := by
          rw [decide_eq_true hshort, Bool.true_or]
        rw [if_pos hcond, hrest, writeLast]
      case neg =>
        rw [List.length_take, List.length_drop] at hshort
        have hne : (D.drop chunkStart).take c ≠ [] := by
          rw [Ne, List.take_eq_nil_iff, List.drop_eq_nil_iff]
          omega
        have hfuel : min D.length (dataEnd + 1) - (chunkEnd + 1) < rounds * store.readChunkSize := by
          rw [← hcdef]
          rw [Nat.add_mul, Nat.one_mul] at hrounds
          omega
        have hcond : (decide (((D.drop chunkStart).take c).length < c) || chunkEnd == dataEnd) = false := by
          simp only [List.length_take, List.length_drop, Bool.or_eq_false_iff, decide_eq_false_iff_not,
            beq_eq_false_iff_ne]
          omega
        rw [if_neg (Bool.eq_false_iff.mp hcond), writerSend_of_ne_nil hne, pure_bind,
          chunkEndFrom_eq hc, pure_bind, getPartLoop_eq hD hc hend rounds (chunkEnd + 1) _ hfuel]
        have hnext : chunkEnd + 1 = chunkStart + c := by omega
        have hsplit : dataEnd + 1 - chunkStart = c + (dataEnd + 1 - (chunkStart + c)) := by omega
        rw [hnext, List.append_assoc, ← List.drop_drop, ← List.take_add, ← hsplit]

theorem take_dataEnd {D : List UInt8} {offset : Nat} {length : Option Nat}
    (hlen : length ≠ some 0 ∨ offset ≠ 0) (hD : D.length ≤ isizeMax) :
    (D.drop offset).take (saturatingAdd offset (length.getD isizeMax) - 1 + 1 - offset) =
      slice D offset length := by
  cases length
  case none =>
    rw [slice, List.take_of_length_le]
    rw [List.length_drop, Option.getD_none]
    unfold saturatingAdd isizeMax usizeMax at *
    omega
  case some l =>
    have hl : l ≠ 0 ∨ offset ≠ 0 := by simpa using hlen
    rw [slice, List.take_eq_take_iff, List.length_drop, Option.getD_some]
    unfold saturatingAdd isizeMax usizeMax at *
    omega

theorem getPart_eq {db : Redis} {key : StoreKey} {D : List UInt8} (hkey : key.isZeroDigest = false)
    (hdb : db (store.encodeKey key) = some D) (hc : 0 < store.readChunkSize)
    (hD : D.length ≤ isizeMax) {offset : Nat} {length : Option Nat}
    (hlen : length ≠ some 0 ∨ offset ≠ 0) {rounds : Nat}
    (hrounds : (slice D offset length).length / store.readChunkSize < rounds) :
    store.getPart db key offset length rounds = pure (some (slice D offset length)) := by
  have hD' : (db (store.encodeKey key)).getD [] = D := by rw [hdb, Option.getD_some]
  have hend : saturatingAdd offset (length.getD isizeMax) - 1 < usizeMax := by
    unfold saturatingAdd usizeMax
    omega
  have hwant := take_dataEnd (D := D) hlen hD
  have hfuel : min D.length (saturatingAdd offset (length.getD isizeMax) - 1 + 1) - offset <
      rounds * store.readChunkSize := by
    have h := (Nat.div_lt_iff_lt_mul hc).mp hrounds
    rw [← hwant, List.length_take, List.length_drop] at h
    omega
  simp only [getPart, hkey, Bool.false_eq_true, if_false, chunkEndFrom_eq hc, pure_bind,
    getPartLoop_eq hD' hc hend rounds offset [] hfuel, List.nil_append, hwant]
  simp [Redis.existsKey, hdb]

theorem getPart_empty_at_start {db : Redis} {key : StoreKey} {D : List UInt8}
    (hkey : key.isZeroDigest = false) (hdb : db (store.encodeKey key) = some D)
    (hc : 0 < store.readChunkSize) (rounds : Nat) :
    store.getPart db key 0 (some 0) (rounds + 1) = pure (some (D.take 1)) := by
  have hD' : (db (store.encodeKey key)).getD [] = D := by rw [hdb, Option.getD_some]
  have hdataEnd : saturatingAdd 0 0 - 1 = 0 := rfl
  simp only [getPart, hkey, Bool.false_eq_true, if_false, Option.getD_some, hdataEnd,
    chunkEndFrom_eq hc, Nat.min_zero, pure_bind, getPartLoop, Redis.getrange_eq, hD', List.drop_zero]
  by_cases hempty : D.take 1 = []
  case pos => simp [hempty, Redis.existsKey, hdb]
  case neg => simp [hempty, writerSend_of_ne_nil hempty]

end GetPart

-- An upload of "abc" in two chunks, whose SETRANGEs finish in reverse order, stores it; an empty
-- read at offset 0 then returns its first byte.
theorem empty_read_at_offset_zero_returns_first_byte :
    ∃ db, (new "" 0 0).update "t" ⟨"k", false⟩ [[0x61], [0x62, 0x63]] ⟨[1, 0], by decide, by decide⟩
        (fun _ => none) = pure db ∧
      db "k" = some [0x61, 0x62, 0x63] ∧
      (new "" 0 0).getPart db ⟨"k", false⟩ 0 (some 0) 1 = pure (some [0x61]) :=
  ⟨_, rfl, by decide, by decide⟩

end RedisStore

end NativeLink
