import NativeLink.Util.FastCDC
import NativeLink.Util.StoreTrait
import Mathlib

-- Model of `nativelink-store/src/dedup_store.rs`. `update` cuts the input into FastCDC frames,
-- stores each frame in the content store under its digest and the list of digests, the index, in
-- the index store. `get_part` selects the index entries that overlap the requested range and
-- streams their data, skipping the bytes before the offset in the first one and stopping after
-- `length` bytes. The index store is taken to return the index as it was written, and the
-- content store is a function from digests to what it holds. The fetches run up to
-- `max_concurrent_fetch_per_get` at a time but their results are written in order, so the
-- model fetches one after another.

namespace NativeLink

-- `nativelink_config::stores::DedupSpec`, without its two inner stores.
structure DedupSpec where
  minSize : Nat
  normalSize : Nat
  maxSize : Nat
  maxConcurrentFetchPerGet : Nat

structure DedupStore where
  fastCdcDecoder : FastCDC
  maxConcurrentFetchPerGet : Nat

namespace DedupStore

def defaultMinSize : Nat := 64 * 1024
def defaultNormSize : Nat := 256 * 1024
def defaultMaxSize : Nat := 512 * 1024
def defaultMaxConcurrentFetchPerGet : Nat := 10

-- `DedupStore::new`; `none` is a panic of `FastCDC::new`.
def new (spec : DedupSpec) : Option DedupStore := do
  let minSize := if spec.minSize = 0 then defaultMinSize else spec.minSize
  let normalSize := if spec.normalSize = 0 then defaultNormSize else spec.normalSize
  let maxSize := if spec.maxSize = 0 then defaultMaxSize else spec.maxSize
  let maxConcurrentFetchPerGet :=
    if spec.maxConcurrentFetchPerGet = 0 then defaultMaxConcurrentFetchPerGet
    else spec.maxConcurrentFetchPerGet
  let fastCdcDecoder ← FastCDC.new minSize normalSize maxSize
  pure ⟨fastCdcDecoder, maxConcurrentFetchPerGet⟩

-- `DigestInfo::new(blake3::hash(frame), frame.len())`.
def digestOf (blake3 : List UInt8 → Nat) (frame : List UInt8) : DigestInfo :=
  ⟨blake3 frame, frame.length⟩

-- `update`: the index stored under the key, for an input that arrives as `reads`. Each frame is
-- stored in the content store under its digest, unless the store has that digest already.
def update (store : DedupStore) (blake3 : List UInt8 → Nat) (reads : List (List UInt8)) :
    List DigestInfo :=
  (store.fastCdcDecoder.framedRead [] reads).map (digestOf blake3)

-- The loop of `get_part` that selects the entries overlapping the range: entries ending at or
-- before the offset are skipped, and the loop stops at the first entry starting at or after
-- `offset + length`. It returns the entries kept and `start_byte_in_stream`.
def selectEntries (offset : Nat) (length : Option Nat) :
    List DigestInfo → Nat → Nat → List DigestInfo × Nat
  | [], _, startByteInStream => ([], startByteInStream)
  | entry :: entries, currentEntriesSum, startByteInStream =>
    let firstByte := currentEntriesSum
    let currentEntriesSum := currentEntriesSum + entry.sizeBytes
    if currentEntriesSum ≤ offset then
      selectEntries offset length entries currentEntriesSum currentEntriesSum
    else if length.any (firstByte ≥ offset + ·) then ([], startByteInStream)
    else
      let (kept, startByteInStream) :=
        selectEntries offset length entries currentEntriesSum startByteInStream
      (entry :: kept, startByteInStream)

-- The `while let` loop of `get_part` over the data of the selected entries: the bytes written.
def sendEntries (contentStore : DigestInfo → Option (List UInt8)) :
    List DigestInfo → Nat → Nat → List UInt8 → Except Failure (List UInt8)
  | [], _, _, written => pure written
  | entry :: entries, bytesToSkip, bytesToSend, written => do
    let some data := contentStore entry
      | throw (.error "Failed to get_part in content_store in dedup_store")
    if ¬bytesToSkip ≤ data.length then throw (.panic "Formula above must be wrong")
    if bytesToSend + bytesToSkip > u64Max then throw (.panic "attempt to add with overflow")
    let endPos := min data.length (bytesToSend + bytesToSkip)
    let data :=
      if bytesToSkip != 0 || data.length > bytesToSend then (data.take endPos).drop bytesToSkip
      else data
    let written ← writerSend written data
    sendEntries contentStore entries 0 (bytesToSend - (endPos - bytesToSkip)) written

-- `get_part(key, writer, offset, length)` for a key whose index is `index`: the bytes written.
def getPart (contentStore : DigestInfo → Option (List UInt8)) (index : List DigestInfo)
    (offset : Nat) (length : Option Nat) : Except Failure (List UInt8) :=
  if length = some 0 then pure []
  else
    let (entries, startByteInStream) :=
      if offset = 0 ∧ length = none then (index, 0)
      else selectEntries offset length index 0 0
    if startByteInStream > offset then throw (.panic "attempt to subtract with overflow")
    else sendEntries contentStore entries (offset - startByteInStream) (length.getD (u64Max - offset)) []

-- The reads of `get_part` after `update`: the frames are the whole input, none empty, and the content
-- store returns each frame for its digest. The selection skips the frames ending at or before
-- the offset, `start_byte_in_stream` is then where the first kept frame starts, and the kept
-- frames are those starting before `offset + length`; the streaming loop sends the bytes of
-- these from the offset on, `length` of them.

section Range

variable {contentStore : DigestInfo → Option (List UInt8)} {blake3 : List UInt8 → Nat}

theorem sentData_eq {data : List UInt8} {skip send : Nat} (h : skip ≤ data.length) :
    (if skip != 0 || data.length > send then (data.take (min data.length (send + skip))).drop skip
      else data) = (data.drop skip).take send := by
  split
  case isTrue =>
    rw [List.drop_take, List.take_eq_take_iff, List.length_drop]
    omega
  case isFalse hc =>
    simp only [Bool.or_eq_true, bne_iff_ne, ne_eq, decide_eq_true_eq, not_or, not_not] at hc
    obtain ⟨rfl, hle⟩ := hc
    rw [List.drop_zero, List.take_of_length_le (Nat.le_of_not_lt hle)]

theorem take_drop_append {a b : List UInt8} {skip send : Nat} (h : skip ≤ a.length)
    (hs : a.length - skip ≤ send) :
    ((a ++ b).drop skip).take send = a.drop skip ++ b.take (send - (a.length - skip)) := by
  rw [List.drop_append_of_le_length h, List.take_append,
    List.take_of_length_le (by rw [List.length_drop]; exact hs), List.length_drop]

theorem sendEntries_frames {F : List (List UInt8)}
    (hc : ∀ f ∈ F, contentStore (digestOf blake3 f) = some f) (hne : ∀ f ∈ F, f ≠ []) :
    ∀ skip send written, (∀ f ∈ F.head?, skip < f.length) →
      F.dropLast.flatten.length - skip < send → send + skip ≤ u64Max →
      sendEntries contentStore (F.map (digestOf blake3)) skip send written =
        .ok (written ++ (F.flatten.drop skip).take send) := by
  induction F
  case nil =>
    intro skip send written _ _ _
    simp [sendEntries]
    rfl
  case cons f F ih =>
    intro skip send written hhead hlast hover
    have hskip : skip < f.length := hhead f rfl
    simp only [List.map_cons, sendEntries, hc f List.mem_cons_self]
    rw [if_neg (not_not.mpr (Nat.le_of_lt hskip)), if_neg (Nat.not_lt.mpr hover), sentData_eq (Nat.le_of_lt hskip)]
    have hdata : (f.drop skip).take send ≠ [] := by
      rw [Ne, List.take_eq_nil_iff, List.drop_eq_nil_iff]
      omega
    rw [writerSend_of_ne_nil hdata, pure_bind]
    cases F
    case nil =>
      simp only [List.map_nil, sendEntries, List.flatten_cons, List.flatten_nil, List.append_nil]
      rfl
    case cons g G =>
      have hrest := hlast
      rw [List.dropLast_cons_cons, List.flatten_cons, List.length_append] at hrest
      have hall : f.length - skip ≤ send := by omega
      have hend : min f.length (send + skip) = f.length := by omega
      show _ = Except.ok (written ++ ((f ++ (g :: G).flatten).drop skip).take send)
      rw [List.take_of_length_le (by rw [List.length_drop]; exact hall), hend,
        ih (fun f' hf' => hc f' (List.mem_cons_of_mem _ hf')) (fun f' hf' => hne f' (List.mem_cons_of_mem _ hf'))
          0 _ _ (fun g' hg' => ?_) (by omega) (by omega),
        take_drop_append (Nat.le_of_lt hskip) hall, List.drop_zero, List.append_assoc]
      cases hg'
      exact List.length_pos_of_ne_nil (hne g (by simp))


-- The frames the selection keeps once past the offset: those starting before `limit`.
def keepFrames (limit : Option Nat) : List (List UInt8) → Nat → List (List UInt8)
  | [], _ => []
  | frame :: frames, firstByte =>
    if limit.any (firstByte ≥ ·) then [] else frame :: keepFrames limit frames (firstByte + frame.length)

theorem selectEntries_past_offset {offset : Nat} {length : Option Nat} :
    ∀ (F : List (List UInt8)) {firstByte startByteInStream}, offset < firstByte →
      selectEntries offset length (F.map (digestOf blake3)) firstByte startByteInStream =
        ((keepFrames (length.map (offset + ·)) F firstByte).map (digestOf blake3), startByteInStream)
  | [], _, _, _ => rfl
  | f :: F, firstByte, startByteInStream, h => by
    have hpast : ¬firstByte + f.length ≤ offset := by omega
    have hany : (length.map (offset + ·)).any (firstByte ≥ ·) = length.any (firstByte ≥ offset + ·) := by
      cases length <;> rfl
    simp only [List.map_cons, selectEntries, digestOf, if_neg hpast, keepFrames, hany]
    split
    case isTrue => rfl
    case isFalse =>
      rw [selectEntries_past_offset F (by omega)]
      rfl

theorem keepFrames_none : ∀ (F : List (List UInt8)) firstByte, keepFrames none F firstByte = F
  | [], _ => rfl
  | f :: F, firstByte => by
    rw [keepFrames, if_neg (by simp), keepFrames_none F]

theorem keepFrames_prefix (limit : Nat) :
    ∀ (F : List (List UInt8)) firstByte, ∃ W, F = keepFrames (some limit) F firstByte ++ W ∧
      (W = [] ∨ limit ≤ firstByte + (keepFrames (some limit) F firstByte).flatten.length)
  | [], _ => ⟨[], rfl, .inl rfl⟩
  | f :: F, firstByte => by
    by_cases hlim : firstByte ≥ limit
    case pos =>
      refine ⟨f :: F, ?_, .inr ?_⟩
      all_goals simp [keepFrames, hlim]
    case neg =>
      obtain ⟨W, hW, hrest⟩ := keepFrames_prefix limit F (firstByte + f.length)
      have hk : keepFrames (some limit) (f :: F) firstByte =
          f :: keepFrames (some limit) F (firstByte + f.length) := by
        simp [keepFrames, hlim]
      refine ⟨W, ?_, ?_⟩
      case refine_1 => rw [hk, List.cons_append, ← hW]
      case refine_2 =>
        rw [hk, List.flatten_cons, List.length_append]
        rcases hrest with h | h
        case inl => exact .inl h
        case inr => exact .inr (by omega)

theorem keepFrames_last_start (limit : Nat) :
    ∀ (F : List (List UInt8)) firstByte, firstByte < limit →
      firstByte + (keepFrames (some limit) F firstByte).dropLast.flatten.length < limit
  | [], _, h => by simpa [keepFrames] using h
  | f :: F, firstByte, h => by
    have hk : keepFrames (some limit) (f :: F) firstByte =
        f :: keepFrames (some limit) F (firstByte + f.length) := by
      simp [keepFrames, Nat.not_le.mpr h]
    rw [hk]
    by_cases hnext : firstByte + f.length < limit
    case pos =>
      have ih := keepFrames_last_start limit F (firstByte + f.length) hnext
      cases hkF : keepFrames (some limit) F (firstByte + f.length)
      case nil => simpa using h
      case cons g G =>
        rw [hkF] at ih
        rw [List.dropLast_cons_cons, List.flatten_cons, List.length_append]
        omega
    case neg =>
      have hnil : keepFrames (some limit) F (firstByte + f.length) = [] := by
        cases F
        case nil => rfl
        case cons => simp [keepFrames]; omega
      simpa [hnil] using h

theorem dropLast_flatten_length_lt {F : List (List UInt8)} (hne : ∀ f ∈ F, f ≠ []) (h : F ≠ []) :
    F.dropLast.flatten.length < F.flatten.length := by
  have hF := List.dropLast_append_getLast h
  have hlast := List.length_pos_of_ne_nil (hne _ (List.getLast_mem h))
  conv => rhs; rw [← hF]
  rw [List.flatten_append, List.length_append, List.flatten_singleton]
  omega

theorem slice_append_of_le {f X : List UInt8} {k : Nat} (h : f.length ≤ k) (length : Option Nat) :
    slice (f ++ X) k length = slice X (k - f.length) length := by
  cases length <;> simp [slice, List.drop_append, List.drop_eq_nil_of_le h]

theorem take_drop_append_of_le {Y W : List UInt8} {k l : Nat} (h : k + l ≤ Y.length) :
    ((Y ++ W).drop k).take l = (Y.drop k).take l := by
  rw [List.drop_append, List.take_append, List.length_drop,
    show l - (Y.length - k) = 0 by omega, List.take_zero, List.append_nil]

theorem selectEntries_first_kept {offset : Nat} {length : Option Nat} (hlen : length ≠ some 0)
    {f : List UInt8} {F : List (List UInt8)} {s : Nat} (hs : s ≤ offset)
    (hpast : ¬s + f.length ≤ offset) :
    selectEntries offset length ((f :: F).map (digestOf blake3)) s s =
      ((keepFrames (length.map (offset + ·)) (f :: F) s).map (digestOf blake3), s) := by
  have hany : length.any (s ≥ offset + ·) = false := by
    cases length
    case none => rfl
    case some l =>
      have : l ≠ 0 := fun h => hlen (h ▸ rfl)
      simp only [Option.any_some, decide_eq_false_iff_not]
      omega
  have hlim : (length.map (offset + ·)).any (s ≥ ·) = false := by
    cases length
    case none => rfl
    case some l => simpa using hany
  simp only [List.map_cons, selectEntries, digestOf, if_neg hpast, hany, keepFrames, hlim]
  rw [selectEntries_past_offset F (by omega)]
  rfl

theorem sendEntries_selectEntries {offset : Nat} {length : Option Nat} (hlen : length ≠ some 0)
    (hbound : offset + length.getD 0 ≤ u64Max) :
    ∀ (F : List (List UInt8)), (∀ f ∈ F, contentStore (digestOf blake3 f) = some f) →
      (∀ f ∈ F, f ≠ []) → ∀ s, s ≤ offset → s + F.flatten.length ≤ u64Max →
      (selectEntries offset length (F.map (digestOf blake3)) s s).2 ≤ offset ∧
      sendEntries contentStore (selectEntries offset length (F.map (digestOf blake3)) s s).1
          (offset - (selectEntries offset length (F.map (digestOf blake3)) s s).2)
          (length.getD (u64Max - offset)) [] =
        .ok (slice F.flatten (offset - s) length)
  | [], _, _, s, hs, _ => by
    refine ⟨hs, ?_⟩
    cases length <;> simp [selectEntries, sendEntries, slice] <;> rfl
  | f :: F, hc, hne, s, hs, hsize => by
    by_cases hskip : s + f.length ≤ offset
    case pos =>
      have hsel : selectEntries offset length ((f :: F).map (digestOf blake3)) s s =
          selectEntries offset length (F.map (digestOf blake3)) (s + f.length) (s + f.length) := by
        simp [selectEntries, digestOf, hskip]
      have ih := sendEntries_selectEntries hlen hbound F (fun f' hf' => hc f' (List.mem_cons_of_mem _ hf'))
        (fun f' hf' => hne f' (List.mem_cons_of_mem _ hf')) (s + f.length) hskip
        (by rw [List.flatten_cons, List.length_append] at hsize; omega)
      rw [hsel, List.flatten_cons, slice_append_of_le (by omega), Nat.sub_sub]
      exact ih
    case neg =>
      rw [selectEntries_first_kept hlen hs hskip]
      refine ⟨hs, ?_⟩
      have hfirst : offset - s < f.length := by omega
      have hfb : f.length ≤ (f :: F).flatten.length := by simp
      cases length
      case none =>
        have hlast := dropLast_flatten_length_lt hne (List.cons_ne_nil f F)
        simp only [Option.map_none, keepFrames_none, Option.getD_none]
        rw [sendEntries_frames hc hne (offset - s) (u64Max - offset) []
            (fun f' hf' => by cases hf'; exact hfirst) (by omega) (by omega),
          List.nil_append, List.take_of_length_le (by rw [List.length_drop]; omega)]
        rfl
      case some l =>
        have hl : l ≠ 0 := fun h => hlen (h ▸ rfl)
        simp only [Option.getD_some] at hbound
        obtain ⟨W, hW, hrest⟩ := keepFrames_prefix (offset + l) (f :: F) s
        have hK : keepFrames (some (offset + l)) (f :: F) s =
            f :: keepFrames (some (offset + l)) F (s + f.length) := by
          simp [keepFrames]
          omega
        have hsub : ∀ g ∈ keepFrames (some (offset + l)) (f :: F) s, g ∈ f :: F := fun g hg => by
          rw [hW]
          exact List.mem_append_left _ hg
        have hlastStart := keepFrames_last_start (offset + l) (f :: F) s (by omega)
        simp only [Option.map_some, Option.getD_some]
        rw [sendEntries_frames (fun g hg => hc g (hsub g hg)) (fun g hg => hne g (hsub g hg))
            (offset - s) l [] (fun g hg => by rw [hK] at hg; cases hg; exact hfirst) (by omega)
            (by omega),
          List.nil_append]
        conv => rhs; rw [hW, List.flatten_append]
        rcases hrest with hnil | hle
        case inl => rw [hnil, List.flatten_nil, List.append_nil]; rfl
        case inr => rw [slice, take_drop_append_of_le (by omega)]

theorem getPart_frames {F : List (List UInt8)} (hc : ∀ f ∈ F, contentStore (digestOf blake3 f) = some f)
    (hne : ∀ f ∈ F, f ≠ []) (hsize : F.flatten.length ≤ u64Max) (offset : Nat) (length : Option Nat)
    (hbound : offset + length.getD 0 ≤ u64Max) :
    getPart contentStore (F.map (digestOf blake3)) offset length = .ok (slice F.flatten offset length) := by
  unfold getPart
  by_cases h0 : length = some 0
  case pos =>
    subst h0
    simp [slice]
    rfl
  case neg =>
    rw [if_neg h0]
    by_cases hfast : offset = 0 ∧ length = none
    case pos =>
      obtain ⟨rfl, rfl⟩ := hfast
      have hhead : ∀ f ∈ F.head?, 0 < f.length := by
        intro f hf
        cases F
        case nil => cases hf
        case cons g G =>
          rw [List.head?_cons, Option.mem_some_iff] at hf
          subst hf
          exact List.length_pos_of_ne_nil (hne _ List.mem_cons_self)
      have hlast : F.dropLast.flatten.length - 0 < u64Max - 0 := by
        by_cases hF : F = []
        case pos => subst hF; decide
        case neg => have := dropLast_flatten_length_lt hne hF; omega
      simp only [and_self, if_true, Nat.lt_irrefl, if_false, Option.getD_none]
      rw [sendEntries_frames hc hne 0 (u64Max - 0) [] hhead hlast (by omega),
        List.nil_append, List.take_of_length_le (by rw [List.length_drop]; omega)]
      rfl
    case neg =>
      rw [if_neg hfast]
      obtain ⟨hstart, hsend⟩ := sendEntries_selectEntries h0 hbound F hc hne 0 (Nat.zero_le _)
        (by simpa using hsize)
      generalize selectEntries offset length (F.map (digestOf blake3)) 0 0 = r at hstart hsend
      obtain ⟨entries, startByteInStream⟩ := r
      dsimp only at hstart hsend ⊢
      rw [if_neg (Nat.not_lt.mpr hstart)]
      exact hsend

theorem new_minSize_pos {spec : DedupSpec} {store : DedupStore} (h : DedupStore.new spec = some store) :
    1 ≤ store.fastCdcDecoder.minSize := by
  unfold DedupStore.new at h
  cases hc : FastCDC.new (if spec.minSize = 0 then defaultMinSize else spec.minSize)
      (if spec.normalSize = 0 then defaultNormSize else spec.normalSize)
      (if spec.maxSize = 0 then defaultMaxSize else spec.maxSize)
  case none => simp [hc] at h
  case some c =>
    simp only [hc, Option.bind_eq_bind, Option.bind_some] at h
    cases h
    rw [FastCDC.new_minSize hc]
    split
    case isTrue => decide
    case isFalse hz => omega

theorem getPart_after_update (spec : DedupSpec) (store : DedupStore) (hnew : DedupStore.new spec = some store)
    (blake3 : List UInt8 → Nat) (reads : List (List UInt8)) (hreads : ∀ r ∈ reads, r ≠ [])
    (contentStore : DigestInfo → Option (List UInt8))
    (hcontent : ∀ f ∈ store.fastCdcDecoder.framedRead [] reads, contentStore (digestOf blake3 f) = some f)
    (hsize : reads.flatten.length ≤ u64Max) (offset : Nat) (length : Option Nat)
    (hbound : offset + length.getD 0 ≤ u64Max) :
    getPart contentStore (store.update blake3 reads) offset length = .ok (slice reads.flatten offset length) := by
  obtain ⟨hflat, hne⟩ := FastCDC.framedRead_spec reads store.fastCdcDecoder [] (new_minSize_pos hnew)
  -- the writer sends no empty chunk before EOF, so the chunker reads all of them
  have hall : reads.takeWhile (!·.isEmpty) = reads :=
    List.takeWhile_eq_self_iff.mpr fun r hr => by simpa using hreads r hr
  rw [hall, List.nil_append] at hflat
  rw [update, ← hflat]
  exact getPart_frames hcontent hne (hflat ▸ hsize) offset length hbound

-- Reading byte 1 of a stored "abc", under the default chunker.
theorem getPart_after_update_abc :
    getPart (fun d => if d.sizeBytes = 3 then some [0x61, 0x62, 0x63] else none)
        (DedupStore.update ⟨⟨65536, 262144, 524288, 163840, 0x3fff, 0xffff, 0, 0⟩, 10⟩
          (fun _ => 0x6437b3ac38465133ffb63b75273a8db548c558465d79db03fd359c6cd5bd9d85) [[0x61, 0x62, 0x63]])
        1 (some 1) =
      .ok (slice [0x61, 0x62, 0x63] 1 (some 1)) :=
  getPart_after_update ⟨0, 0, 0, 0⟩ _ rfl _ [[0x61, 0x62, 0x63]] (by decide) _
    (by decide +kernel) (by decide) 1 (some 1) (by decide)

end Range

end DedupStore

end NativeLink
