import NativeLink.Util.StoreTrait

-- Model of `get_part` of `nativelink-store/src/fast_slow_store.rs`. On a hit of the fast store the
-- call is that store's `get_part`. On a miss the slow store streams the whole blob: each chunk is
-- sent on to the fast store's `update`, and the part of it inside the requested range, as
-- `calculate_range` finds it, to the writer. The two inner stores are what they answer for the
-- key: `has` of each, the fast store's `get_part`, and what `recv` reads from the slow store's
-- `get`, its chunks and then the empty chunk of its EOF. The fast store's `update` is taken to
-- accept what it is sent. A `Range<u64>` is the pair of its `start` and `end`; the model computes
-- in `Nat` and panics where the `u64` arithmetic overflows, as a build with overflow checks does.

namespace NativeLink.FastSlowStore

-- `Range::contains`.
def contains (range : Nat × Nat) (x : Nat) : Bool :=
  range.1 ≤ x && x < range.2

-- `FastSlowStore::calculate_range`: the part of `send_range` inside `received_range`, shifted to
-- start at `received_range.start`.
def calculateRange (receivedRange sendRange : Nat × Nat) : Except Failure (Option (Nat × Nat)) :=
  -- Protect against subtraction overflow.
  if receivedRange.1 ≥ receivedRange.2 then pure none
  else
    let start := max receivedRange.1 sendRange.1
    let end' := min receivedRange.2 sendRange.2
    -- `&&` computes `end - 1` only once `start` is in the received range
    if !contains receivedRange start then pure none
    else if end' = 0 then throw (.panic "attempt to subtract with overflow")
    else if contains receivedRange (end' - 1) then
      pure (some (start - receivedRange.1, end' - receivedRange.1))
    else pure none

-- `Bytes::slice`, which panics on a range that is reversed or runs past the buffer.
def bytesSlice (buf : List UInt8) (range : Nat × Nat) : Except Failure (List UInt8) :=
  if range.1 > range.2 then throw (.panic "range start must not be greater than end")
  else if range.2 > buf.length then throw (.panic "range end out of bounds")
  else pure ((buf.drop range.1).take (range.2 - range.1))

-- `writer_fut` of one pass of the loop: what the writer holds after the chunk `output_buf`, which
-- starts `bytes_received` bytes into the blob.
def writeChunk (sendRange : Nat × Nat) (bytesReceived : Nat) (outputBuf written : List UInt8) :
    Except Failure (List UInt8) := do
  if bytesReceived + outputBuf.length > u64Max then throw (.panic "attempt to add with overflow")
  let range ← calculateRange (bytesReceived, bytesReceived + outputBuf.length) sendRange
  match range with
  | some range => writerSend written (← bytesSlice outputBuf range)
  | none => pure written

-- `data_stream_fut`, over what `slow_rx.recv()` returns: the bytes written to the writer and the
-- chunks sent to the fast store, both before their EOF. Every chunk goes to the fast store in full.
def dataStream (sendRange : Nat × Nat) :
    List (List UInt8) → Nat → List UInt8 → List (List UInt8) →
      Except Failure (List UInt8 × List (List UInt8))
  -- the slow store dropped its sender before its EOF
  | [], _, _, _ => throw (.error "Sender dropped before sending EOF")
  | outputBuf :: received, bytesReceived, written, fastData =>
    if outputBuf.isEmpty then pure (written, fastData)
    else do
      let written ← writeChunk sendRange bytesReceived outputBuf written
      dataStream sendRange received (bytesReceived + outputBuf.length) written
        (fastData ++ [outputBuf])

-- What the inner stores answer for the key.
structure InnerStores where
  fastHas : Option Nat
  fastGetPart : Nat → Option Nat → Except Failure (List UInt8)
  slowHas : Option Nat
  slowReceived : List (List UInt8)

-- `get_part(key, writer, offset, length)`: the bytes written before the writer's EOF and the
-- chunks the fast store receives.
def getPart (key : String) (stores : InnerStores) (offset : Nat) (length : Option Nat) :
    Except Failure (List UInt8 × List (List UInt8)) :=
  if stores.fastHas.isSome then do
    let written ← stores.fastGetPart offset length
    pure (written, [])
  else
    match stores.slowHas with
    | none => throw (.error s!"Object {key} not found in either fast or slow store")
    | some _ => do
      let sendEnd ← match length with
        | some length =>
          if length + offset > u64Max then throw (.panic "attempt to add with overflow")
          else pure (length + offset)
        | none => pure u64Max
      dataStream (offset, sendEnd) stores.slowReceived 0 [] []

/-! ## The range of each chunk -/

-- The bytes of `data`, placed `start` bytes into the blob, that lie in `[o, e)`.
def window (data : List UInt8) (start o e : Nat) : List UInt8 :=
  (data.drop (o - start)).take (e - max o start)

theorem window_nil (start o e : Nat) : window [] start o e = [] := by
  simp [window]

theorem window_append (f X : List UInt8) (start o e : Nat) :
    window (f ++ X) start o e = window f start o e ++ window X (start + f.length) o e := by
  unfold window
  rw [List.drop_append, List.take_append, List.length_drop]
  have hoff : o - start - f.length = o - (start + f.length) := by omega
  have hcount : e - max o start - (f.length - (o - start)) = e - max o (start + f.length) := by
    omega
  rw [hoff, hcount]

theorem window_eq_nil {f : List UInt8} {start o e : Nat}
    (h : ¬max start o < min (start + f.length) e) : window f start o e = [] := by
  rw [window, List.take_eq_nil_iff, List.drop_eq_nil_iff]
  omega

@[simp] theorem contains_eq_true {range : Nat × Nat} {x : Nat} :
    contains range x = true ↔ range.1 ≤ x ∧ x < range.2 := by
  simp [contains]

@[simp] theorem contains_eq_false {range : Nat × Nat} {x : Nat} :
    contains range x = false ↔ ¬(range.1 ≤ x ∧ x < range.2) := by
  rw [← contains_eq_true, Bool.not_eq_true]

theorem calculateRange_eq {r s : Nat × Nat} (h : s.1 < s.2 ∨ r.2 ≤ s.1) :
    calculateRange r s =
      pure (if max r.1 s.1 < min r.2 s.2 then some (max r.1 s.1 - r.1, min r.2 s.2 - r.1)
        else none) := by
  unfold calculateRange
  by_cases hr : r.1 ≥ r.2
  case pos => rw [if_pos hr, if_neg (by omega)]
  case neg =>
    rw [if_neg hr]
    by_cases hstart : r.1 ≤ max r.1 s.1 ∧ max r.1 s.1 < r.2
    case neg =>
      rw [if_pos (by simpa using hstart), if_neg (by omega)]
    case pos =>
      have hne : min r.2 s.2 ≠ 0 := by omega
      rw [if_neg (by simpa using hstart), if_neg hne]
      by_cases hmeet : max r.1 s.1 < min r.2 s.2
      case pos => rw [if_pos (contains_eq_true.mpr (by omega)), if_pos hmeet]
      case neg =>
        rw [if_neg (by rw [contains_eq_true]; omega), if_neg hmeet]

theorem calculateRange_isSome_iff {r s : Nat × Nat} (h : s.1 < s.2) :
    (∃ range, calculateRange r s = pure (some range)) ↔ ∃ x, contains r x ∧ contains s x := by
  rw [calculateRange_eq (Or.inl h)]
  simp only [contains_eq_true]
  constructor
  case mp =>
    rintro ⟨range, hrange⟩
    by_cases hmeet : max r.1 s.1 < min r.2 s.2
    case pos => exact ⟨max r.1 s.1, by omega, by omega⟩
    case neg =>
      rw [if_neg hmeet] at hrange
      injection hrange with hnone
      cases hnone
  case mpr =>
    rintro ⟨x, hr, hs⟩
    have hmeet : max r.1 s.1 < min r.2 s.2 := by omega
    exact ⟨_, by rw [if_pos hmeet]⟩

theorem bytesSlice_of_le {buf : List UInt8} {range : Nat × Nat} (h : range.1 ≤ range.2)
    (hlen : range.2 ≤ buf.length) :
    bytesSlice buf range = pure ((buf.drop range.1).take (range.2 - range.1)) := by
  rw [bytesSlice, if_neg (by omega), if_neg (by omega)]

theorem writeChunk_eq {o e bytesReceived : Nat} {outputBuf written : List UInt8}
    (hrange : o < e ∨ bytesReceived + outputBuf.length ≤ o)
    (hsize : bytesReceived + outputBuf.length ≤ u64Max) :
    writeChunk (o, e) bytesReceived outputBuf written =
      pure (written ++ window outputBuf bytesReceived o e) := by
  unfold writeChunk
  rw [if_neg (by omega), calculateRange_eq hrange, pure_bind]
  by_cases hmeet : max bytesReceived o < min (bytesReceived + outputBuf.length) e
  case neg =>
    simp only [if_neg hmeet, window_eq_nil hmeet, List.append_nil]
  case pos =>
    simp only [if_pos hmeet]
    rw [bytesSlice_of_le (by omega) (by simp only; omega), pure_bind]
    have hslice : (outputBuf.drop (max bytesReceived o - bytesReceived)).take
        (min (bytesReceived + outputBuf.length) e - bytesReceived -
          (max bytesReceived o - bytesReceived)) = window outputBuf bytesReceived o e := by
      rw [window, show max bytesReceived o - bytesReceived = o - bytesReceived by omega,
        List.take_eq_take_iff, List.length_drop]
      omega
    have hne : window outputBuf bytesReceived o e ≠ [] := by
      rw [window, Ne, List.take_eq_nil_iff, List.drop_eq_nil_iff]
      omega
    simp only [hslice, writerSend_of_ne_nil hne]

/-! ## The loop -/

theorem dataStream_eq {o e : Nat} (F : List (List UInt8)) (hne : ∀ f ∈ F, f ≠ [])
    (bytesReceived : Nat) (written : List UInt8) (fastData : List (List UInt8))
    (hrange : o < e ∨ bytesReceived + F.flatten.length ≤ o)
    (hsize : bytesReceived + F.flatten.length ≤ u64Max) :
    dataStream (o, e) (F ++ [[]]) bytesReceived written fastData =
      pure (written ++ window F.flatten bytesReceived o e, fastData ++ F) := by
  induction F generalizing bytesReceived written fastData
  case nil => simp [dataStream, window_nil]
  case cons f F ih =>
    have hf : f.isEmpty = false := by simpa using hne f List.mem_cons_self
    have hrest : ∀ g ∈ F, g ≠ [] := fun g hg => hne g (List.mem_cons_of_mem f hg)
    rw [List.flatten_cons, List.length_append] at hrange hsize
    rw [List.cons_append, dataStream, if_neg (by simp [hf]),
      writeChunk_eq (by omega) (by omega), pure_bind,
      ih hrest _ _ _ (by omega) (by omega), List.flatten_cons, window_append]
    simp

-- On a miss of the fast store, a read of the blob that the slow store sends as the chunks `F`
-- writes `D[offset .. offset + length]` and hands the whole blob to the fast store, as long as
-- the length asked for is not zero.
theorem getPart_of_fast_miss (key : String) {stores : InnerStores} {F : List (List UInt8)}
    {offset : Nat} {length : Option Nat} (hfast : stores.fastHas = none)
    (hslow : stores.slowHas.isSome) (hrecv : stores.slowReceived = F ++ [[]])
    (hne : ∀ f ∈ F, f ≠ []) (hsize : F.flatten.length ≤ u64Max) (hlen : length ≠ some 0)
    (hbound : offset + length.getD 0 ≤ u64Max) :
    getPart key stores offset length = pure (slice F.flatten offset length, F) := by
  obtain ⟨sz, hsz⟩ := Option.isSome_iff_exists.mp hslow
  unfold getPart
  rw [hfast, hsz, hrecv]
  simp only [Option.isSome_none, Bool.false_eq_true, if_false]
  cases length
  case none =>
    rw [pure_bind, dataStream_eq F hne 0 [] [] (by unfold u64Max at *; omega) (by omega)]
    have hall : F.flatten.length - offset ≤ u64Max - max offset 0 := by omega
    simp [window, slice, List.take_of_length_le (l := F.flatten.drop offset) (by simpa using hall)]
  case some l =>
    have hl : l ≠ 0 := fun h => hlen (h ▸ rfl)
    simp only [Option.getD_some] at hbound
    have hover : ¬l + offset > u64Max := by omega
    simp only [if_neg hover, pure_bind]
    rw [dataStream_eq F hne 0 [] [] (by omega) (by omega)]
    simp [window, slice]

-- A read of no bytes from inside a chunk, or from the start of the blob, fails: `calculate_range`
-- gives an empty range inside the chunk for the empty send range `offset..offset`, which the
-- writer refuses to send, and at offset 0 it computes `0 - 1`.
theorem zero_length_slow_read_fails (fastGetPart : Nat → Option Nat → Except Failure (List UInt8)) :
    calculateRange (0, 3) (1, 1) = pure (some (1, 1)) ∧
    getPart "abc" ⟨none, fastGetPart, some 3, [[0x61, 0x62, 0x63], []]⟩ 1 (some 0) =
      throw (.error "Cannot send EOF in send(). Instead use send_eof()") ∧
    getPart "abc" ⟨none, fastGetPart, some 3, [[0x61, 0x62, 0x63], []]⟩ 0 (some 0) =
      throw (.panic "attempt to subtract with overflow") :=
  ⟨rfl, rfl, rfl⟩

end NativeLink.FastSlowStore
