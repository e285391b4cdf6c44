import Mathlib

-- Model of `nativelink-util/src/fastcdc.rs`, the content-defined chunker, and of the `FramedRead`
-- of `tokio_util` that drives it in `DedupStore::update`. `FramedRead` calls `decode` on its
-- buffer for as long as it returns frames, reads more when it returns none, and once the input
-- ends calls `decode_eof` until it returns none. The input arrives as a list of reads of
-- arbitrary sizes.

namespace NativeLink

structure FastCDC where
  minSize : Nat
  avgSize : Nat
  maxSize : Nat
  normSize : Nat
  maskEasy : UInt32
  maskHard : UInt32
  -- `State`
  hash : UInt32
  position : Nat

namespace FastCDC

def table : List UInt32 := [
  0x5c95c078, 0x22408989, 0x2d48a214, 0x12842087, 0x530f8afb, 0x474536b9,
  0x2963b4f1, 0x44cb738b, 0x4ea7403d, 0x4d606b6e, 0x074ec5d3, 0x3af39d18,
  0x726003ca, 0x37a62a74, 0x51a2f58e, 0x7506358e, 0x5d4ab128, 0x4d4ae17b,
  0x41e85924, 0x470c36f7, 0x4741cbe1, 0x01bb7f30, 0x617c1de3, 0x2b0c3a1f,
  0x50c48f73, 0x21a82d37, 0x6095ace0, 0x419167a0, 0x3caf49b0, 0x40cea62d,
  0x66bc1c66, 0x545e1dad, 0x2bfa77cd, 0x6e85da24, 0x5fb0bdc5, 0x652cfc29,
  0x3a0ae1ab, 0x2837e0f3, 0x6387b70e, 0x13176012, 0x4362c2bb, 0x66d8f4b1,
  0x37fce834, 0x2c9cd386, 0x21144296, 0x627268a8, 0x650df537, 0x2805d579,
  0x3b21ebbd, 0x7357ed34, 0x3f58b583, 0x7150ddca, 0x7362225e, 0x620a6070,
  0x2c5ef529, 0x7b522466, 0x768b78c0, 0x4b54e51e, 0x75fa07e5, 0x06a35fc6,
  0x30b71024, 0x1c8626e1, 0x296ad578, 0x28d7be2e, 0x1490a05a, 0x7cee43bd,
  0x698b56e3, 0x09dc0126, 0x4ed6df6e, 0x02c1bfc7, 0x2a59ad53, 0x29c0e434,
  0x7d6c5278, 0x507940a7, 0x5ef6ba93, 0x68b6af1e, 0x46537276, 0x611bc766,
  0x155c587d, 0x301ba847, 0x2cc9dda7, 0x0a438e2c, 0x0a69d514, 0x744c72d3,
  0x4f326b9b, 0x7ef34286, 0x4a0ef8a7, 0x6ae06ebe, 0x669c5372, 0x12402dcb,
  0x5feae99d, 0x76c7f4a7, 0x6abdb79c, 0x0dfaa038, 0x20e2282c, 0x730ed48b,
  0x069dac2f, 0x168ecf3e, 0x2610e61f, 0x2c512c8e, 0x15fb8c06, 0x5e62bc76,
  0x69555135, 0x0adb864c, 0x4268f914, 0x349ab3aa, 0x20edfdb2, 0x51727981,
  0x37b4b3d8, 0x5dd17522, 0x6b2cbfe4, 0x5c47cf9f, 0x30fa1ccd, 0x23dedb56,
  0x13d1f50a, 0x64eddee7, 0x0820b0f7, 0x46e07308, 0x1e2d1dfd, 0x17b06c32,
  0x250036d8, 0x284dbf34, 0x68292ee0, 0x362ec87c, 0x087cb1eb, 0x76b46720,
  0x104130db, 0x71966387, 0x482dc43f, 0x2388ef25, 0x524144e1, 0x44bd834e,
  0x448e7da3, 0x3fa6eaf9, 0x3cda215c, 0x3a500cf3, 0x395cb432, 0x5195129f,
  0x43945f87, 0x51862ca4, 0x56ea8ff1, 0x201034dc, 0x4d328ff5, 0x7d73a909,
  0x6234d379, 0x64cfbf9c, 0x36f6589a, 0x0a2ce98a, 0x5fe4d971, 0x03bc15c5,
  0x44021d33, 0x16c1932b, 0x37503614, 0x1acaf69d, 0x3f03b779, 0x49e61a03,
  0x1f52d7ea, 0x1c6ddd5c, 0x062218ce, 0x07e7a11a, 0x1905757a, 0x7ce00a53,
  0x49f44f29, 0x4bcc70b5, 0x39feea55, 0x5242cee8, 0x3ce56b85, 0x00b81672,
  0x46beeccc, 0x3ca0ad56, 0x2396cee8, 0x78547f40, 0x6b08089b, 0x66a56751,
  0x781e7e46, 0x1e2cf856, 0x3bc13591, 0x494a4202, 0x520494d7, 0x2d87459a,
  0x757555b6, 0x42284cc1, 0x1f478507, 0x75c95dff, 0x35ff8dd7, 0x4e4757ed,
  0x2e11f88c, 0x5e1b5048, 0x420e6699, 0x226b0695, 0x4d1679b4, 0x5a22646f,
  0x161d1131, 0x125c68d9, 0x1313e32e, 0x4aa85724, 0x21dc7ec1, 0x4ffa29fe,
  0x72968382, 0x1ca8eef3, 0x3f3b1c28, 0x39c2fb6c, 0x6d76493f, 0x7a22a62e,
  0x789b1c2a, 0x16e0cb53, 0x7deceeeb, 0x0dc7e1c6, 0x5c75bf3d, 0x52218333,
  0x106de4d6, 0x7dc64422, 0x65590ff4, 0x2c02ec30, 0x64a9ac67, 0x59cab2e9,
  0x4a21d2f3, 0x0f616e57, 0x23b54ee8, 0x02730aaa, 0x2f3c634d, 0x7117fc6c,
  0x01ac6f05, 0x5a9ed20c, 0x158c4e2a, 0x42b699f0, 0x0c7c14b3, 0x02bd9641,
  0x15ad56fc, 0x1c722f60, 0x7da1af91, 0x23e0dbcb, 0x0e93e12b, 0x64b2791d,
  0x440d2476, 0x588ea8dd, 0x4665a658, 0x7446c418, 0x1877a774, 0x5626407e,
  0x7f63bd46, 0x32d2dbd8, 0x3c790f4a, 0x772b7239, 0x6f8b2826, 0x677ff609,
  0x0dc82c11, 0x23ffe354, 0x2eac53a6, 0x16139e09, 0x0afd0dbc, 0x2a4d4237,
  0x56a368c7, 0x234325e4, 0x2dce9187, 0x32e8ea7e]

-- `⌊log2 n⌋` by halving, with fuel: `n` itself is more than enough.
def log2Floor : Nat → Nat → Nat
  | 0, _        => 0
  | fuel + 1, n => if n ≥ 2 then log2Floor fuel (n / 2) + 1 else 0

-- `(avg_size as f64).log2().round() as u32`, computed exactly: the integer nearest to `log2 n`,
-- which is `k + 1` rather than `k = ⌊log2 n⌋` when `n ≥ 2 ^ k * √2`.
def log2Round (n : Nat) : Nat :=
  let k := log2Floor n n
  if n * n ≥ 2 ^ (2 * k + 1) then k + 1 else k

-- `FastCDC::new`; `none` is a panic: one of its two assertions, or `2u32.pow` out of range.
def new (minSize avgSize maxSize : Nat) : Option FastCDC :=
  if minSize < avgSize ∧ avgSize < maxSize then
    let normSize := avgSize - min (minSize + (minSize + 1) / 2) avgSize
    let bits := log2Round avgSize
    if 1 ≤ bits ∧ bits + 1 < 32 then
      some ⟨minSize, avgSize, maxSize, normSize, UInt32.ofNat (2 ^ (bits - 1) - 1),
        UInt32.ofNat (2 ^ (bits + 1) - 1), 0, 0⟩
    else none
  else none

-- The loop of `decode` from byte `i` of the buffer, over the bytes from there on: the rolling hash
-- and the split point, zero when no byte ends a chunk.
def scan (c : FastCDC) (i : Nat) (hash : UInt32) : List UInt8 → UInt32 × Nat
  | []      => (hash, 0)
  | b :: bs =>
    let hash := (hash >>> 1) + table.getD b.toNat 0
    let mask := if i < c.normSize then c.maskHard else c.maskEasy
    if hash &&& mask == 0 || i ≥ c.maxSize then (hash, i) else scan c (i + 1) hash bs

-- `decode`: the state after the call, the frame split off the front of the buffer if any, and the
-- buffer left.
def decode (c : FastCDC) (buf : List UInt8) : FastCDC × Option (List UInt8) × List UInt8 :=
  if buf.length ≤ c.minSize then (c, none, buf)
  else
    let startPoint := max c.position c.minSize
    let scanned := scan c startPoint c.hash (buf.drop startPoint)
    let splitPoint := scanned.2
    if splitPoint ≥ c.minSize then
      ({ c with hash := 0, position := 0 }, some (buf.take splitPoint), buf.drop splitPoint)
    else
      ({ c with hash := scanned.1, position := if splitPoint = 0 then buf.length else splitPoint },
        none, buf)

def decodeEof (c : FastCDC) (buf : List UInt8) : FastCDC × Option (List UInt8) × List UInt8 :=
  match c.decode buf with
  | (c, some frame, buf) => (c, some frame, buf)
  | (c, none, buf) =>
    let c := { c with hash := 0, position := 0 }
    if buf.isEmpty then (c, none, buf) else (c, some buf, [])

-- `FramedRead` calling `decode` while it returns frames. Each frame is at least one byte when
-- `min_size` is, so fuel of the buffer's length is enough.
def decodeFrames : Nat → FastCDC → List UInt8 → FastCDC × List (List UInt8) × List UInt8
  | 0, c, buf        => (c, [], buf)
  | fuel + 1, c, buf =>
    match c.decode buf with
    | (c, some frame, buf) =>
      let (c, frames, buf) := decodeFrames fuel c buf
      (c, frame :: frames, buf)
    | (c, none, buf) => (c, [], buf)

-- `FramedRead` at the end of its input, calling `decode_eof` until it returns none.
def decodeEofFrames : Nat → FastCDC → List UInt8 → List (List UInt8)
  | 0, _, _          => []
  | fuel + 1, c, buf =>
    match c.decodeEof buf with
    | (c, some frame, buf) => frame :: decodeEofFrames fuel c buf
    | (_, none, _)         => []

-- The frames `FramedRead` yields for an input that arrives as `reads`; a read of no bytes is the
-- end of the input.
def framedRead (c : FastCDC) (buf : List UInt8) : List (List UInt8) → List (List UInt8)
  | [] => decodeEofFrames (buf.length + 1) c buf
  | read :: reads =>
    if read.isEmpty then decodeEofFrames (buf.length + 1) c buf
    else
      let (c, frames, buf) := decodeFrames (buf.length + read.length + 1) c (buf ++ read)
      frames ++ framedRead c buf reads

theorem new_minSize {minSize avgSize maxSize : Nat} {c : FastCDC}
    (h : FastCDC.new minSize avgSize maxSize = some c) : c.minSize = minSize := by
  unfold FastCDC.new at h
  split at h
  case isTrue =>
    dsimp only at h
    split at h
    case isTrue => cases h; rfl
    case isFalse => cases h
  case isFalse => cases h

-- Whatever the hash decides, every frame is a non-empty prefix of the buffer: the frames of an
-- input concatenate back to it. The chunker needs `min_size ≥ 1` for this, which `DedupStore`
-- ensures by replacing a zero with its default; `decode` never changes the sizes.

variable {c c' : FastCDC} {buf buf' frame : List UInt8}

@[simp] theorem decode_minSize (c : FastCDC) (buf : List UInt8) : (c.decode buf).1.minSize = c.minSize := by
  unfold decode
  dsimp only
  split
  case isTrue => rfl
  case isFalse => split <;> rfl

@[simp] theorem decodeEof_minSize (c : FastCDC) (buf : List UInt8) :
    (c.decodeEof buf).1.minSize = c.minSize := by
  have hd := decode_minSize c buf
  unfold decodeEof
  split
  case h_1 h => rw [h] at hd; exact hd
  case h_2 h =>
    rw [h] at hd
    split <;> exact hd

theorem decode_some (hmin : 1 ≤ c.minSize) (h : c.decode buf = (c', some frame, buf')) :
    frame ≠ [] ∧ frame ++ buf' = buf := by
  unfold decode at h
  dsimp only at h
  split at h
  case isTrue => cases h
  case isFalse hlen =>
    split at h
    case isTrue hsplit =>
      cases h
      refine ⟨fun hnil => ?_, List.take_append_drop _ _⟩
      rcases List.take_eq_nil_iff.mp hnil with h0 | hb
      case inl => omega
      case inr =>
        subst hb
        simp at hlen
    case isFalse => cases h

theorem decode_none (h : c.decode buf = (c', none, buf')) : buf' = buf := by
  unfold decode at h
  dsimp only at h
  split at h
  case isTrue => cases h; rfl
  case isFalse => split at h <;> cases h; rfl

theorem decodeEof_some (hmin : 1 ≤ c.minSize) (h : c.decodeEof buf = (c', some frame, buf')) :
    frame ≠ [] ∧ frame ++ buf' = buf := by
  unfold decodeEof at h
  split at h
  case h_1 hd => cases h; exact decode_some hmin hd
  case h_2 hd =>
    have hb := decode_none hd
    split at h
    case isTrue => cases h
    case isFalse hne =>
      cases h
      subst hb
      exact ⟨by simpa using hne, List.append_nil _⟩

theorem decodeEof_none (h : c.decodeEof buf = (c', none, buf')) : buf = [] := by
  unfold decodeEof at h
  split at h
  case h_1 => cases h
  case h_2 hd =>
    have hb := decode_none hd
    split at h
    case isTrue hemp => subst hb; simpa using hemp
    case isFalse => cases h

theorem decodeFrames_spec (fuel : Nat) :
    ∀ {c c' buf buf' frames}, 1 ≤ c.minSize → decodeFrames fuel c buf = (c', frames, buf') →
      c'.minSize = c.minSize ∧ frames.flatten ++ buf' = buf ∧ ∀ f ∈ frames, f ≠ [] := by
  induction fuel
  case zero =>
    intro c c' buf buf' frames _ h
    cases h
    exact ⟨rfl, rfl, nofun⟩
  case succ fuel ih =>
    intro c c' buf buf' frames hmin h
    simp only [decodeFrames] at h
    split at h
    case h_1 c₁ frame buf₁ hd =>
      obtain ⟨hne, happ⟩ := decode_some hmin hd
      have hmin₁ : c₁.minSize = c.minSize := by
        have := decode_minSize c buf
        rw [hd] at this
        exact this
      generalize hr : decodeFrames fuel c₁ buf₁ = r at h
      obtain ⟨c₂, frames₂, buf₂⟩ := r
      cases h
      obtain ⟨hm, hflat, hall⟩ := ih (hmin₁ ▸ hmin) hr
      refine ⟨hm.trans hmin₁, ?_, List.forall_mem_cons.mpr ⟨hne, hall⟩⟩
      rw [List.flatten_cons, List.append_assoc, hflat, happ]
    case h_2 c₁ buf₁ hd =>
      cases h
      have hm := decode_minSize c buf
      rw [hd] at hm
      exact ⟨hm, by rw [decode_none hd]; rfl, nofun⟩

theorem decodeEofFrames_spec :
    ∀ fuel c buf, 1 ≤ c.minSize → buf.length < fuel →
      (decodeEofFrames fuel c buf).flatten = buf ∧ ∀ f ∈ decodeEofFrames fuel c buf, f ≠ []
  | 0, _, _, _, hfuel => absurd hfuel (Nat.not_lt_zero _)
  | fuel + 1, c, buf, hmin, hfuel => by
    simp only [decodeEofFrames]
    split
    case h_1 c₁ frame buf₁ hd =>
      obtain ⟨hne, happ⟩ := decodeEof_some hmin hd
      have hmin₁ : c₁.minSize = c.minSize := by
        have := decodeEof_minSize c buf
        rw [hd] at this
        exact this
      have hlen : buf₁.length < fuel := by
        have := congrArg List.length happ
        rw [List.length_append] at this
        have := List.length_pos_of_ne_nil hne
        omega
      obtain ⟨hflat, hall⟩ := decodeEofFrames_spec fuel c₁ buf₁ (hmin₁ ▸ hmin) hlen
      exact ⟨by rw [List.flatten_cons, hflat, happ], List.forall_mem_cons.mpr ⟨hne, hall⟩⟩
    case h_2 c₁ buf₁ hd =>
      exact ⟨(decodeEof_none hd).symm, nofun⟩

theorem framedRead_spec :
    ∀ reads c buf, 1 ≤ c.minSize →
      (framedRead c buf reads).flatten = buf ++ (reads.takeWhile (!·.isEmpty)).flatten ∧
        ∀ f ∈ framedRead c buf reads, f ≠ []
  | [], c, buf, hmin => by
    obtain ⟨hflat, hall⟩ := decodeEofFrames_spec (buf.length + 1) c buf hmin (Nat.lt_succ_self _)
    exact ⟨by simpa [framedRead] using hflat, hall⟩
  | read :: reads, c, buf, hmin => by
    simp only [framedRead]
    split
    case isTrue hemp =>
      obtain ⟨hflat, hall⟩ := decodeEofFrames_spec (buf.length + 1) c buf hmin (Nat.lt_succ_self _)
      exact ⟨by simpa [List.takeWhile_cons, hemp] using hflat, hall⟩
    case isFalse hemp =>
      generalize hr : decodeFrames (buf.length + read.length + 1) c (buf ++ read) = r
      obtain ⟨c₁, frames, buf₁⟩ := r
      obtain ⟨hm, hflat, hall⟩ := decodeFrames_spec _ hmin hr
      obtain ⟨hflat₁, hall₁⟩ := framedRead_spec reads c₁ buf₁ (hm ▸ hmin)
      refine ⟨?_, fun f hf => ?_⟩
      case refine_1 =>
        simp only [List.flatten_append, hflat₁, List.takeWhile_cons, hemp, Bool.not_false,
          if_true, List.flatten_cons]
        rw [← List.append_assoc, hflat, List.append_assoc]
      case refine_2 =>
        rcases List.mem_append.mp hf with hf | hf
        case inl => exact hall f hf
        case inr => exact hall₁ f hf

/-! ## A decoder with `min_size = 0`

`FastCDC::new` accepts `min_size = 0`. A split point of `0` then reads as "not found" and is still
at least `min_size`, so `decode` splits an empty frame off the buffer and resets to the state it
had: `FramedRead` yields empty frames for as long as it is polled. -/

theorem scan_single_zero (c : FastCDC) (hash : UInt32) (b : UInt8) : (c.scan 0 hash [b]).2 = 0 := by
  simp only [scan]
  split <;> simp

theorem decode_single_of_minSize_zero (h0 : c.minSize = 0) (hh : c.hash = 0) (hp : c.position = 0) (b : UInt8) :
    c.decode [b] = (c, some [], [b]) := by
  obtain ⟨minSize, avgSize, maxSize, normSize, maskEasy, maskHard, hash, position⟩ := c
  simp only at h0 hh hp
  subst h0 hh hp
  have hscan := scan_single_zero ⟨0, avgSize, maxSize, normSize, maskEasy, maskHard, 0, 0⟩ 0 b
  simp [decode, hscan]

theorem decodeFrames_single_of_minSize_zero (h0 : c.minSize = 0) (hh : c.hash = 0) (hp : c.position = 0)
    (b : UInt8) : ∀ fuel, decodeFrames fuel c [b] = (c, List.replicate fuel [], [b])
  | 0 => rfl
  | fuel + 1 => by
    simp only [decodeFrames, decode_single_of_minSize_zero h0 hh hp,
      decodeFrames_single_of_minSize_zero h0 hh hp b fuel, List.replicate_succ]

-- However many times `FramedRead` calls `decode` on a one-byte input, it gets an empty frame.
theorem framed_read_never_ends_of_zero_min_size :
    ∃ c, FastCDC.new 0 2 3 = some c ∧
      ∀ (b : UInt8) fuel, decodeFrames fuel c [b] = (c, List.replicate fuel [], [b]) :=
  ⟨_, rfl, decodeFrames_single_of_minSize_zero rfl rfl rfl⟩

-- Byte `1` does not end a chunk and byte `0` after it does. Read in one piece the input gives the
-- frame `[1]` first; read a byte at a time, the first `decode` finds no split point in `[1]` and
-- splits off an empty frame.
theorem frames_depend_on_read_sizes_of_zero_min_size :
    ∃ c, FastCDC.new 0 2 3 = some c ∧ (framedRead c [] [[1, 0]]).head? = some [1] ∧
      (framedRead c [] [[1], [0]]).head? = some [] :=
  ⟨_, rfl, by decide +kernel, by decide +kernel⟩

end FastCDC

end NativeLink