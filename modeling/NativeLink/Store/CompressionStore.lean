import NativeLink.Lib.Bytes
import NativeLink.Util.StoreTrait

-- Model of `nativelink-store/src/compression_store.rs`: `update` writes the stream as a header,
-- one block frame per `block_size` bytes of input and a footer frame holding the index, and
-- `get_part` reads it back frame by frame, decompressing each block and sending the part of it
-- that falls in the requested range. The inner store is taken to return what was written, and
-- `lz4_flex`, which is not part of this repository, is a parameter.

namespace NativeLink

open Bytes

-- bincode with fixed-width integers: an enum is its variant as a `u32` and then its field.
def UploadSizeInfo.serialize : UploadSizeInfo → List UInt8
  | .exactSize size => le 4 0 ++ le 8 size
  | .maxSize size   => le 4 1 ++ le 8 size

namespace CompressionStore

def currentStreamFormatVersion : Nat := 1
def defaultBlockSize : Nat := 64 * 1024
def chunkFrameType : Nat := 0
def footerFrameType : Nat := 1

-- `nativelink_config::stores::Lz4Config`, after `CompressionStore::new` has replaced the zeros by
-- their defaults.
structure Lz4Config where
  blockSize : Nat
  maxDecodeBlockSize : Nat

-- The block functions of `lz4_flex`: `compress_into` with a large enough output buffer, and
-- `decompress_into` into a buffer of the given capacity, failing when the block is malformed or
-- does not fit.
structure Lz4 where
  compressInto : List UInt8 → List UInt8
  decompressInto : List UInt8 → Nat → Option (List UInt8)
  getMaximumOutputSize : Nat → Nat

structure Header where
  version : Nat
  blockSize : Nat
  uploadSize : UploadSizeInfo

-- `Footer`, with each `SliceIndex` as its `position_from_prev_index`.
structure Footer where
  indexes : List Nat
  indexCount : Nat
  uncompressedDataSize : Nat
  blockSize : Nat
  version : Nat

-- bincode with fixed-width integers: a `Vec` is its length as a `u64` and then its items.
def Header.serialize (h : Header) : List UInt8 :=
  le 1 h.version ++ le 4 h.blockSize ++ h.uploadSize.serialize

def Footer.serialize (f : Footer) : List UInt8 :=
  le 8 f.indexes.length ++ f.indexes.flatMap (le 4) ++ le 4 f.indexCount ++
    le 8 f.uncompressedDataSize ++ le 4 f.blockSize ++ le 1 f.version

-- bincode's reader: a field of `n` bytes, failing on a short input.
def getLe (n : Nat) : StateT (List UInt8) Option Nat := fun bytes =>
  if bytes.length < n then none else some (ofLe (bytes.take n), bytes.drop n)

def getLeList : Nat → StateT (List UInt8) Option (List Nat)
  | 0     => pure []
  | k + 1 => do
    let x ← getLe 4
    let xs ← getLeList k
    pure (x :: xs)

-- `DefaultOptions` rejects trailing bytes.
def deserializeAll {α : Type} (p : StateT (List UInt8) Option α) (bytes : List UInt8) : Option α := do
  let (a, rest) ← p bytes
  if rest.isEmpty then some a else none

def Header.deserialize : List UInt8 → Option Header :=
  deserializeAll do
    let version ← getLe 1
    let blockSize ← getLe 4
    let variant ← getLe 4
    let size ← getLe 8
    let uploadSize ← match variant with
      | 0 => pure (.exactSize size)
      | 1 => pure (.maxSize size)
      | _ => failure
    pure ⟨version, blockSize, uploadSize⟩

def Footer.deserialize : List UInt8 → Option Footer :=
  deserializeAll do
    let len ← getLe 8
    let indexes ← getLeList len
    let indexCount ← getLe 4
    let uncompressedDataSize ← getLe 8
    let blockSize ← getLe 4
    let version ← getLe 1
    pure ⟨indexes, indexCount, uncompressedDataSize, blockSize, version⟩

-- `serialized_size` of the header, whatever its values.
def headerSize : Nat := 17

-- The loop of `update` over the slots of `footer.indexes`: each turn takes the next block of the
-- input (`consume(Some(block_size))`), stops at the end of it, and otherwise writes the block
-- frame. It returns the frames, the compressed size of each block and the bytes received.
def updateLoop (lz4 : Lz4) (blockSize inputMaxSize : Nat) :
    Nat → List UInt8 → Nat → Except String (List (List UInt8) × List Nat × Nat)
  | 0, _, receivedAmt => pure ([], [], receivedAmt)
  | slots + 1, data, receivedAmt => do
    let chunk := data.take blockSize
    if chunk.isEmpty then return ([], [], receivedAmt)
    let receivedAmt := receivedAmt + chunk.length
    if receivedAmt > inputMaxSize then
      throw "Got more data than stated in compression store upload request"
    let compressed := lz4.compressInto chunk
    let frame := le 1 chunkFrameType ++ le 4 compressed.length ++ compressed
    let (frames, positions, receivedAmt) ←
      updateLoop lz4 blockSize inputMaxSize slots (data.drop blockSize) receivedAmt
    pure (frame :: frames, compressed.length % 2 ^ 32 :: positions, receivedAmt)

-- `update` of `data` through the store: the bytes handed to the inner store.
def update (config : Lz4Config) (lz4 : Lz4) (uploadSize : UploadSizeInfo) (data : List UInt8) :
    Except String (List UInt8) := do
  let inputMaxSize := match uploadSize with
    | .maxSize sz | .exactSize sz => sz
  let maxIndexCount := inputMaxSize / config.blockSize + 1
  let header : Header := ⟨currentStreamFormatVersion, config.blockSize, uploadSize⟩
  let (frames, positions, receivedAmt) ← updateLoop lz4 config.blockSize inputMaxSize maxIndexCount data 0
  -- one index fewer than blocks: the first block needs none
  let indexCount := positions.length - 1
  let indexes := positions.take indexCount
  let footer : Footer :=
    ⟨indexes, indexes.length % 2 ^ 32, receivedAmt, config.blockSize, currentStreamFormatVersion⟩
  let serializedFooter := footer.serialize
  pure (header.serialize ++ frames.flatten ++
    (le 1 footerFrameType ++ le 4 serializedFooter.length ++ serializedFooter))

-- The variables of the loop of `get_part`.
structure ReadState where
  rest : List UInt8
  frameType : Nat
  frameSz : Nat
  uncompressedDataSz : Nat
  remainingBytesToSend : Nat
  chunksCount : Nat
  written : List UInt8

-- `consume(Some(n))` on the stream of the inner store.
def consume (n : Nat) (rest : List UInt8) : List UInt8 × List UInt8 :=
  (rest.take n, rest.drop n)

-- One turn of the loop of `get_part`, for a frame that is not the footer.
def readBlock (lz4 : Lz4) (header : Header) (offset : Nat) (st : ReadState) :
    Except Failure ReadState := do
  if st.frameType != chunkFrameType then
    throw (.error "Expected frame to be BODY in compression store")
  let (chunk, rest) := consume st.frameSz st.rest
  if chunk.length < st.frameSz then
    throw (.error "Got EOF earlier than expected. Maybe the data is not compressed or different format?")
  let some uncompressedData := lz4.decompressInto chunk (lz4.getMaximumOutputSize header.blockSize)
    | throw (.error "Decompression error")
  let newUncompressedDataSz := st.uncompressedDataSz + uncompressedData.length
  let (written, remainingBytesToSend) ← do
    if newUncompressedDataSz ≥ offset && st.remainingBytesToSend > 0 then
      let startPos := offset - st.uncompressedDataSz
      -- `start_pos + remaining_bytes_to_send as usize`, checked for overflow
      if startPos + st.remainingBytesToSend > u64Max then
        throw (.panic "attempt to add with overflow")
      let endPos := min (startPos + st.remainingBytesToSend) uncompressedData.length
      let written :=
        if endPos != startPos then st.written ++ (uncompressedData.take endPos).drop startPos
        else st.written
      pure (written, st.remainingBytesToSend - (endPos - startPos))
    else pure (st.written, st.remainingBytesToSend)
  let (chunk, rest) := consume 5 rest
  if chunk.length < 5 then
    throw (.error "Received EOF too early while reading frame info in compression store")
  pure ⟨rest, ofLe (chunk.take 1), ofLe (chunk.drop 1), newUncompressedDataSz, remainingBytesToSend,
    st.chunksCount + 1, written⟩

-- The `while frame_type != FOOTER_FRAME_TYPE` loop. Every turn consumes at least the five bytes of
-- a frame head, so fuel of the stream's length never runs out before the stream does.
def readBlocks (lz4 : Lz4) (header : Header) (offset : Nat) : Nat → ReadState → Except Failure ReadState
  | 0, _ => throw (.error "Received EOF too early while reading frame info in compression store")
  | fuel + 1, st =>
    if st.frameType != footerFrameType then do
      let st ← readBlock lz4 header offset st
      readBlocks lz4 header offset fuel st
    else pure st

-- `get_part(key, writer, offset, length)` for a key whose inner stream is `stream`: the bytes
-- written before the EOF.
def getPart (config : Lz4Config) (lz4 : Lz4) (stream : List UInt8) (offset : Nat) (length : Option Nat) :
    Except Failure (List UInt8) := do
  let (chunk, rest) := consume headerSize stream
  if chunk.length != headerSize then
    throw (.error "Expected inner store to return the proper amount of data in compression store")
  let some header := Header.deserialize chunk | throw (.error "Failed to deserialize header")
  if header.version != currentStreamFormatVersion then
    throw (.error "Expected header version to match in get compression")
  if header.blockSize > config.maxDecodeBlockSize then
    throw (.error "Block size is too large in compression")
  let (chunk, rest) := consume 5 rest
  if chunk.length < 5 then
    throw (.error "Received EOF too early while reading init frame info in compression store")
  let st ← readBlocks lz4 header offset stream.length
    ⟨rest, ofLe (chunk.take 1), ofLe (chunk.drop 1), 0, length.getD u64Max, 0, []⟩
  -- the index count is one less than the blocks, unless there are none
  let chunksCount := st.chunksCount - 1
  let (chunk, _) := consume st.frameSz st.rest
  if chunk.length < st.frameSz then
    throw (.error "Unexpected EOF when reading footer in compression store get_part")
  let some footer := Footer.deserialize chunk | throw (.error "Failed to deserialize footer")
  if header.version != footer.version then
    throw (.error "Expected header and footer versions to match compression store get_part")
  if footer.indexes.length != footer.indexCount then
    throw (.error "Expected index counts to match in compression store footer in get_part")
  if footer.indexCount != chunksCount then
    throw (.error "Expected index counts to match received chunks count in compression store footer in get_part")
  if footer.uncompressedDataSize != st.uncompressedDataSz then
    throw (.error "Expected uncompressed data sizes to match in compression store footer in get_part")
  pure st.written

-- An LZ4 block made of literals alone: a token with the literal count, its extension bytes when
-- the count is fifteen or more, and the bytes. `lz4_flex` writes such a block for every input
-- shorter than thirteen bytes, and reads it back as below.
def literalBlock (data : List UInt8) : List UInt8 :=
  if data.length < 15 then UInt8.ofNat (data.length * 16) :: data
  else 0xF0 :: (List.replicate ((data.length - 15) / 255) 0xFF ++
    [UInt8.ofNat ((data.length - 15) % 255)]) ++ data

def readLiteralLength (n : Nat) : List UInt8 → Option (Nat × List UInt8)
  | []      => none
  | b :: bs => if b = 0xFF then readLiteralLength (n + 255) bs else some (n + b.toNat, bs)

def decodeLiteralBlock (block : List UInt8) (capacity : Nat) : Option (List UInt8) :=
  match block with
  | [] => none
  | token :: rest =>
    let len := token.toNat / 16
    match if len = 15 then readLiteralLength 15 rest else some (len, rest) with
    | none => none
    | some (len, rest) =>
      if token.toNat % 16 = 0 ∧ rest.length = len ∧ len ≤ capacity then some rest else none

theorem readLiteralLength_replicate {r : Nat} (hr : r < 255) (rest : List UInt8) :
    ∀ q n, readLiteralLength n (List.replicate q 0xFF ++ UInt8.ofNat r :: rest) = some (n + 255 * q + r, rest)
  | 0, n => by
    have hne : UInt8.ofNat r ≠ 0xFF := by
      intro h
      have := congrArg UInt8.toNat h
      simp [Nat.mod_eq_of_lt (show r < 256 by omega)] at this
      omega
    simp [readLiteralLength, hne, Nat.mod_eq_of_lt (show r < 256 by omega)]
  | q + 1, n => by
    rw [List.replicate_succ, List.cons_append, readLiteralLength, if_pos rfl,
      readLiteralLength_replicate hr rest q (n + 255)]
    congr 2
    omega

theorem decodeLiteralBlock_literalBlock {data : List UInt8} {capacity : Nat} (h : data.length ≤ capacity) :
    decodeLiteralBlock (literalBlock data) capacity = some data := by
  unfold literalBlock
  split
  case isTrue hlt =>
    have hmod : data.length * 16 % 256 = data.length * 16 := Nat.mod_eq_of_lt (by omega)
    have hlen : data.length * 16 / 16 = data.length := by omega
    simp [decodeLiteralBlock, hmod, hlen, show data.length ≠ 15 by omega, h]
  case isFalse hge =>
    have hr : (data.length - 15) % 255 < 255 := Nat.mod_lt _ (by decide)
    have hq : 15 + 255 * ((data.length - 15) / 255) + (data.length - 15) % 255 = data.length := by
      omega
    have h240 : (0xF0 : UInt8).toNat = 240 := rfl
    simp only [decodeLiteralBlock, List.cons_append, List.append_assoc, List.nil_append, h240]
    rw [if_pos trivial, readLiteralLength_replicate hr data]
    simp [hq, h]

def literalLz4 : Lz4 :=
  ⟨literalBlock, decodeLiteralBlock, fun n => 16 + 4 + n * 11 / 10⟩

-- `update` of the two bytes "ab" with the default block size, then `get_part` from offset 1 to the
-- end: the one block reaches the offset with `u64::MAX` bytes left to send, and
-- `start_pos + remaining_bytes_to_send` overflows.
theorem getPart_to_end_overflows :
    ∃ stream, update ⟨defaultBlockSize, defaultBlockSize⟩ literalLz4 (.exactSize 2) [0x61, 0x62] = .ok stream ∧
      getPart ⟨defaultBlockSize, defaultBlockSize⟩ literalLz4 stream 1 none =
        .error (.panic "attempt to add with overflow") :=
  ⟨_, rfl, by decide⟩

end CompressionStore

end NativeLink
