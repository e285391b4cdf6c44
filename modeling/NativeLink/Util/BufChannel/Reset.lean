import NativeLink.Util.BufChannel

-- `try_reset_stream` of `nativelink-util/src/buf_channel.rs`, and `bind_buffered`, the loop that
-- forwards a reading half to a writing half and that `S3Store::update` retries with a reset.
-- A reset puts the chunks kept in `recent_data` back at the front of `queued_data`. It does not
-- look at what `queued_data` already holds: a chunk that `peek`, `consume` or `bind_buffered`
-- pushed back there after receiving it is then queued twice.

namespace NativeLink.BufChannel

open EStateM

-- `try_reset_stream`; `error_if!` makes an `InvalidArgument` error.
def tryResetStream : M Unit := do
  let s ← get
  if s.bytesReceived > s.maxRecentDataSize then
    throw (.error (Error.new .internal "Cannot reset stream, max_recent_data_size exceeded"))
  else
    -- pushing the chunks to the front from the last one keeps their order
    let dataSum := (s.recentData.map List.length).sum
    set { s with queuedData := s.recentData ++ s.queuedData, recentData := [] }
    if dataSum ≠ s.bytesReceived then
      throw (.error (Error.new .invalidArgument "Sum of recent_data bytes does not equal bytes_received"))
    else modify fun s => { s with bytesReceived := 0 }

-- `x.await` taken as a value: the error it returns, or its result. Waiting and panics still stop
-- the caller.
def result {α : Type} (x : M α) : M (Except Error α) := fun s =>
  match x s with
  | .ok a s' => .ok (.ok a) s'
  | .error (.error e) s' => .ok (.error e) s'
  | .error stop s' => .error stop s'

-- The halves `bind_buffered` joins: the reading half it takes chunks from, and the writing half it
-- sends them to.
structure Bound where
  reader : Channel
  writer : Channel

abbrev BM := EStateM Stop Bound

def onReader {α : Type} (x : M α) : BM α :=
  focus Bound.reader (fun b c => { b with reader := c }) x

def onWriter {α : Type} (x : M α) : BM α :=
  focus Bound.writer (fun b c => { b with writer := c }) x

-- The loop of `bind_buffered`. It peeks one chunk ahead so that an error in place of the EOF is
-- forwarded instead of the last chunk, and a chunk `send_get_bytes_on_error` gives back goes to
-- the front of the reader's queue.
def bindBufferedLoop : Nat → BM Unit
  | 0 => throw .exhausted
  | fuel + 1 => do
    let chunk ← onReader (errTip "In DropCloserWriteHalf::bind_buffered::recv" recv)
    if chunk.isEmpty then
      onWriter (errTip "In DropCloserWriteHalf::bind_buffered::send_eof" sendEof)
    else
      match ← onReader (result peek) with
      | .error _ =>
        let _ ← onReader (errTip "In DropCloserWriteHalf::bind_buffered::peek::eof" recv)
        throw (.error (Error.new .internal
          "DropCloserReadHalf::peek() said error, but when data received said Ok. This should never happen."))
      | .ok _ =>
        match ← onWriter (result (send chunk)) with
        | .ok () => bindBufferedLoop fuel
        | .error e =>
          onReader (pushFront chunk)
          throw (.error (e.append "In DropCloserWriteHalf::bind_buffered::send"))

def bindBuffered : BM Unit := do
  bindBufferedLoop (rounds (← get).reader)

/-! ## A reset after a chunk was pushed back -/

theorem reset_after_peek_replays_chunk_twice :
    (run [.setMaxRecentDataSize 1024, .send [1], .sendEof, .peek]).2.sent = [1] ∧
    ∃ s, (do tryResetStream; consume none).run (run [.setMaxRecentDataSize 1024, .send [1], .sendEof, .peek]).1 =
      .ok [1, 1] s :=
  ⟨rfl, _, rfl⟩

-- `bind_buffered` receives `[1]`, peeks at `[2]`, and fails to send `[1]` to a writing half that is
-- closed, so it pushes `[1]` back. The reset then succeeds, and reading to the EOF gives `[1, 2]`
-- twice.
theorem bind_buffered_retry_replays_stream_twice :
    (run [.setMaxRecentDataSize 1024, .send [1], .send [2], .sendEof]).2.sent = [1, 2] ∧
    (match bindBuffered.run ⟨(run [.setMaxRecentDataSize 1024, .send [1], .send [2], .sendEof]).1,
        (run [.sendEof]).1⟩ with
      | .error (.error _) b =>
        match (do tryResetStream; consume none).run b.reader with
        | .ok data _ => data == [1, 2, 1, 2]
        | .error _ _ => false
      | _ => false) = true :=
  ⟨rfl, by decide +kernel⟩

end NativeLink.BufChannel
