import NativeLink.Lib.Invariant
import NativeLink.Util.StoreTrait

-- Model of `nativelink-util/src/buf_channel.rs`, the pipe between the writer and the reader of a
-- byte stream. The writer's `send` puts a non-empty chunk into an mpsc channel and `send_eof`
-- sets the shared `eof_sent` flag and drops the sender. The reader takes chunks first from
-- `queued_data`, where `peek` and `consume` push back what they do not hand out, then from the
-- channel, and reads the closed channel as the EOF: an empty chunk. Both halves are one state
-- here and each call runs to its end at once; a call that would wait on an empty open channel
-- stops with `blocked`, and a run counts it as not made yet. The channel's capacity of two only
-- makes the writer wait, so the model's channel has none.

namespace NativeLink.BufChannel

abbrev Bytes := List UInt8

-- How a call stops when it does not return: with an `Error` for its caller, waiting on the
-- channel, at a panic, or out of the rounds the model gives a loop.
inductive Stop
  | error (e : Error)
  | blocked
  | panic (msg : String)
  | exhausted
  deriving DecidableEq, Repr

structure Channel where
  -- `DropCloserWriteHalf`: whether it still holds the sender, and `bytes_written`
  txOpen : Bool
  bytesWritten : Nat
  -- the `eof_sent` flag of both halves
  eofSent : Bool
  -- the chunks in the mpsc channel
  rx : List Bytes
  -- `DropCloserReadHalf`
  bytesReceived : Nat
  lastErr : Option Error
  queuedData : List Bytes
  recentData : List Bytes
  maxRecentDataSize : Nat
  deriving DecidableEq, Repr

abbrev M := EStateM Stop Channel

-- `make_buf_channel_pair`.
def makeBufChannelPair : Channel where
  txOpen := true
  bytesWritten := 0
  eofSent := false
  rx := []
  bytesReceived := 0
  lastErr := none
  queuedData := []
  recentData := []
  maxRecentDataSize := 0

-- The bytes the writer has sent and the reader not yet taken, in order.
def Channel.stream (s : Channel) : Bytes :=
  (s.queuedData ++ s.rx).flatten

-- `.err_tip(|| msg)` on the result of a call.
def errTip {α : Type} (msg : String) (x : M α) : M α :=
  x.adaptExcept fun
    | .error e => .error (e.append msg)
    | stop => stop

/-! ## The writer -/

-- `DropCloserWriteHalf::send`; the reader never hangs up here, so `tx.send` does not fail. The
-- bytes that `send_get_bytes_on_error` gives back with an error are `buf` itself.
def send (buf : Bytes) : M Unit := do
  let s ← get
  if !s.txOpen then throw (.error (Error.new .internal "Tried to send while stream is closed"))
  else if buf.length = 0 then
    throw (.error (makeInputErr "Cannot send EOF in send(). Instead use send_eof()"))
  else set { s with rx := s.rx ++ [buf], bytesWritten := s.bytesWritten + buf.length }

def sendEof : M Unit := do
  let s ← get
  -- `eof_sent.swap(true)`: a second EOF only logs a warning
  if s.eofSent then pure ()
  else set { s with eofSent := true, txOpen := false }

/-! ## The reader -/

def tryRecv : M (Option (Except Error Bytes)) := do
  let s ← get
  match s.lastErr with
  | some err => pure (some (.error err))
  | none =>
    match s.queuedData with
    | [] => pure none
    | chunk :: rest => do
      set { s with queuedData := rest }
      pure (some (.ok chunk))

def maybePopulateRecentData (chunk : Bytes) : M Unit :=
  modify fun s =>
    if s.maxRecentDataSize = 0 then s
    else if s.bytesReceived > s.maxRecentDataSize then { s with recentData := [] }
    else { s with recentData := s.recentData ++ [chunk] }

def recvInner (chunk : Bytes) : M Bytes := do
  -- `queued_data` may hold the empty chunk that marks the EOF
  if chunk.isEmpty then
    let s ← get
    if !s.eofSent then
      let err := Error.new .internal "Sender dropped before sending EOF"
      set { s with queuedData := [], recentData := [], bytesReceived := 0, lastErr := some err }
      throw (.error err)
    else
      maybePopulateRecentData []
      pure []
  else
    modify fun s => { s with bytesReceived := s.bytesReceived + chunk.length }
    maybePopulateRecentData chunk
    pure chunk

-- `self.rx.recv().await`: the next chunk of the channel, and `None` once the sender is dropped and
-- the channel is empty. On an empty open channel the call waits.
def rxRecv : M (Option Bytes) := do
  let s ← get
  match s.rx with
  | chunk :: rest => do
    set { s with rx := rest }
    pure (some chunk)
  | [] => if s.txOpen then throw .blocked else pure none

def recv : M Bytes := do
  match ← tryRecv with
  | some (.ok chunk) => pure chunk
  | some (.error err) => throw (.error err)
  | none =>
    -- `None` from the channel is the EOF, the empty chunk
    let data ← rxRecv
    recvInner (data.getD [])

def pushFront (chunk : Bytes) : M Unit :=
  modify fun s => { s with queuedData := chunk :: s.queuedData }

-- `self.queued_data.front().expect(..)`.
def front : M Bytes := do
  match (← get).queuedData with
  | chunk :: _ => pure chunk
  | [] => throw (.panic "Should have data in the queue")

def peek : M Bytes := do
  if (← get).queuedData.isEmpty then
    let chunk ← errTip "In buf_channel::peek" recv
    pushFront chunk
    front
  else front

-- Each round of the loops of `drain` and `consume` takes a chunk from the queue or the channel,
-- so as many rounds as there are chunks, and one more for the EOF, are enough.
def rounds (s : Channel) : Nat :=
  s.queuedData.length + s.rx.length + 1

def drainLoop : Nat → M Unit
  | 0 => throw .exhausted
  | fuel + 1 => do
    let chunk ← errTip "Failed to drain in buf_channel::drain" recv
    if chunk.isEmpty then pure () else drainLoop fuel

def drain : M Unit := do
  drainLoop (rounds (← get))

-- The loop of `consume` after its first chunk: it reads until the EOF or until `output` holds
-- `size` bytes, and the part of a chunk past `size` goes back to the queue.
def consumeLoop (size : Nat) : Nat → Bytes → M Bytes
  | 0, _ => throw .exhausted
  | fuel + 1, output => do
    let chunk ← errTip "During first read of buf_channel::take()" recv
    if chunk.isEmpty then pure output
    else
      let chunk ← if output.length + chunk.length > size then do
          pushFront (chunk.drop (size - output.length))
          pure (chunk.take (size - output.length))
        else pure chunk
      let output := output ++ chunk
      if output.length = size then pure output
      else consumeLoop size fuel output

def consume (size : Option Nat) : M Bytes := do
  let size := size.getD u64Max
  let chunk ← errTip "During first read of buf_channel::take()" recv
  if chunk.isEmpty then pure chunk
  else if chunk.length > size then
    -- a part of a chunk needs no look at the EOF
    pushFront (chunk.drop size)
    pure (chunk.take size)
  else
    -- read the EOF, when it is next, to be sure the sender did not fail
    let peeked ← errTip "Failed to check if next chunk is EOF" peek
    if peeked.isEmpty || chunk.length = size then pure chunk
    else consumeLoop size (rounds (← get)) chunk

def setMaxRecentDataSize (size : Nat) : M Unit :=
  modify fun s => { s with maxRecentDataSize := size }

/-! ## Runs of both halves -/

inductive Call
  | send (buf : Bytes)
  | sendEof
  | recv
  | tryRecv
  | peek
  | consume (size : Option Nat)
  | drain
  | setMaxRecentDataSize (size : Nat)
  deriving DecidableEq, Repr

-- What one call put into the stream and took out of it: `recv`, `try_recv` and `consume` hand
-- out what they return, and `drain` drops what it reads.
structure Flow where
  sent : Bytes
  taken : Bytes
  deriving DecidableEq, Repr

def Call.exec : Call → M Flow
  | .send buf => do
    BufChannel.send buf
    pure ⟨buf, []⟩
  | .sendEof => do
    BufChannel.sendEof
    pure ⟨[], []⟩
  | .recv => do
    let chunk ← BufChannel.recv
    pure ⟨[], chunk⟩
  | .tryRecv => do
    match ← BufChannel.tryRecv with
    | some (.ok chunk) => pure ⟨[], chunk⟩
    | _ => pure ⟨[], []⟩
  | .peek => do
    let _ ← BufChannel.peek
    pure ⟨[], []⟩
  | .consume size => do
    let data ← BufChannel.consume size
    pure ⟨[], data⟩
  | .drain => do
    -- what `drain` drops is the stream as it finds it
    let s ← get
    BufChannel.drain
    pure ⟨[], s.stream⟩
  | .setMaxRecentDataSize size => do
    BufChannel.setMaxRecentDataSize size
    pure ⟨[], []⟩

-- One call of either half, with what has flowed so far. A call that waits is not made yet and
-- leaves the state as it was; one that returns an error keeps the changes it made.
def step (sf : Channel × Flow) (call : Call) : Channel × Flow :=
  match call.exec.run sf.1 with
  | .ok flow s => (s, ⟨sf.2.sent ++ flow.sent, sf.2.taken ++ flow.taken⟩)
  | .error (.error _) s => (s, sf.2)
  | .error _ _ => sf

def run (calls : List Call) : Channel × Flow :=
  calls.foldl step (makeBufChannelPair, ⟨[], []⟩)

end NativeLink.BufChannel
