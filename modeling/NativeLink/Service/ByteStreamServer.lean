import NativeLink.Util.BufChannel.Closed
import NativeLink.Lib.Fill

-- Model of the uploads of `nativelink-service/src/bytestream_server.rs` and of
-- `WriteRequestStreamWrapper` in `nativelink-util/src/proto_stream_utils.rs`. A `Write` RPC names
-- an upload by its uuid; `active_uploads` maps the uuid to the counter of bytes received and to the
-- upload's stream while no write holds it. A write takes the idle stream, or makes a new one: the
-- channel to the store's `update` and the counter. Each message of the client's stream is one round
-- of `process_client_stream`, which drops data the channel already has. A write that fails drops
-- its guard, which puts the stream back as idle and spawns a task that removes the uuid after a
-- sleep; a write that ends gracefully removes the uuid. Each round, each timeout task's wake and its
-- removal under the lock is one event, in any order the runtime picks. The store's `update` reads
-- the other half of the channel and is not modelled: the channel keeps every chunk sent, and the
-- store's `update` is taken to return `Ok` once the write has sent the EOF.

namespace NativeLink.ByteStreamServer

open EStateM BufChannel

structure WriteRequest where
  writeOffset : Int
  finishWrite : Bool
  data : Bytes
  deriving DecidableEq, Repr

-- The part of `ResourceInfo` a write reads, parsed from its first message's resource name.
structure ResourceInfo where
  uuid : Option String
  expectedSize : Nat
  deriving DecidableEq, Repr

-- `WriteRequestStreamWrapper`, with the client's messages still to come in `stream`.
structure WriteRequestStreamWrapper where
  resourceInfo : ResourceInfo
  bytesReceived : Nat
  stream : List (Except Error WriteRequest)
  firstMsg : Option WriteRequest
  writeFinished : Bool

-- `poll_next` once the wrapped stream has an item or has ended; `none` is the end of the stream.
-- It counts every message's data, sent again or not.
def WriteRequestStreamWrapper.pollNext (w : WriteRequestStreamWrapper) :
    Option (Except Error WriteRequest) × WriteRequestStreamWrapper :=
  let expectedSize := w.resourceInfo.expectedSize
  if w.writeFinished then
    let bytesReceived := w.bytesReceived
    if bytesReceived ≠ expectedSize then
      (some (.error (makeInputErr
        s!"Did not send enough data. Expected {expectedSize}, but so far received {bytesReceived}")), w)
    else (none, w)
  else
    let (maybeMessage, w) : Except Error WriteRequest × WriteRequestStreamWrapper :=
      match w.firstMsg, w.stream with
      | some firstMsg, _ => (.ok firstMsg, { w with firstMsg := none })
      | none, maybeMessage :: stream =>
        let bytesReceived := w.bytesReceived
        (maybeMessage.mapError (·.append s!"Stream error at byte {bytesReceived}"), { w with stream := stream })
      | none, [] => (.error (makeInputErr "Expected WriteRequest struct in stream"), w)
    match maybeMessage with
    | .error err => (some (.error err), w)
    | .ok message =>
      let w := { w with writeFinished := message.finishWrite, bytesReceived := w.bytesReceived + message.data.length }
      let bytesReceived := w.bytesReceived
      if bytesReceived > expectedSize then
        (some (.error (makeInputErr
          s!"Sent too much data. Expected {expectedSize}, but so far received {bytesReceived}")), w)
      else (some (.ok message), w)

/-! ## A round of `process_client_stream` -/

-- What `process_client_stream` borrows: the stream's writing half and the counter of its slot.
structure Pipe where
  tx : Channel
  outerBytesReceived : Nat

abbrev M := EStateM Stop Pipe

def onTx {α : Type} (x : BufChannel.M α) : M α :=
  focus Pipe.tx (fun p t => { p with tx := t }) x

-- `if let Err(mut err) = x { err.code = Code::Internal; return Err(err) }`.
def internalOnError (x : BufChannel.M Unit) : BufChannel.M Unit :=
  x.adaptExcept fun
    | .error err => .error { err with code := .internal }
    | stop => stop

-- The offset checks: the part of the request's data the channel does not have yet, or `none` when
-- it has all of it.
def dataToSend (bytesWritten : Nat) (writeRequest : WriteRequest) : Except Error (Option Bytes) :=
  let writeOffset := writeRequest.writeOffset
  if writeOffset < 0 then
    .error (makeInputErr s!"Invalid negative write offset in write request: {writeOffset}")
  else
    let writeOffset := writeOffset.toNat
    if writeOffset < bytesWritten then
      let finishedAt := writeOffset + writeRequest.data.length
      if finishedAt < bytesWritten then
        if writeRequest.finishWrite then
          .error (makeInputErr
            s!"Resumed stream finished at {finishedAt} bytes when we already received {bytesWritten} bytes.")
        else .ok none
      else .ok (some (writeRequest.data.drop (bytesWritten - writeOffset)))
    else if writeOffset ≠ bytesWritten then
      .error (makeInputErr s!"Received out of order data. Got {writeOffset}, expected {bytesWritten}")
    else .ok (some writeRequest.data)

-- Sending what is new: `tx.send(data)` when there is any, and the counter set to the channel's count.
def sendData (data : Bytes) : M Unit :=
  if !data.isEmpty then do
    onTx (internalOnError (send data))
    modify fun p => { p with outerBytesReceived := p.tx.bytesWritten }
  else pure ()

-- The end of a round: the size check, and the EOF when the request finishes the write.
def checkEnd (expectedSize : Nat) (finishWrite : Bool) : M Bool := do
  let p ← get
  if expectedSize < p.tx.bytesWritten then
    throw (.error (makeInputErr "Received more bytes than expected"))
  else if finishWrite then
    onTx (errTip "Failed to send EOF in ByteStream::write" sendEof)
    pure true
  else pure false

-- The loop body of `process_client_stream` after `stream.next()` gave `writeRequest`: `true` when
-- the write is finished.
def processWriteRequest (expectedSize : Nat) (writeRequest : WriteRequest) : M Bool := do
  let p ← get
  match dataToSend p.tx.bytesWritten writeRequest with
  | .error err => throw (.error err)
  | .ok none => pure false
  | .ok (some data) =>
    sendData data
    checkEnd expectedSize writeRequest.finishWrite

-- The request a round records as supplied, in the model only: one that got past the offset checks.
def suppliedBy (bytesWritten : Nat) (writeRequest : WriteRequest) : Option (Nat × Bytes) :=
  match dataToSend bytesWritten writeRequest with
  | .ok _ => some (writeRequest.writeOffset.toNat, writeRequest.data)
  | .error _ => none

/-! ## What a round does -/

-- What a channel holds: non-empty chunks, counted by `bytes_written`, which together are, position by
-- position, what the requests `supplied` filled in.
structure Holds (tx : Channel) (supplied : List (Nat × Bytes)) : Prop where
  nonEmpty : [] ∉ tx.rx
  bytesWritten : tx.bytesWritten = tx.rx.flatten.length
  filled : (fun p => tx.rx.flatten[p]?) = Fill.fill supplied

section Round

variable {bytesWritten : Nat} {writeRequest : WriteRequest} {r : Option Bytes} {tx : Channel}
  {supplied : List (Nat × Bytes)}

theorem dataToSend_ok (h : dataToSend bytesWritten writeRequest = .ok r) :
    0 ≤ writeRequest.writeOffset ∧ writeRequest.writeOffset.toNat ≤ bytesWritten ∧
      r.getD [] = writeRequest.data.drop (bytesWritten - writeRequest.writeOffset.toNat) := by
  simp only [dataToSend] at h
  split at h
  case isTrue => cases h
  case isFalse hneg =>
    refine ⟨by omega, ?_⟩
    split at h
    case isTrue hlt =>
      split at h
      case isTrue hend =>
        split at h
        case isTrue => cases h
        case isFalse =>
          cases h
          refine ⟨by omega, ?_⟩
          rw [Option.getD_none, List.drop_eq_nil_of_le]
          omega
      case isFalse => cases h; exact ⟨by omega, rfl⟩
    case isFalse hge =>
      split at h
      case isTrue => cases h
      case isFalse heq =>
        cases h
        refine ⟨by omega, ?_⟩
        rw [Option.getD_some, Nat.sub_eq_zero_of_le (by omega), List.drop_zero]

theorem dataToSend_beyond (h : (bytesWritten : Int) < writeRequest.writeOffset) :
    dataToSend bytesWritten writeRequest =
      .error (makeInputErr s!"Received out of order data. Got {writeRequest.writeOffset.toNat}, expected {bytesWritten}") := by
  simp only [dataToSend]
  rw [if_neg (by omega), if_neg (by omega), if_pos (by omega)]

theorem Holds.fill_supply (h : Holds tx supplied) {offset : Nat} (data : Bytes) (ho : offset ≤ tx.bytesWritten) :
    (fun p => (tx.rx.flatten ++ data.drop (tx.bytesWritten - offset))[p]?) = Fill.fill (supplied ++ [(offset, data)]) := by
  rw [Fill.fill_append_singleton, ← h.filled, h.bytesWritten, Fill.supply_getElem? (h.bytesWritten ▸ ho)]

theorem Holds.send (h : Holds tx supplied) {data : Bytes} (hd : data ≠ []) {supplied' : List (Nat × Bytes)}
    (hfill : (fun p => (tx.rx.flatten ++ data)[p]?) = Fill.fill supplied') :
    Holds { tx with rx := tx.rx ++ [data], bytesWritten := tx.bytesWritten + data.length } supplied' where
  nonEmpty := by
    intro hm
    cases List.mem_append.mp hm
    case inl hm => exact h.nonEmpty hm
    case inr hm => exact hd (List.mem_singleton.mp hm).symm
  bytesWritten := by simp [h.bytesWritten]
  filled := by simpa using hfill

theorem sendData_run_nil (p : Pipe) : (sendData []).run p = .ok () p :=
  rfl

theorem sendData_run_open {p : Pipe} {data : Bytes} (ht : p.tx.txOpen = true) (hd : data ≠ []) :
    (sendData data).run p = .ok ()
      ⟨{ p.tx with rx := p.tx.rx ++ [data], bytesWritten := p.tx.bytesWritten + data.length },
        p.tx.bytesWritten + data.length⟩ := by
  have hne : (!data.isEmpty) = true := by simpa using hd
  have hsend : (internalOnError (send data)).run p.tx =
      .ok () { p.tx with rx := p.tx.rx ++ [data], bytesWritten := p.tx.bytesWritten + data.length } := by
    rw [internalOnError, run_adaptExcept, send_run_open ht hd]
  simp only [sendData, hne, if_true, onTx]
  rw [run_bind_of_ok (run_focus_ok hsend)]
  rfl

theorem checkEnd_post (expectedSize : Nat) (finishWrite : Bool) (p : Pipe) :
    Post (fun finished p' => p'.tx.rx = p.tx.rx ∧ p'.tx.bytesWritten = p.tx.bytesWritten ∧
        p'.outerBytesReceived = p.outerBytesReceived ∧ (finished = false → p' = p) ∧
        (finished = true → finishWrite = true ∧ p'.tx.eofSent = true ∧ p'.tx.bytesWritten ≤ expectedSize))
      (fun _ p' => p' = p) ((checkEnd expectedSize finishWrite).run p) := by
  simp only [checkEnd, run_bind, run_get]
  split
  case isTrue => exact rfl
  case isFalse hsize =>
    cases hf : finishWrite
    case false => exact ⟨rfl, rfl, rfl, fun _ => rfl, fun h => by cases h⟩
    case true =>
      obtain ⟨tx', hrun, heof, hrx, hbytes⟩ := sendEof_run_eofSent (s := p.tx)
      simp only [if_true, onTx]
      rw [run_bind_of_ok (run_focus_ok (errTip_run_ok _ hrun))]
      exact ⟨hrx, hbytes, rfl, (fun h => by cases h), fun _ => ⟨trivial, heof, by simp only [hbytes]; omega⟩⟩

theorem Holds.of_eq (h : Holds tx supplied) {tx' : Channel} (hrx : tx'.rx = tx.rx)
    (hbytes : tx'.bytesWritten = tx.bytesWritten) : Holds tx' supplied where
  nonEmpty := hrx ▸ h.nonEmpty
  bytesWritten := by rw [hbytes, hrx]; exact h.bytesWritten
  filled := by rw [hrx]; exact h.filled

-- What a round leaves from `p`: the channel holds what it held and the request if that got past the
-- offset checks; the counter follows the channel when it did before; the channel stays open unless
-- the round finished the write, which it does only for a request with `finish_write`, having sent
-- the EOF within the expected size.
structure Round (expectedSize : Nat) (supplied : List (Nat × Bytes)) (writeRequest : WriteRequest) (p : Pipe)
    (finished : Bool) (p' : Pipe) : Prop where
  holds : Holds p'.tx (supplied ++ (suppliedBy p.tx.bytesWritten writeRequest).toList)
  counted : p.outerBytesReceived = p.tx.bytesWritten → p'.outerBytesReceived = p'.tx.bytesWritten
  txOpen : finished = false → p'.tx.txOpen = true
  finish : finished = true →
    writeRequest.finishWrite = true ∧ p'.tx.eofSent = true ∧ p'.tx.bytesWritten ≤ expectedSize

variable {expectedSize : Nat} {p p₁ : Pipe}

theorem round_checkEnd (h : Round expectedSize supplied writeRequest p false p₁) :
    Post (Round expectedSize supplied writeRequest p) (fun _ => Round expectedSize supplied writeRequest p false)
      ((checkEnd expectedSize writeRequest.finishWrite).run p₁) := by
  refine Post.mono ?_ ?_ (checkEnd_post expectedSize writeRequest.finishWrite p₁)
  case refine_1 =>
    intro finished p' ⟨hrx, hbytes, hcount, hfalse, htrue⟩
    refine ⟨h.holds.of_eq hrx hbytes, fun hc => ?_, fun hf => ?_, htrue⟩
    case refine_1 => rw [hcount, hbytes]; exact h.counted hc
    case refine_2 => rw [hfalse hf]; exact h.txOpen rfl
  case refine_2 =>
    intro _ p' hp
    rw [hp]
    exact h

theorem processWriteRequest_round (expectedSize : Nat) (writeRequest : WriteRequest) (hh : Holds p.tx supplied)
    (ht : p.tx.txOpen = true) :
    Post (Round expectedSize supplied writeRequest p) (fun _ => Round expectedSize supplied writeRequest p false)
      ((processWriteRequest expectedSize writeRequest).run p) := by
  simp only [processWriteRequest, run_bind, run_get]
  cases hd : dataToSend p.tx.bytesWritten writeRequest with
  | error err =>
    have hs : suppliedBy p.tx.bytesWritten writeRequest = none := by simp [suppliedBy, hd]
    exact ⟨by simpa [hs] using hh, id, fun _ => ht, fun h => by cases h⟩
  | ok r =>
    obtain ⟨-, ho, hr⟩ := dataToSend_ok hd
    have hs : suppliedBy p.tx.bytesWritten writeRequest = some (writeRequest.writeOffset.toNat, writeRequest.data) := by
      simp [suppliedBy, hd]
    have hfill := hh.fill_supply writeRequest.data ho
    rw [← hr] at hfill
    cases r with
    | none =>
      rw [Option.getD_none, List.append_nil] at hfill
      exact ⟨⟨hh.nonEmpty, hh.bytesWritten, by rw [hs, Option.toList_some]; exact hfill⟩, id, fun _ => ht,
        fun h => by cases h⟩
    | some data =>
      rw [Option.getD_some] at hfill
      by_cases hdata : data = []
      case pos =>
        subst hdata
        rw [List.append_nil] at hfill
        rw [run_bind_of_ok (sendData_run_nil p)]
        exact round_checkEnd ⟨⟨hh.nonEmpty, hh.bytesWritten, by rw [hs, Option.toList_some]; exact hfill⟩, id,
          fun _ => ht, fun h => by cases h⟩
      case neg =>
        rw [run_bind_of_ok (sendData_run_open ht hdata)]
        exact round_checkEnd ⟨hh.send hdata (by rw [hs, Option.toList_some]; exact hfill), fun _ => rfl,
          fun _ => ht, fun h => by cases h⟩

theorem processWriteRequest_run_beyond (expectedSize : Nat) (hb : (p.tx.bytesWritten : Int) < writeRequest.writeOffset) :
    (processWriteRequest expectedSize writeRequest).run p =
      .error (.error (makeInputErr
        s!"Received out of order data. Got {writeRequest.writeOffset.toNat}, expected {p.tx.bytesWritten}")) p := by
  simp only [processWriteRequest, run_bind, run_get, dataToSend_beyond hb]
  rfl

end Round

/-! ## The server -/

-- The channel to the store a new upload makes, and the counter made with it, by creation. A slot
-- names the counter it holds and a stream state the channel it writes; `supplied`, not in the
-- source, is each request that got past the offset checks of a round on the channel, at its offset.
structure Upload where
  tx : Channel
  bytesReceived : Nat
  supplied : List (Nat × Bytes)

def Upload.new : Upload :=
  ⟨makeBufChannelPair, 0, []⟩

-- `StreamState`, whose `store_update_fut` is not modelled.
structure StreamState where
  uuid : String
  tx : Nat
  deriving DecidableEq

structure IdleStream where
  streamState : StreamState
  timeoutStreamDropGuard : Nat
  deriving DecidableEq

-- `BytesWrittenAndIdleStream`.
structure Slot where
  bytesReceived : Nat
  idleStream : Option IdleStream
  deriving DecidableEq

-- A timeout task of an idle stream: asleep, past its sleep and bound to remove the uuid, or gone.
inductive TimeoutPhase
  | sleeping
  | woken
  | done
  deriving DecidableEq

structure TimeoutTask where
  uuid : String
  phase : TimeoutPhase

-- `ActiveStreamGuard` while it has its stream state.
structure ActiveStreamGuard where
  streamState : StreamState
  bytesReceived : Nat

-- A call of `write`: its stream, its guard while active, and what it returned: the committed size.
structure Write where
  stream : WriteRequestStreamWrapper
  guard : Option ActiveStreamGuard
  result : Option (Except Error Nat)

structure State where
  activeUploads : String → Option Slot
  uploads : List Upload
  timeouts : List TimeoutTask
  writes : List Write

inductive Event
  -- a client calls `write` with the first message and the rest of its stream
  | write (resourceInfo : ResourceInfo) (firstMsg : WriteRequest) (stream : List (Except Error WriteRequest))
  -- the next message of a write's stream is ready
  | next (i : Nat)
  -- the client of a write goes away and the write's future is dropped
  | cancel (i : Nat)
  -- the sleep of a timeout task ends
  | timeoutWakes (t : Nat)
  -- a woken timeout task takes the lock and removes its uuid
  | timeoutRemoves (t : Nat)

def writeTip (err : Error) : Error :=
  err.append "In ByteStreamServer::write"

namespace State

def init : State :=
  ⟨fun _ => none, [], [], []⟩

def upload (s : State) (k : Nat) : Upload :=
  s.uploads.getD k Upload.new

def setWrite (s : State) (i : Nat) (write : Write) : State :=
  { s with writes := s.writes.set i write }

def pushWrite (s : State) (write : Write) : State :=
  { s with writes := s.writes ++ [write] }

def setTimeout (s : State) (t : Nat) (phase : TimeoutPhase) : State :=
  { s with timeouts := s.timeouts.modify t fun task => { task with phase := phase } }

def setSlot (s : State) (uuid : String) (slot : Option Slot) : State :=
  { s with activeUploads := Function.update s.activeUploads uuid slot }

-- Dropping a stream state drops its `DropCloserWriteHalf`.
def dropStream (s : State) (streamState : StreamState) : State :=
  { s with uploads := s.uploads.modify streamState.tx fun u => { u with tx := dropWriteHalf u.tx } }

-- Dropping a `JoinHandleDropGuard` aborts its task, which stops only at an await: a woken task runs
-- on to its end.
def abort (s : State) (t : Nat) : State :=
  { s with timeouts := s.timeouts.modify t fun task =>
      if task.phase = .sleeping then { task with phase := .done } else task }

def dropIdleStream (s : State) (idleStream : IdleStream) : State :=
  (s.dropStream idleStream.streamState).abort idleStream.timeoutStreamDropGuard

-- `active_uploads.remove(uuid)`, which drops the idle stream the slot holds.
def removeUpload (s : State) (uuid : String) : State :=
  match s.activeUploads uuid with
  | some ⟨_, some idleStream⟩ => (s.setSlot uuid none).dropIdleStream idleStream
  | _ => s.setSlot uuid none

-- `create_or_join_upload_stream`.
def createOrJoinUploadStream (s : State) (uuid : String) : Except Error (ActiveStreamGuard × State) :=
  match s.activeUploads uuid with
  | some slot =>
    match slot.idleStream with
    | none => .error (makeInputErr "Cannot upload same UUID simultaneously")
    | some idleStream =>
      -- `into_active_stream` drops the drop guard of the idle stream's timeout task
      .ok (⟨idleStream.streamState, slot.bytesReceived⟩,
        ((s.setSlot uuid (some { slot with idleStream := none })).abort idleStream.timeoutStreamDropGuard))
  | none =>
    let k := s.uploads.length
    .ok (⟨⟨uuid, k⟩, k⟩, { s.setSlot uuid (some ⟨k, none⟩) with uploads := s.uploads ++ [Upload.new] })

-- `ActiveStreamGuard::graceful_finish`, after which the stream state is dropped.
def gracefulFinish (s : State) (guard : ActiveStreamGuard) : State :=
  (s.removeUpload guard.streamState.uuid).dropStream guard.streamState

-- `Drop for ActiveStreamGuard`: the stream goes back to its slot as idle, with a new timeout task.
def dropGuard (s : State) (guard : ActiveStreamGuard) : State :=
  let uuid := guard.streamState.uuid
  match s.activeUploads uuid with
  -- "Failed to find active upload. This should never happen."
  | none => s.dropStream guard.streamState
  | some slot =>
    let s' := { s.setSlot uuid (some { slot with idleStream := some ⟨guard.streamState, s.timeouts.length⟩ }) with
      timeouts := s.timeouts ++ [⟨uuid, .sleeping⟩] }
    -- the idle stream the slot held is dropped
    match slot.idleStream with
    | none => s'
    | some idleStream => s'.dropIdleStream idleStream

-- `inner_write` up to `process_client_stream`, with the stream the first message began.
def write (s : State) (resourceInfo : ResourceInfo) (firstMsg : WriteRequest)
    (stream : List (Except Error WriteRequest)) : State :=
  let w : WriteRequestStreamWrapper := ⟨resourceInfo, 0, stream, some firstMsg, false⟩
  match resourceInfo.uuid with
  | none => s.pushWrite ⟨w, none, some (.error (writeTip (makeInputErr "UUID must be set if writing data")))⟩
  | some uuid =>
    match s.createOrJoinUploadStream uuid with
    | .error err => s.pushWrite ⟨w, none, some (.error (writeTip err))⟩
    | .ok (guard, s) => s.pushWrite ⟨w, some guard, none⟩

def pipeOf (s : State) (guard : ActiveStreamGuard) : Pipe :=
  ⟨(s.upload guard.streamState.tx).tx, (s.upload guard.bytesReceived).bytesReceived⟩

-- What a round did to the channel and the counter, put back.
def setPipe (s : State) (guard : ActiveStreamGuard) (supplied : Option (Nat × Bytes)) (pipe : Pipe) : State :=
  { s with
    uploads := (s.uploads.modify guard.streamState.tx fun u => { u with tx := pipe.tx, supplied := u.supplied ++ supplied.toList })
      |>.modify guard.bytesReceived fun u => { u with bytesReceived := pipe.outerBytesReceived } }

-- A write that fails: it returns the error and drops its guard.
def failWrite (s : State) (i : Nat) (stream : WriteRequestStreamWrapper) (guard : ActiveStreamGuard) (err : Error) :
    State :=
  (s.setWrite i ⟨stream, none, some (.error (writeTip err))⟩).dropGuard guard

-- One round of `process_client_stream` of the `i`-th write. When it finishes, the store's update
-- returns and the write ends gracefully, answering the expected size; a round that waits is not
-- taken yet.
def next (s : State) (i : Nat) (write : Write) (guard : ActiveStreamGuard) : State :=
  let (item, stream) := write.stream.pollNext
  match item with
  | none => s.failWrite i stream guard (makeInputErr "Client closed stream before sending all data")
  | some (.error err) => s.failWrite i stream guard err
  | some (.ok writeRequest) =>
    let pipe := s.pipeOf guard
    let supplied := suppliedBy pipe.tx.bytesWritten writeRequest
    match (processWriteRequest stream.resourceInfo.expectedSize writeRequest).run pipe with
    | .ok true pipe =>
      ((s.setWrite i ⟨stream, none, some (.ok stream.resourceInfo.expectedSize)⟩).setPipe guard supplied pipe).gracefulFinish guard
    | .ok false pipe => (s.setPipe guard supplied pipe).setWrite i { write with stream := stream }
    | .error (.error err) pipe => (s.setPipe guard supplied pipe).failWrite i stream guard err
    | .error _ _ => s

def step (s : State) : Event → State
  | .write resourceInfo firstMsg stream => s.write resourceInfo firstMsg stream
  | .next i =>
    match s.writes[i]? with
    | some write@⟨_, some guard, _⟩ => s.next i write guard
    | _ => s
  | .cancel i =>
    match s.writes[i]? with
    | some write@⟨_, some guard, _⟩ => (s.setWrite i { write with guard := none }).dropGuard guard
    | _ => s
  | .timeoutWakes t =>
    match s.timeouts[t]? with
    | some ⟨_, .sleeping⟩ => s.setTimeout t .woken
    | _ => s
  | .timeoutRemoves t =>
    match s.timeouts[t]? with
    | some ⟨uuid, .woken⟩ => (s.setTimeout t .done).removeUpload uuid
    | _ => s

end State

def run (events : List Event) : State :=
  events.foldl State.step State.init

/-! ## Ownership

A stream state is moved, never copied: it is idle in one slot or with one write's guard, and the
channel it writes stays open while it is kept. Every channel holds what was supplied to it. -/

-- Where a stream state is kept: idle in the slot of a uuid, or by the guard of a write.
inductive Holder
  | idle (uuid : String)
  | write (i : Nat)
  deriving DecidableEq

namespace State

def holding (s : State) : Holder → Option StreamState
  | .idle uuid => (s.activeUploads uuid).bind fun slot => slot.idleStream.map IdleStream.streamState
  | .write i => s.writes[i]?.bind fun write => write.guard.map ActiveStreamGuard.streamState

-- No stream state kept writes channel `k`.
def Free (s : State) (k : Nat) : Prop :=
  ∀ h st, s.holding h = some st → st.tx ≠ k

def Open (s : State) (k : Nat) : Prop :=
  ∃ u, s.uploads[k]? = some u ∧ u.tx.txOpen = true

-- No two keepers keep stream states writing one channel.
def Owned (s : State) : Prop :=
  ∀ h h' st st', s.holding h = some st → s.holding h' = some st' → st.tx = st'.tx → h = h'

structure Wf (s : State) : Prop where
  opened : ∀ h st, s.holding h = some st → s.Open st.tx
  owned : s.Owned
  holds : ∀ (k : Nat) (u : Upload), s.uploads[k]? = some u → Holds u.tx u.supplied

variable {s s' : State} {uuid : String} {i t : Nat} {st : StreamState} {guard : ActiveStreamGuard}

theorem holding_setSlot (uuid : String) (slot : Option Slot) (h : Holder) :
    (s.setSlot uuid slot).holding h =
      if h = .idle uuid then slot.bind (fun slot => slot.idleStream.map IdleStream.streamState) else s.holding h := by
  cases h with
  | idle uuid' =>
    by_cases hu : uuid' = uuid
    case pos => subst hu; simp [holding, setSlot]
    case neg => simp [holding, setSlot, hu]
  | write j => simp [holding, setSlot]

theorem holding_setWrite (hi : i < s.writes.length) (write : Write) (h : Holder) :
    (s.setWrite i write).holding h =
      if h = .write i then write.guard.map ActiveStreamGuard.streamState else s.holding h := by
  cases h with
  | idle uuid => simp [holding, setWrite]
  | write j =>
    by_cases hj : j = i
    case pos => subst hj; simp [holding, setWrite, List.getElem?_set_self hi]
    case neg => simp [holding, setWrite, List.getElem?_set_ne (Ne.symm hj), hj]

theorem holding_pushWrite (write : Write) (h : Holder) :
    (s.pushWrite write).holding h =
      if h = .write s.writes.length then write.guard.map ActiveStreamGuard.streamState else s.holding h := by
  cases h with
  | idle uuid => simp [holding, pushWrite]
  | write j =>
    by_cases hj : j < s.writes.length
    case pos => simp [holding, pushWrite, List.getElem?_append_left hj, Nat.ne_of_lt hj]
    case neg =>
      have hnone : s.writes[j]? = none := List.getElem?_eq_none (Nat.le_of_not_lt hj)
      simp only [holding, pushWrite, List.getElem?_append_right (Nat.le_of_not_lt hj), hnone, Option.bind_none,
        Holder.write.injEq]
      by_cases he : j = s.writes.length
      case pos => simp [he]
      case neg =>
        rw [List.getElem?_eq_none (by simp only [List.length_singleton]; omega), if_neg he]
        rfl

theorem Open.upload {k : Nat} (h : s.Open k) : (s.upload k).tx.txOpen = true := by
  obtain ⟨u, hu, ho⟩ := h
  rw [State.upload, List.getD_eq_getElem?_getD, hu, Option.getD_some]
  exact ho

theorem Wf.holds_upload (hs : s.Wf) (k : Nat) : Holds (s.upload k).tx (s.upload k).supplied := by
  rw [upload, List.getD_eq_getElem?_getD]
  cases hk : s.uploads[k]?
  case some u => exact hs.holds k u hk
  case none => exact ⟨List.not_mem_nil, rfl, rfl⟩

theorem Wf.update (hs : s.Wf) (h₀ : Holder) (v : Option StreamState)
    (hhold : ∀ h, s'.holding h = if h = h₀ then v else s.holding h) (hup : s'.uploads = s.uploads)
    (hv : ∀ st, v = some st → s.Open st.tx ∧ ∀ h st', h ≠ h₀ → s.holding h = some st' → st'.tx ≠ st.tx) :
    s'.Wf where
  opened := by
    intro h st hh
    unfold Open
    rw [hup]
    rw [hhold] at hh
    split at hh
    case isTrue => exact (hv st hh).1
    case isFalse => exact hs.opened h st hh
  owned := by
    intro h h' st st' hh hh' heq
    rw [hhold] at hh hh'
    split at hh <;> split at hh'
    case isTrue.isTrue h₁ h₂ => rw [h₁, h₂]
    case isTrue.isFalse h₂ => exact absurd heq.symm ((hv st hh).2 h' st' h₂ hh')
    case isFalse.isTrue h₁ _ => exact absurd heq ((hv st' hh').2 h st h₁ hh)
    case isFalse.isFalse => exact hs.owned h h' st st' hh hh' heq
  holds := by
    rw [hup]
    exact hs.holds

theorem Wf.free_of_replace (hs : s.Wf) {h₀ : Holder} {v : Option StreamState} (hheld : s.holding h₀ = some st)
    (hhold : ∀ h, s'.holding h = if h = h₀ then v else s.holding h) (hv : ∀ st', v = some st' → st'.tx ≠ st.tx) :
    s'.Free st.tx := by
  intro h st' hh heq
  rw [hhold] at hh
  split at hh
  case isTrue => exact hv st' hh heq
  case isFalse hne => exact hne (hs.owned h h₀ st' st hh hheld heq)

theorem Wf.setTimeouts (hs : s.Wf) (timeouts : List TimeoutTask) : { s with timeouts := timeouts }.Wf :=
  ⟨hs.opened, hs.owned, hs.holds⟩

theorem Wf.dropStream (hs : s.Wf) (hfree : s.Free st.tx) : (s.dropStream st).Wf where
  opened := by
    intro h st' hh
    obtain ⟨u, hu, ho⟩ := hs.opened h st' hh
    refine ⟨u, ?_, ho⟩
    rw [State.dropStream, List.getElem?_modify, hu, Option.map_eq_map, Option.map_some, if_neg (hfree h st' hh).symm]
  owned := hs.owned
  holds := by
    intro k u hu
    rw [State.dropStream, List.getElem?_modify] at hu
    cases hk : s.uploads[k]?
    case none => rw [hk] at hu; cases hu
    case some u₀ =>
      rw [hk, Option.map_eq_map, Option.map_some, Option.some.injEq] at hu
      subst hu
      split
      case isTrue => exact (hs.holds k u₀ hk).of_eq rfl rfl
      case isFalse => exact hs.holds k u₀ hk

theorem Free.dropStream {k : Nat} (h : s.Free k) (st : StreamState) : (s.dropStream st).Free k :=
  h

theorem Wf.abort (hs : s.Wf) (t : Nat) : (s.abort t).Wf :=
  hs.setTimeouts _

theorem Wf.setTimeout (hs : s.Wf) (t : Nat) (phase : TimeoutPhase) : (s.setTimeout t phase).Wf :=
  hs.setTimeouts _

theorem Wf.dropIdleStream (hs : s.Wf) {idleStream : IdleStream} (hfree : s.Free idleStream.streamState.tx) :
    (s.dropIdleStream idleStream).Wf :=
  (hs.dropStream hfree).abort _

theorem holding_removeUpload (h : Holder) :
    (s.removeUpload uuid).holding h = if h = .idle uuid then none else s.holding h := by
  unfold State.removeUpload
  split <;> exact holding_setSlot uuid none h

theorem Wf.removeUpload (hs : s.Wf) (uuid : String) : (s.removeUpload uuid).Wf := by
  have hnone : (s.setSlot uuid none).Wf :=
    hs.update (.idle uuid) none (holding_setSlot uuid none) rfl fun _ h => by cases h
  unfold State.removeUpload
  split
  case h_1 c idleStream hslot =>
    have hheld : s.holding (.idle uuid) = some idleStream.streamState := by simp [holding, hslot]
    exact hnone.dropIdleStream (hs.free_of_replace hheld (holding_setSlot uuid none) fun _ h => by cases h)
  case h_2 => exact hnone

theorem Free.removeUpload {k : Nat} (h : s.Free k) (uuid : String) : (s.removeUpload uuid).Free k := by
  intro h' st hh
  rw [holding_removeUpload] at hh
  split at hh
  case isTrue => cases hh
  case isFalse => exact h h' st hh

theorem Wf.gracefulFinish (hs : s.Wf) (hfree : s.Free guard.streamState.tx) : (s.gracefulFinish guard).Wf :=
  (hs.removeUpload _).dropStream (hfree.removeUpload _)

theorem Wf.dropGuard (hs : s.Wf) (hfree : s.Free guard.streamState.tx) (hopen : s.Open guard.streamState.tx) :
    (s.dropGuard guard).Wf := by
  dsimp only [State.dropGuard]
  split
  case h_1 => exact hs.dropStream hfree
  case h_2 slot hslot =>
    have hhold := holding_setSlot (s := s) guard.streamState.uuid
      (some { slot with idleStream := some ⟨guard.streamState, s.timeouts.length⟩ })
    have hidle := (hs.update _ (some guard.streamState) hhold rfl fun _ hst => by
        cases hst
        exact ⟨hopen, fun h st' _ hh => hfree h st' hh⟩).setTimeouts
      (s.timeouts ++ [⟨guard.streamState.uuid, .sleeping⟩])
    split
    case h_1 => exact hidle
    case h_2 idleStream hidleStream =>
      have hheld : s.holding (.idle guard.streamState.uuid) = some idleStream.streamState := by
        simp [holding, hslot, hidleStream]
      exact hidle.dropIdleStream (hs.free_of_replace hheld hhold fun _ hst => by
        cases hst
        exact (hfree _ _ hheld).symm)

theorem Wf.pushWrite (hs : s.Wf) (write : Write)
    (hg : ∀ g, write.guard = some g → s.Open g.streamState.tx ∧ s.Free g.streamState.tx) : (s.pushWrite write).Wf :=
  hs.update _ _ (holding_pushWrite write) rfl fun st hst => by
    obtain ⟨g, hg', rfl⟩ := Option.map_eq_some_iff.mp hst
    exact ⟨(hg g hg').1, fun h st' _ hh => (hg g hg').2 h st' hh⟩

theorem Wf.pushUpload (hs : s.Wf) : { s with uploads := s.uploads ++ [Upload.new] }.Wf where
  opened := by
    intro h st hh
    obtain ⟨u, hu, ho⟩ := hs.opened h st hh
    exact ⟨u, by rw [List.getElem?_append_left (List.getElem?_eq_some_iff.mp hu).1, hu], ho⟩
  owned := hs.owned
  holds := by
    intro k u hu
    by_cases hk : k < s.uploads.length
    case pos => rw [List.getElem?_append_left hk] at hu; exact hs.holds k u hu
    case neg =>
      rw [List.getElem?_append_right (Nat.le_of_not_lt hk), List.getElem?_singleton] at hu
      split at hu
      case isTrue => cases hu; exact ⟨List.not_mem_nil, rfl, rfl⟩
      case isFalse => cases hu

theorem Wf.lt_of_holding (hs : s.Wf) {h : Holder} (hh : s.holding h = some st) : st.tx < s.uploads.length := by
  obtain ⟨u, hu, -⟩ := hs.opened h st hh
  exact (List.getElem?_eq_some_iff.mp hu).1

theorem Wf.createOrJoinUploadStream (hs : s.Wf) {s' : State} (h : s.createOrJoinUploadStream uuid = .ok (guard, s')) :
    s'.Wf ∧ s'.Open guard.streamState.tx ∧ s'.Free guard.streamState.tx := by
  unfold State.createOrJoinUploadStream at h
  split at h
  case h_1 slot hslot =>
    split at h
    case h_1 => cases h
    case h_2 idleStream hidleStream =>
      cases h
      have hhold := holding_setSlot (s := s) uuid (some { slot with idleStream := none })
      have hheld : s.holding (.idle uuid) = some idleStream.streamState := by simp [holding, hslot, hidleStream]
      exact ⟨(hs.update _ none hhold rfl fun _ h => by cases h).abort _, hs.opened _ _ hheld,
        hs.free_of_replace hheld hhold fun _ h => by cases h⟩
  case h_2 hslot =>
    cases h
    have hnew := hs.pushUpload
    have hhold := holding_setSlot (s := { s with uploads := s.uploads ++ [Upload.new] }) uuid
      (some ⟨s.uploads.length, none⟩)
    refine ⟨hnew.update _ none hhold rfl (fun _ h => by cases h), ⟨Upload.new, by simp, rfl⟩, ?_⟩
    intro h st hh heq
    have hh' : ({ s with uploads := s.uploads ++ [Upload.new] }.setSlot uuid
        (some ⟨s.uploads.length, none⟩)).holding h = some st := hh
    rw [hhold] at hh'
    split at hh'
    case isTrue => cases hh'
    case isFalse => exact Nat.ne_of_lt (hs.lt_of_holding hh') heq

theorem Wf.write (hs : s.Wf) (resourceInfo : ResourceInfo) (firstMsg : WriteRequest)
    (stream : List (Except Error WriteRequest)) : (s.write resourceInfo firstMsg stream).Wf := by
  unfold State.write
  split
  case h_1 => exact hs.pushWrite _ fun _ h => by cases h
  case h_2 uuid _ =>
    split
    case h_1 => exact hs.pushWrite _ fun _ h => by cases h
    case h_2 guard s' hjoin =>
      obtain ⟨hs', hopen, hfree⟩ := hs.createOrJoinUploadStream hjoin
      exact hs'.pushWrite _ fun g hg => by
        cases hg
        exact ⟨hopen, hfree⟩

theorem Wf.release (hs : s.Wf) {write : Write} (hw : s.writes[i]? = some write) (hg : write.guard = some guard)
    (write' : Write) (hg' : write'.guard = none) :
    (s.setWrite i write').Wf ∧ (s.setWrite i write').Free guard.streamState.tx ∧
      (s.setWrite i write').Open guard.streamState.tx := by
  have hheld : s.holding (.write i) = some guard.streamState := by simp [holding, hw, hg]
  have hhold := holding_setWrite (List.getElem?_eq_some_iff.mp hw).1 write'
  rw [hg'] at hhold
  exact ⟨hs.update _ none hhold rfl (fun _ h => by cases h), hs.free_of_replace hheld hhold (fun _ h => by cases h),
    hs.opened _ _ hheld⟩

theorem Wf.setWrite_guard (hs : s.Wf) {write : Write} (hw : s.writes[i]? = some write) (write' : Write)
    (hg : write'.guard = write.guard) : (s.setWrite i write').Wf := by
  refine hs.update _ _ (holding_setWrite (List.getElem?_eq_some_iff.mp hw).1 write') rfl fun st hst => ?_
  have hheld : s.holding (.write i) = some st := by simpa [holding, hw, hg] using hst
  exact ⟨hs.opened _ _ hheld, fun h st' hne hh heq => hne (hs.owned h _ st' st hh hheld heq)⟩

theorem Wf.failWrite (hs : s.Wf) {write : Write} (hw : s.writes[i]? = some write) (hg : write.guard = some guard)
    (stream : WriteRequestStreamWrapper) (err : Error) : (s.failWrite i stream guard err).Wf := by
  obtain ⟨hs', hfree, hopen⟩ := hs.release hw hg ⟨stream, none, some (.error (writeTip err))⟩ rfl
  exact hs'.dropGuard hfree hopen

theorem Wf.setPipe (hs : s.Wf) {supplied : Option (Nat × Bytes)} {pipe : Pipe}
    (hholds : Holds pipe.tx ((s.upload guard.streamState.tx).supplied ++ supplied.toList))
    (hopen : ¬s.Free guard.streamState.tx → pipe.tx.txOpen = true) :
    (s.setPipe guard supplied pipe).Wf where
  opened := by
    intro h st hh
    obtain ⟨u, hu, ho⟩ := hs.opened h st hh
    have hopen' : guard.streamState.tx = st.tx → pipe.tx.txOpen = true :=
      fun hk => hopen fun hfree => hfree h st hh hk.symm
    simp only [Open, State.setPipe, List.getElem?_modify, hu, Option.map_eq_map, Option.map_some,
      Option.some.injEq, exists_eq_left']
    split_ifs <;> simp_all
  owned := hs.owned
  holds := by
    intro j u hu
    simp only [State.setPipe, List.getElem?_modify, Option.map_eq_map] at hu
    cases hj : s.uploads[j]?
    case none => rw [hj] at hu; cases hu
    case some u₀ =>
      have hu₀ : s.upload j = u₀ := by rw [State.upload, List.getD_eq_getElem?_getD, hj, Option.getD_some]
      rw [hj, Option.map_some, Option.map_some, Option.some.injEq] at hu
      subst hu
      by_cases hk : guard.streamState.tx = j
      case pos =>
        subst hk
        rw [hu₀] at hholds
        by_cases hc : guard.bytesReceived = guard.streamState.tx <;> simpa [hc] using hholds
      case neg => by_cases hc : guard.bytesReceived = j <;> simpa [hk, hc] using hs.holds j u₀ hj

theorem Wf.next (hs : s.Wf) {write : Write} (hw : s.writes[i]? = some write) (hg : write.guard = some guard) :
    (s.next i write guard).Wf := by
  have hheld : s.holding (.write i) = some guard.streamState := by simp [holding, hw, hg]
  dsimp only [State.next]
  split
  case h_1 => exact hs.failWrite hw hg _ _
  case h_2 => exact hs.failWrite hw hg _ _
  case h_3 writeRequest _ =>
    have hround := processWriteRequest_round (p := s.pipeOf guard)
      write.stream.pollNext.2.resourceInfo.expectedSize writeRequest (hs.holds_upload _) (hs.opened _ _ hheld).upload
    split
    case h_1 pipe hrun =>
      rw [hrun] at hround
      obtain ⟨hs', hfree, -⟩ := hs.release hw hg ⟨write.stream.pollNext.2, none,
        some (.ok write.stream.pollNext.2.resourceInfo.expectedSize)⟩ rfl
      exact (hs'.setPipe hround.holds fun h => absurd hfree h).gracefulFinish hfree
    case h_2 pipe hrun =>
      rw [hrun] at hround
      exact (hs.setPipe hround.holds fun _ => hround.txOpen rfl).setWrite_guard hw _ rfl
    case h_3 err pipe hrun =>
      rw [hrun] at hround
      exact (hs.setPipe hround.holds fun _ => hround.txOpen rfl).failWrite hw hg _ _
    case h_4 => exact hs

theorem init_wf : init.Wf where
  opened := fun h _ hh => by cases h <;> cases hh
  owned := fun h _ _ _ hh => by cases h <;> cases hh
  holds := fun _ _ h => by cases h

theorem Wf.step (hs : s.Wf) : ∀ e, (s.step e).Wf
  | .write resourceInfo firstMsg stream => hs.write resourceInfo firstMsg stream
  | .next i => by
    simp only [State.step]
    split
    case h_1 _ _ guard _ hw => exact hs.next hw rfl
    case h_2 => exact hs
  | .cancel i => by
    simp only [State.step]
    split
    case h_1 _ stream guard result hw =>
      obtain ⟨hs', hfree, hopen⟩ := hs.release hw rfl ⟨stream, none, result⟩ rfl
      exact hs'.dropGuard hfree hopen
    case h_2 => exact hs
  | .timeoutWakes t => by
    simp only [State.step]
    split
    case h_1 => exact hs.setTimeout _ _
    case h_2 => exact hs
  | .timeoutRemoves t => by
    simp only [State.step]
    split
    case h_1 => exact (hs.setTimeout _ _).removeUpload _
    case h_2 => exact hs

end State

theorem run_wf (events : List Event) : (run events).Wf :=
  fold_inv State.step (fun _ e hs => hs.step e) events _ State.init_wf

-- Over every run, every upload's channel holds its chunks in order, counted by `bytes_written`, and
-- at each position the byte of the first request past the offset checks that covered it: the bytes
-- are those of positions 0, 1, 2, … each once.
theorem upload_holds_first_supplied (events : List Event) {k : Nat} {u : Upload} (h : (run events).uploads[k]? = some u) :
    u.tx.bytesWritten = u.tx.rx.flatten.length ∧ ∀ p,
      u.tx.rx.flatten[p]? = (u.supplied.find? fun w => decide (Fill.Covers w p)).bind fun w => Fill.at? w.1 w.2 p := by
  have hholds := (run_wf events).holds k u h
  refine ⟨hholds.bytesWritten, fun p => ?_⟩
  rw [← Fill.fill_eq_find]
  exact congrFun hholds.filled p

-- A write sends two bytes and breaks off; a second write joins the idle stream, sends the second
-- byte again with the third, and finishes: the channel holds each of the three bytes once.
theorem upload_holds_first_supplied_of_resumed_write :
    let s := run [.write ⟨some "u", 3⟩ ⟨0, false, [1, 2]⟩ [.error (Error.new .unavailable "")], .next 0, .next 0,
      .write ⟨some "u", 3⟩ ⟨1, true, [2, 3]⟩ [], .next 1]
    s.uploads[0]? = some (s.upload 0) ∧ (s.upload 0).tx.rx.flatten = [1, 2, 3] ∧
      (s.upload 0).tx.bytesWritten = (s.upload 0).tx.rx.flatten.length ∧ ∀ p,
        (s.upload 0).tx.rx.flatten[p]? = ((s.upload 0).supplied.find? fun w => decide (Fill.Covers w p)).bind
          fun w => Fill.at? w.1 w.2 p := by
  intro s
  have hu : s.uploads[0]? = some (s.upload 0) := rfl
  exact ⟨hu, by decide +kernel, upload_holds_first_supplied _ hu⟩

-- A write for a blob of 5 bytes whose one request sends 2 and finishes: the store's channel gets the 2
-- bytes and then the EOF, so its `update` reads a complete stream of 2 bytes, and the write answers
-- that 5 were committed.
theorem write_commits_short_upload :
    let s : State := run [.write ⟨some "u", 5⟩ ⟨0, true, [1, 2]⟩ [], .next 0]
    s.writes.map Write.result = [some (.ok 5)] ∧ (s.upload 0).tx = written [[1, 2]] true ∧
      Reads (s.upload 0).tx [[1, 2]] true := by
  intro s
  have htx : (s.upload 0).tx = written [[1, 2]] true := by decide +kernel
  exact ⟨by decide +kernel, htx, htx ▸ reads_written (by decide)⟩

/-! ## What a refused request leaves -/

-- What an upload has received: its channel's `bytes_written` and its counter.
def Upload.counts (u : Upload) : Nat × Nat :=
  (u.tx.bytesWritten, u.bytesReceived)

theorem map_modify_of {α β : Type} {l : List α} {n : Nat} {f : α → α} {g : α → β}
    (h : ∀ a, l[n]? = some a → g (f a) = g a) : (l.modify n f).map g = l.map g := by
  apply List.ext_getElem?
  intro j
  simp only [List.getElem?_map, List.getElem?_modify]
  cases hj : l[j]?
  case none => rfl
  case some a =>
    by_cases hn : n = j
    case pos => subst hn; simp [h a hj]
    case neg => simp [hn]

namespace State

variable {s : State} {i : Nat} {guard : ActiveStreamGuard}

theorem counts_dropStream (st : StreamState) : (s.dropStream st).uploads.map Upload.counts = s.uploads.map Upload.counts :=
  map_modify_of fun _ _ => rfl

theorem counts_dropGuard : (s.dropGuard guard).uploads.map Upload.counts = s.uploads.map Upload.counts := by
  dsimp only [State.dropGuard]
  split
  case h_1 => exact counts_dropStream _
  case h_2 =>
    split
    case h_1 => rfl
    case h_2 => exact counts_dropStream _

theorem writes_dropGuard : (s.dropGuard guard).writes = s.writes := by
  dsimp only [State.dropGuard]
  split
  case h_1 => rfl
  case h_2 => split <;> rfl

theorem counts_setPipe_pipeOf : (s.setPipe guard none (s.pipeOf guard)).uploads.map Upload.counts =
    s.uploads.map Upload.counts := by
  apply List.ext_getElem?
  intro j
  simp only [State.setPipe, List.getElem?_map, List.getElem?_modify]
  cases hj : s.uploads[j]?
  case none => rfl
  case some u =>
    have hu : s.upload j = u := by rw [State.upload, List.getD_eq_getElem?_getD, hj, Option.getD_some]
    by_cases hk : guard.streamState.tx = j <;> by_cases hc : guard.bytesReceived = j <;>
      simp [Upload.counts, State.pipeOf, hk, hc, hu]

end State

-- A request whose offset lies past what the upload's channel has received is refused: the write fails
-- with the out-of-order error, and no channel and no counter changes.
theorem next_refuses_out_of_order {s : State} {i : Nat} {write : Write} {guard : ActiveStreamGuard}
    {writeRequest : WriteRequest} (hw : s.writes[i]? = some write) (hg : write.guard = some guard)
    (hnext : write.stream.pollNext.1 = some (.ok writeRequest))
    (hb : ((s.upload guard.streamState.tx).tx.bytesWritten : Int) < writeRequest.writeOffset) :
    (s.step (.next i)).writes[i]?.bind Write.result = some (.error (writeTip (makeInputErr
      s!"Received out of order data. Got {writeRequest.writeOffset.toNat}, expected {(s.upload guard.streamState.tx).tx.bytesWritten}"))) ∧
      (s.step (.next i)).uploads.map Upload.counts = s.uploads.map Upload.counts := by
  obtain ⟨stream, hp⟩ : ∃ stream, write.stream.pollNext = (some (.ok writeRequest), stream) :=
    ⟨_, Prod.ext hnext rfl⟩
  have hrun := processWriteRequest_run_beyond (p := s.pipeOf guard) stream.resourceInfo.expectedSize hb
  have hsup : suppliedBy (s.pipeOf guard).tx.bytesWritten writeRequest = none := by
    simp [suppliedBy, State.pipeOf, dataToSend_beyond hb]
  obtain ⟨write, rfl⟩ : ∃ w, write = { w with guard := some guard } := ⟨write, by cases write; cases hg; rfl⟩
  simp only [State.step, hw, State.next, hp, hrun, hsup, State.failWrite]
  refine ⟨?_, ?_⟩
  case refine_1 =>
    rw [State.writes_dropGuard]
    simp [State.setWrite, State.setPipe, List.getElem?_set_self (List.getElem?_eq_some_iff.mp hw).1]
    rfl
  case refine_2 =>
    rw [State.counts_dropGuard]
    exact State.counts_setPipe_pipeOf

-- The first request of a new upload starts at offset 2.
theorem next_refuses_out_of_order_of_offset_past_start :
    let s := run [.write ⟨some "u", 4⟩ ⟨2, false, [1]⟩ []]
    let guard : ActiveStreamGuard := ⟨⟨"u", 0⟩, 0⟩
    let writeRequest : WriteRequest := ⟨2, false, [1]⟩
    let write : Write := ⟨⟨⟨some "u", 4⟩, 0, [], some writeRequest, false⟩, some guard, none⟩
    s.writes[0]? = some write ∧ write.stream.pollNext.1 = some (.ok writeRequest) ∧
      ((s.upload guard.streamState.tx).tx.bytesWritten : Int) < writeRequest.writeOffset ∧
      (s.step (.next 0)).writes[0]?.bind Write.result = some (.error (writeTip (makeInputErr
        s!"Received out of order data. Got {writeRequest.writeOffset.toNat}, expected {(s.upload guard.streamState.tx).tx.bytesWritten}"))) ∧
      (s.step (.next 0)).uploads.map Upload.counts = s.uploads.map Upload.counts := by
  intro s guard writeRequest write
  have hw : s.writes[0]? = some write := rfl
  have hnext : write.stream.pollNext.1 = some (.ok writeRequest) := rfl
  have hb : ((s.upload guard.streamState.tx).tx.bytesWritten : Int) < writeRequest.writeOffset := by decide +kernel
  exact ⟨hw, hnext, hb, next_refuses_out_of_order hw rfl hnext hb⟩

/-! ## Slots and streams without a lost race

A write that takes an idle stream drops the drop guard of its timeout task, which aborts the task only
at an await: a task past its sleep waits for the lock the write holds, and removes the uuid after the
write took the stream. Runs without that race keep each slot and its stream together. -/

namespace State

-- A write that takes an idle stream whose timeout task is past its sleep.
def racy (s : State) : Event → Bool
  | .write resourceInfo _ _ =>
    match resourceInfo.uuid.bind s.activeUploads with
    | some ⟨_, some idleStream⟩ => s.timeouts[idleStream.timeoutStreamDropGuard]?.map TimeoutTask.phase == some .woken
    | _ => false
  | _ => false

-- The counter of every upload counts its channel; an idle stream is the one its slot was made with; a
-- write's guard has its slot, without an idle stream, and such a slot is a write's; a timeout task
-- still to run belongs to the idle stream of its uuid.
structure Consistent (s : State) : Prop where
  counted : ∀ (k : Nat) (u : Upload), s.uploads[k]? = some u → u.bytesReceived = u.tx.bytesWritten
  idle : ∀ (uuid : String) (slot : Slot) (idleStream : IdleStream), s.activeUploads uuid = some slot →
    slot.idleStream = some idleStream → idleStream.streamState = ⟨uuid, slot.bytesReceived⟩
  active : ∀ (i : Nat) (write : Write) (guard : ActiveStreamGuard), s.writes[i]? = some write →
    write.guard = some guard → guard.streamState.tx = guard.bytesReceived ∧
      s.activeUploads guard.streamState.uuid = some ⟨guard.bytesReceived, none⟩
  inUse : ∀ (uuid : String) (c : Nat), s.activeUploads uuid = some ⟨c, none⟩ →
    ∃ (i : Nat) (write : Write) (guard : ActiveStreamGuard), s.writes[i]? = some write ∧ write.guard = some guard ∧
      guard.streamState.uuid = uuid
  timeouts : ∀ (t : Nat) (task : TimeoutTask), s.timeouts[t]? = some task → task.phase ≠ .done →
    ∃ c st, s.activeUploads task.uuid = some ⟨c, some ⟨st, t⟩⟩

end State

-- A run in which no write races a timeout task.
def raceFree : State → List Event → Bool
  | _, [] => true
  | s, e :: events => !s.racy e && raceFree (s.step e) events

namespace State

variable {s : State} {i t : Nat} {guard : ActiveStreamGuard}

theorem init_consistent : init.Consistent where
  counted := fun _ _ h => by cases h
  idle := fun _ _ _ h => by cases h
  active := fun _ _ _ h => by cases h
  inUse := fun _ _ h => by cases h
  timeouts := fun _ _ h => by cases h

theorem Consistent.dropStream (hc : s.Consistent) (st : StreamState) : (s.dropStream st).Consistent where
  counted := by
    intro k u hu
    simp only [State.dropStream, List.getElem?_modify] at hu
    cases hk : s.uploads[k]?
    case none => rw [hk] at hu; cases hu
    case some u₀ =>
      rw [hk, Option.map_eq_map, Option.map_some, Option.some.injEq] at hu
      subst hu
      split <;> exact hc.counted k u₀ hk
  idle := hc.idle
  active := hc.active
  inUse := hc.inUse
  timeouts := hc.timeouts

theorem Consistent.modifyTimeouts (hc : s.Consistent) (t : Nat) (f : TimeoutTask → TimeoutTask)
    (hf : ∀ task, s.timeouts[t]? = some task → (f task).phase ≠ .done → task.phase ≠ .done ∧ (f task).uuid = task.uuid) :
    { s with timeouts := s.timeouts.modify t f }.Consistent where
  counted := hc.counted
  idle := hc.idle
  active := hc.active
  inUse := hc.inUse
  timeouts := by
    intro t' task ht hdone
    simp only [List.getElem?_modify] at ht
    cases ht' : s.timeouts[t']?
    case none => rw [ht'] at ht; cases ht
    case some task₀ =>
      rw [ht', Option.map_eq_map, Option.map_some, Option.some.injEq] at ht
      subst ht
      split at hdone
      case isTrue htt =>
        subst htt
        obtain ⟨hdone₀, huuid⟩ := hf task₀ ht' hdone
        rw [if_pos rfl, huuid]
        exact hc.timeouts _ task₀ ht' hdone₀
      case isFalse => rw [if_neg ‹_›]; exact hc.timeouts t' task₀ ht' hdone

theorem Consistent.abort (hc : s.Consistent) (t : Nat) : (s.abort t).Consistent :=
  hc.modifyTimeouts t _ fun task _ h => by
    by_cases hp : task.phase = .sleeping
    case pos => simp [hp] at h
    case neg =>
      rw [if_neg hp] at h ⊢
      exact ⟨h, rfl⟩

theorem Consistent.setPipe (hc : s.Consistent) (hg : guard.streamState.tx = guard.bytesReceived)
    {supplied : Option (Nat × Bytes)} {pipe : Pipe}
    (hcount : (s.pipeOf guard).outerBytesReceived = (s.pipeOf guard).tx.bytesWritten →
      pipe.outerBytesReceived = pipe.tx.bytesWritten) :
    (s.setPipe guard supplied pipe).Consistent where
  counted := by
    intro j u hu
    simp only [State.setPipe, List.getElem?_modify, Option.map_eq_map] at hu
    cases hj : s.uploads[j]?
    case none => rw [hj] at hu; cases hu
    case some u₀ =>
      have hu₀ : s.upload j = u₀ := by rw [State.upload, List.getD_eq_getElem?_getD, hj, Option.getD_some]
      rw [hj, Option.map_some, Option.map_some, Option.some.injEq] at hu
      subst hu
      by_cases hk : guard.streamState.tx = j
      case pos =>
        have hcj : guard.bytesReceived = j := hg ▸ hk
        simp only [hk, hcj, if_true]
        apply hcount
        simp only [State.pipeOf, ← hg, hk, hu₀]
        exact hc.counted j u₀ hj
      case neg =>
        have hcj : guard.bytesReceived ≠ j := hg ▸ hk
        simp only [hk, hcj, if_false]
        exact hc.counted j u₀ hj
  idle := hc.idle
  active := hc.active
  inUse := hc.inUse
  timeouts := hc.timeouts

theorem Consistent.unique (hc : s.Consistent) (hs : s.Owned) {j : Nat} {write write' : Write}
    {guard' : ActiveStreamGuard} (hw : s.writes[i]? = some write) (hg : write.guard = some guard)
    (hw' : s.writes[j]? = some write') (hg' : write'.guard = some guard')
    (hu : guard'.streamState.uuid = guard.streamState.uuid) : j = i := by
  obtain ⟨ht, hslot⟩ := hc.active i write guard hw hg
  obtain ⟨ht', hslot'⟩ := hc.active j write' guard' hw' hg'
  rw [hu, hslot, Option.some.injEq, Slot.mk.injEq] at hslot'
  have htx : guard'.streamState.tx = guard.streamState.tx := by rw [ht, ht', hslot'.1]
  have hh := hs (.write j) (.write i) _ _ (by simp [holding, hw', hg']) (by simp [holding, hw, hg]) htx
  cases hh
  rfl

theorem Consistent.setWrite_guard (hc : s.Consistent) {write : Write} (hw : s.writes[i]? = some write)
    (write' : Write) (hg : write'.guard = write.guard) : (s.setWrite i write').Consistent where
  counted := hc.counted
  idle := hc.idle
  active := by
    intro j w g hj hgj
    simp only [State.setWrite, List.getElem?_set] at hj
    split at hj
    case isTrue hij =>
      subst hij
      rw [if_pos (List.getElem?_eq_some_iff.mp hw).1, Option.some.injEq] at hj
      subst hj
      exact hc.active i write g hw (hg ▸ hgj)
    case isFalse => exact hc.active j w g hj hgj
  inUse := by
    intro uuid c hslot
    obtain ⟨j, w, g, hj, hgj, hu⟩ := hc.inUse uuid c hslot
    by_cases hij : i = j
    case pos =>
      subst hij
      rw [hw, Option.some.injEq] at hj
      subst hj
      refine ⟨i, write', g, ?_, hg.trans hgj, hu⟩
      simp [State.setWrite, List.getElem?_set_self (List.getElem?_eq_some_iff.mp hw).1]
    case neg =>
      exact ⟨j, w, g, by simp only [State.setWrite, List.getElem?_set_ne hij]; exact hj, hgj, hu⟩
  timeouts := hc.timeouts

-- Write `i` lets its guard go and the slot of the guard's uuid becomes `slot`: no write's slot, and
-- idle only with a stream of its own; the timeouts still to run are those of `s`, or the new idle
-- stream's.
theorem Consistent.releaseSlot (hc : s.Consistent) (hs : s.Owned) {write : Write} (hw : s.writes[i]? = some write)
    (hg : write.guard = some guard) (write' : Write) (hg' : write'.guard = none) (slot : Option Slot)
    (hslot : ∀ c, slot ≠ some ⟨c, none⟩)
    (hidle : ∀ slot' idleStream, slot = some slot' → slot'.idleStream = some idleStream →
      idleStream.streamState = ⟨guard.streamState.uuid, slot'.bytesReceived⟩)
    (timeouts : List TimeoutTask)
    (htimeouts : ∀ t task, timeouts[t]? = some task → task.phase ≠ .done →
      s.timeouts[t]? = some task ∨ ∃ c st, slot = some ⟨c, some ⟨st, t⟩⟩ ∧ task.uuid = guard.streamState.uuid) :
    { (s.setWrite i write').setSlot guard.streamState.uuid slot with timeouts := timeouts }.Consistent := by
  obtain ⟨-, hslotg⟩ := hc.active i write guard hw hg
  have hother : ∀ (j : Nat) (w : Write) (g' : ActiveStreamGuard), (s.setWrite i write').writes[j]? = some w →
      w.guard = some g' →
      s.writes[j]? = some w ∧ g'.streamState.uuid ≠ guard.streamState.uuid := by
    intro j w g' hj hgj
    simp only [State.setWrite, List.getElem?_set] at hj
    split at hj
    case isTrue hij =>
      subst hij
      rw [if_pos (List.getElem?_eq_some_iff.mp hw).1, Option.some.injEq] at hj
      subst hj
      rw [hg'] at hgj
      cases hgj
    case isFalse hij => exact ⟨hj, fun hu => hij (hc.unique hs hw hg hj hgj hu).symm⟩
  constructor
  case counted => exact hc.counted
  case idle =>
    intro uuid slot' idleStream h hi
    simp only [State.setSlot, State.setWrite, Function.update_apply] at h
    split at h
    case isTrue hu => subst hu; exact hidle slot' idleStream h hi
    case isFalse => exact hc.idle uuid slot' idleStream h hi
  case active =>
    intro j w g' hj hgj
    obtain ⟨hj', hne⟩ := hother j w g' hj hgj
    obtain ⟨ht', hslot'⟩ := hc.active j w g' hj' hgj
    refine ⟨ht', ?_⟩
    simp only [State.setSlot, State.setWrite, Function.update_apply, if_neg hne]
    exact hslot'
  case inUse =>
    intro uuid c h
    simp only [State.setSlot, State.setWrite, Function.update_apply] at h
    split at h
    case isTrue => exact absurd h (hslot c)
    case isFalse hu =>
      obtain ⟨j, w, g', hj, hgj, hgu⟩ := hc.inUse uuid c h
      have hji : i ≠ j := by
        rintro rfl
        rw [hw, Option.some.injEq] at hj
        subst hj
        rw [hg, Option.some.injEq] at hgj
        subst hgj
        exact hu hgu.symm
      exact ⟨j, w, g', by simp only [State.setSlot, State.setWrite, List.getElem?_set_ne hji]; exact hj, hgj, hgu⟩
  case timeouts =>
    intro t task ht hdone
    rcases htimeouts t task ht hdone with hold | ⟨c, st, hslot', hu⟩
    case inl =>
      obtain ⟨c, st, h⟩ := hc.timeouts t task hold hdone
      have hne : task.uuid ≠ guard.streamState.uuid := by
        intro hu
        rw [hu, hslotg] at h
        cases h
      exact ⟨c, st, by simp only [State.setSlot, State.setWrite, Function.update_apply, if_neg hne]; exact h⟩
    case inr => exact ⟨c, st, by simp only [State.setSlot, State.setWrite, Function.update_apply, if_pos hu]; exact hslot'⟩

theorem Consistent.releaseDrop (hc : s.Consistent) (hs : s.Owned) {write : Write} (hw : s.writes[i]? = some write)
    (hg : write.guard = some guard) (write' : Write) (hg' : write'.guard = none) :
    ((s.setWrite i write').dropGuard guard).Consistent := by
  obtain ⟨ht, hslotg⟩ := hc.active i write guard hw hg
  have hslot₁ : (s.setWrite i write').activeUploads guard.streamState.uuid = some ⟨guard.bytesReceived, none⟩ := hslotg
  simp only [State.dropGuard, hslot₁]
  refine hc.releaseSlot hs hw hg write' hg' _ (fun _ h => by cases h) ?_ _ ?_
  case refine_1 =>
    intro slot' idleStream h hi
    cases h
    cases hi
    rw [← ht]
  case refine_2 =>
    intro t task h hdone
    simp only [State.setWrite] at h
    by_cases hlt : t < s.timeouts.length
    case pos => rw [List.getElem?_append_left hlt] at h; exact .inl h
    case neg =>
      rw [List.getElem?_append_right (Nat.le_of_not_lt hlt), List.getElem?_singleton] at h
      split at h
      case isTrue heq =>
        cases h
        have ht' : (s.setWrite i write').timeouts.length = t := by simp only [State.setWrite]; omega
        exact .inr ⟨_, _, by rw [ht'], rfl⟩
      case isFalse => cases h

theorem Consistent.releaseFinish (hc : s.Consistent) (hs : s.Owned) {write : Write} (hw : s.writes[i]? = some write)
    (hg : write.guard = some guard) (write' : Write) (hg' : write'.guard = none) :
    ((s.setWrite i write').gracefulFinish guard).Consistent := by
  obtain ⟨-, hslotg⟩ := hc.active i write guard hw hg
  have hslot₁ : (s.setWrite i write').activeUploads guard.streamState.uuid = some ⟨guard.bytesReceived, none⟩ := hslotg
  simp only [State.gracefulFinish, State.removeUpload, hslot₁]
  exact (hc.releaseSlot hs hw hg write' hg' none (fun _ h => by cases h) (fun _ _ h => by cases h) s.timeouts
    fun _ _ h _ => .inl h).dropStream _

theorem Consistent.pushWrite_none (hc : s.Consistent) (write : Write) (hg : write.guard = none) :
    (s.pushWrite write).Consistent where
  counted := hc.counted
  idle := hc.idle
  active := by
    intro j w g hj hgj
    simp only [State.pushWrite, List.getElem?_append] at hj
    split at hj
    case isTrue => exact hc.active j w g hj hgj
    case isFalse =>
      rw [List.getElem?_singleton] at hj
      split at hj
      case isTrue => cases hj; rw [hg] at hgj; cases hgj
      case isFalse => cases hj
  inUse := by
    intro uuid c h
    obtain ⟨j, w, g, hj, hgj, hu⟩ := hc.inUse uuid c h
    exact ⟨j, w, g, by rw [State.pushWrite, List.getElem?_append_left (List.getElem?_eq_some_iff.mp hj).1]; exact hj, hgj, hu⟩
  timeouts := hc.timeouts

theorem Consistent.acquire (hc : s.Consistent) (uuid : String) (c : Nat)
    (hfree : ∀ (j : Nat) (write : Write) (guard : ActiveStreamGuard), s.writes[j]? = some write →
      write.guard = some guard → guard.streamState.uuid ≠ uuid)
    (uploads : List Upload) (hcounted : ∀ (k : Nat) (u : Upload), uploads[k]? = some u → u.bytesReceived = u.tx.bytesWritten)
    (timeouts : List TimeoutTask)
    (hlive : ∀ (t : Nat) (task : TimeoutTask), timeouts[t]? = some task → task.phase ≠ .done →
      s.timeouts[t]? = some task ∧ task.uuid ≠ uuid)
    (stream : WriteRequestStreamWrapper) :
    ({ s.setSlot uuid (some ⟨c, none⟩) with uploads := uploads, timeouts := timeouts }.pushWrite
      ⟨stream, some ⟨⟨uuid, c⟩, c⟩, none⟩).Consistent where
  counted := hcounted
  idle := by
    intro uuid' slot idleStream h hi
    simp only [State.setSlot, State.pushWrite, Function.update_apply] at h
    split at h
    case isTrue => cases h; cases hi
    case isFalse => exact hc.idle uuid' slot idleStream h hi
  active := by
    intro j w g hj hgj
    simp only [State.pushWrite, State.setSlot, List.getElem?_append] at hj
    split at hj
    case isTrue =>
      obtain ⟨ht, hslot⟩ := hc.active j w g hj hgj
      refine ⟨ht, ?_⟩
      simp only [State.pushWrite, State.setSlot, Function.update_apply, if_neg (hfree j w g hj hgj)]
      exact hslot
    case isFalse =>
      rw [List.getElem?_singleton] at hj
      split at hj
      case isTrue =>
        cases hj
        cases hgj
        exact ⟨rfl, by simp [State.pushWrite, State.setSlot]⟩
      case isFalse => cases hj
  inUse := by
    intro uuid' c' h
    simp only [State.setSlot, State.pushWrite, Function.update_apply] at h
    split at h
    case isTrue hu =>
      refine ⟨s.writes.length, ⟨stream, some ⟨⟨uuid, c⟩, c⟩, none⟩, ⟨⟨uuid, c⟩, c⟩, ?_, rfl, hu.symm⟩
      simp [State.pushWrite, State.setSlot]
    case isFalse =>
      obtain ⟨j, w, g, hj, hgj, hu⟩ := hc.inUse uuid' c' h
      refine ⟨j, w, g, ?_, hgj, hu⟩
      simp only [State.pushWrite, State.setSlot]
      rw [List.getElem?_append_left (List.getElem?_eq_some_iff.mp hj).1]
      exact hj
  timeouts := by
    intro t task ht hdone
    obtain ⟨ht', hne⟩ := hlive t task ht hdone
    obtain ⟨c', st, h⟩ := hc.timeouts t task ht' hdone
    exact ⟨c', st, by simp only [State.pushWrite, State.setSlot, Function.update_apply, if_neg hne]; exact h⟩

theorem Consistent.write (hc : s.Consistent) (resourceInfo : ResourceInfo) (firstMsg : WriteRequest)
    (stream : List (Except Error WriteRequest)) (hr : s.racy (.write resourceInfo firstMsg stream) = false) :
    (s.write resourceInfo firstMsg stream).Consistent := by
  unfold State.write
  split
  case h_1 => exact hc.pushWrite_none _ rfl
  case h_2 uuid huuid =>
    split
    case h_1 => exact hc.pushWrite_none _ rfl
    case h_2 guard s' hjoin =>
      unfold createOrJoinUploadStream at hjoin
      split at hjoin
      case h_1 slot hslot =>
        split at hjoin
        case h_1 => cases hjoin
        case h_2 idleStream hidle =>
          cases hjoin
          have hst := hc.idle uuid slot idleStream hslot hidle
          have hwoken : s.timeouts[idleStream.timeoutStreamDropGuard]?.map TimeoutTask.phase ≠ some .woken := by
            have hslot' : s.activeUploads uuid = some ⟨slot.bytesReceived, some idleStream⟩ := by rw [hslot, ← hidle]
            simpa [racy, huuid, hslot'] using hr
          rw [hst]
          refine hc.acquire uuid slot.bytesReceived ?_ s.uploads hc.counted _ ?_ _
          case refine_1 =>
            intro j w g hj hgj hu
            have hslot' := (hc.active j w g hj hgj).2
            rw [hu, hslot, Option.some.injEq] at hslot'
            rw [hslot'] at hidle
            cases hidle
          case refine_2 =>
            intro t task ht hdone
            simp only [State.setSlot, List.getElem?_modify] at ht
            cases ht₀ : s.timeouts[t]?
            case none => rw [ht₀] at ht; cases ht
            case some task₀ =>
              rw [ht₀, Option.map_eq_map, Option.map_some, Option.some.injEq] at ht
              by_cases htt : idleStream.timeoutStreamDropGuard = t
              case pos =>
                subst htt
                rw [if_pos rfl] at ht
                subst ht
                rw [ht₀, Option.map_some, ne_eq, Option.some.injEq] at hwoken
                cases hp : task₀.phase <;> simp_all
              case neg =>
                rw [if_neg htt] at ht
                subst ht
                refine ⟨rfl, fun hu => htt ?_⟩
                obtain ⟨c, st, h⟩ := hc.timeouts t task₀ ht₀ hdone
                rw [hu, hslot, Option.some.injEq] at h
                cases h
                cases hidle
                rfl
      case h_2 hslot =>
        cases hjoin
        refine hc.acquire uuid s.uploads.length ?_ _ ?_ s.timeouts ?_ _
        case refine_1 =>
          intro j w g hj hgj hu
          have hslot' := (hc.active j w g hj hgj).2
          rw [hu, hslot] at hslot'
          cases hslot'
        case refine_2 =>
          intro k u hu
          by_cases hk : k < s.uploads.length
          case pos => rw [List.getElem?_append_left hk] at hu; exact hc.counted k u hu
          case neg =>
            rw [List.getElem?_append_right (Nat.le_of_not_lt hk), List.getElem?_singleton] at hu
            split at hu
            case isTrue => cases hu; rfl
            case isFalse => cases hu
        case refine_3 =>
          intro t task ht hdone
          refine ⟨ht, fun hu => ?_⟩
          obtain ⟨c, st, h⟩ := hc.timeouts t task ht hdone
          rw [hu, hslot] at h
          cases h

theorem Consistent.setTimeout (hc : s.Consistent) (t : Nat) (phase : TimeoutPhase)
    (h : phase ≠ .done → ∀ task, s.timeouts[t]? = some task → task.phase ≠ .done) : (s.setTimeout t phase).Consistent :=
  hc.modifyTimeouts t _ fun task ht hp => ⟨h hp task ht, rfl⟩


theorem Consistent.removeSlot (hc : s.Consistent) (uuid : String) (hnone : ∀ c, s.activeUploads uuid ≠ some ⟨c, none⟩)
    (hlive : ∀ (t : Nat) (task : TimeoutTask), s.timeouts[t]? = some task → task.phase ≠ .done → task.uuid ≠ uuid) :
    (s.setSlot uuid none).Consistent where
  counted := hc.counted
  idle := by
    intro uuid' slot idleStream h hi
    simp only [State.setSlot, Function.update_apply] at h
    split at h
    case isTrue => cases h
    case isFalse => exact hc.idle uuid' slot idleStream h hi
  active := by
    intro j w g hj hgj
    obtain ⟨ht, hslot⟩ := hc.active j w g hj hgj
    have hne : g.streamState.uuid ≠ uuid := fun hu => hnone _ (hu ▸ hslot)
    exact ⟨ht, by simp only [State.setSlot, Function.update_apply, if_neg hne]; exact hslot⟩
  inUse := by
    intro uuid' c h
    simp only [State.setSlot, Function.update_apply] at h
    split at h
    case isTrue => cases h
    case isFalse => exact hc.inUse uuid' c h
  timeouts := by
    intro t task ht hdone
    obtain ⟨c, st, h⟩ := hc.timeouts t task ht hdone
    exact ⟨c, st, by simp only [State.setSlot, Function.update_apply, if_neg (hlive t task ht hdone)]; exact h⟩

theorem Consistent.timeoutRemoves (hc : s.Consistent) {uuid : String} (ht : s.timeouts[t]? = some ⟨uuid, .woken⟩) :
    ((s.setTimeout t .done).removeUpload uuid).Consistent := by
  obtain ⟨c, st, hslot⟩ := hc.timeouts t ⟨uuid, .woken⟩ ht fun h => by cases h
  have hc₁ := hc.setTimeout t .done fun h => absurd rfl h
  have hslot₁ : (s.setTimeout t .done).activeUploads uuid = some ⟨c, some ⟨st, t⟩⟩ := hslot
  simp only [State.removeUpload, hslot₁]
  refine ((hc₁.removeSlot uuid (fun _ h => by rw [hslot₁] at h; cases h) ?_).dropStream _).abort _
  intro t' task ht' hdone hu
  obtain ⟨c', st', h⟩ := hc₁.timeouts t' task ht' hdone
  rw [hu, hslot₁, Option.some.injEq] at h
  cases h
  simp [State.setTimeout, ht] at ht'
  rw [← ht'] at hdone
  exact hdone rfl

theorem Consistent.next (hc : s.Consistent) (hs : s.Wf) {write : Write} (hw : s.writes[i]? = some write)
    (hg : write.guard = some guard) : (s.next i write guard).Consistent := by
  obtain ⟨ht, -⟩ := hc.active i write guard hw hg
  have hheld : s.holding (.write i) = some guard.streamState := by simp [holding, hw, hg]
  dsimp only [State.next]
  split
  case h_1 => exact hc.releaseDrop hs.owned hw hg _ rfl
  case h_2 => exact hc.releaseDrop hs.owned hw hg _ rfl
  case h_3 writeRequest _ =>
    have hround := processWriteRequest_round (p := s.pipeOf guard) write.stream.pollNext.2.resourceInfo.expectedSize writeRequest (hs.holds_upload _)
      (hs.opened _ _ hheld).upload
    split
    case h_1 pipe hrun =>
      rw [hrun] at hround
      exact (hc.setPipe ht hround.counted).releaseFinish hs.owned hw hg _ rfl
    case h_2 pipe hrun =>
      rw [hrun] at hround
      exact (hc.setPipe ht hround.counted).setWrite_guard hw _ rfl
    case h_3 err pipe hrun =>
      rw [hrun] at hround
      exact (hc.setPipe ht hround.counted).releaseDrop hs.owned hw hg _ rfl
    case h_4 => exact hc

theorem Consistent.step (hc : s.Consistent) (hs : s.Wf) : ∀ e, s.racy e = false → (s.step e).Consistent
  | .write resourceInfo firstMsg stream, hr => hc.write resourceInfo firstMsg stream hr
  | .next i, _ => by
    simp only [State.step]
    split
    case h_1 _ _ guard _ hw => exact hc.next hs hw rfl
    case h_2 => exact hc
  | .cancel i, _ => by
    simp only [State.step]
    split
    case h_1 _ stream guard result hw => exact hc.releaseDrop hs.owned hw rfl ⟨stream, none, result⟩ rfl
    case h_2 => exact hc
  | .timeoutWakes t, _ => by
    simp only [State.step]
    split
    case h_1 uuid ht => exact hc.setTimeout t .woken fun _ task ht' => by rw [ht] at ht'; cases ht'; exact fun h => by cases h
    case h_2 => exact hc
  | .timeoutRemoves t, _ => by
    simp only [State.step]
    split
    case h_1 uuid ht => exact hc.timeoutRemoves ht
    case h_2 => exact hc

end State

theorem consistent_of_raceFree :
    ∀ (events : List Event) (s : State), s.Wf → s.Consistent → raceFree s events = true →
      (events.foldl State.step s).Consistent
  | [], _, _, hc, _ => hc
  | e :: events, s, hs, hc, hr => by
    simp only [raceFree, Bool.and_eq_true, Bool.not_eq_true'] at hr
    exact consistent_of_raceFree events _ (hs.step e) (hc.step hs e hr.1) hr.2

/-! ## `QueryWriteStatus` -/

structure QueryWriteStatusResponse where
  committedSize : Nat
  complete : Bool
  deriving DecidableEq, Repr

-- `inner_query_write_status` for an upload's uuid; `has` is what the store's `has` returns for the
-- digest.
def innerQueryWriteStatus (s : State) (uuid : Option String) (has : Except Error (Option Nat)) :
    Except Error QueryWriteStatusResponse :=
  match uuid with
  | none => .error (makeInputErr "UUID must be set if querying write status")
  | some uuid =>
    match s.activeUploads uuid with
    | some slot => .ok ⟨(s.upload slot.bytesReceived).bytesReceived, false⟩
    | none =>
      match has with
      | .error err => .error (err.append "Failed to call .has() on store")
      | .ok none => .ok ⟨0, false⟩
      | .ok (some itemSize) => .ok ⟨itemSize, true⟩

-- Without a lost race, `QueryWriteStatus` of an upload in progress reports what the channel of its
-- stream, idle or with a write, has received.
theorem query_write_status_reports_received (events : List Event) (hrace : raceFree State.init events = true)
    {uuid : String} {slot : Slot} (hslot : (run events).activeUploads uuid = some slot)
    (has : Except Error (Option Nat)) :
    ∃ holder st, (run events).holding holder = some st ∧ st.uuid = uuid ∧
      innerQueryWriteStatus (run events) (some uuid) has = .ok ⟨((run events).upload st.tx).tx.bytesWritten, false⟩ := by
  have hs := run_wf events
  have hc : (run events).Consistent :=
    consistent_of_raceFree events State.init State.init_wf State.init_consistent hrace
  have hquery : innerQueryWriteStatus (run events) (some uuid) has = .ok ⟨((run events).upload slot.bytesReceived).bytesReceived, false⟩ := by
    simp [innerQueryWriteStatus, hslot]
  -- the counter of the slot is the channel's, which counts what it received
  have hcounted : ∀ h st, (run events).holding h = some st → st.tx = slot.bytesReceived →
      ((run events).upload slot.bytesReceived).bytesReceived = ((run events).upload st.tx).tx.bytesWritten := by
    intro h st hh htx
    obtain ⟨u, hu, -⟩ := hs.opened h st hh
    rw [htx] at hu ⊢
    rw [State.upload, List.getD_eq_getElem?_getD, hu, Option.getD_some]
    exact hc.counted _ u hu
  cases hidle : slot.idleStream
  case some idleStream =>
    have hst := hc.idle uuid slot idleStream hslot hidle
    have hh : (run events).holding (.idle uuid) = some idleStream.streamState := by simp [State.holding, hslot, hidle]
    refine ⟨.idle uuid, idleStream.streamState, hh, by rw [hst], ?_⟩
    rw [hquery, hcounted _ _ hh (by rw [hst])]
  case none =>
    have hslot' : (run events).activeUploads uuid = some ⟨slot.bytesReceived, none⟩ := by rw [hslot, ← hidle]
    obtain ⟨j, w, g, hj, hgj, hu⟩ := hc.inUse uuid slot.bytesReceived hslot'
    obtain ⟨ht, hslotg⟩ := hc.active j w g hj hgj
    rw [hu, hslot', Option.some.injEq, Slot.mk.injEq] at hslotg
    have hh : (run events).holding (.write j) = some g.streamState := by simp [State.holding, hj, hgj]
    refine ⟨.write j, g.streamState, hh, hu, ?_⟩
    rw [hquery, hcounted _ _ hh (by rw [ht, hslotg.1])]

-- A write that breaks off leaves its stream idle, with the byte it sent.
theorem query_write_status_reports_received_of_idle_stream :
    let events : List Event := [.write ⟨some "u", 4⟩ ⟨0, false, [1]⟩ [.error (Error.new .unavailable "")], .next 0, .next 0]
    raceFree State.init events = true ∧ (run events).activeUploads "u" = some ⟨0, some ⟨⟨"u", 0⟩, 0⟩⟩ ∧
      ∃ holder st, (run events).holding holder = some st ∧ st.uuid = "u" ∧
        innerQueryWriteStatus (run events) (some "u") (.ok none) = .ok ⟨((run events).upload st.tx).tx.bytesWritten, false⟩ := by
  intro events
  have hrace : raceFree State.init events = true := by decide +kernel
  have hslot : (run events).activeUploads "u" = some ⟨0, some ⟨⟨"u", 0⟩, 0⟩⟩ := by decide +kernel
  exact ⟨hrace, hslot, query_write_status_reports_received events hrace hslot _⟩

-- A write takes an idle stream while its timeout task is past its sleep: the task then removes the
-- uuid, and `QueryWriteStatus` of the upload in progress, whose channel has received a byte, answers
-- from the store as if nothing had been sent.
theorem query_write_status_misses_raced_upload :
    let s : State := run [.write ⟨some "u", 4⟩ ⟨0, false, [1]⟩ [.error (Error.new .unavailable "")], .next 0, .next 0,
      .timeoutWakes 0, .write ⟨some "u", 4⟩ ⟨1, false, [2]⟩ [], .timeoutRemoves 0]
    (s.upload 0).tx.bytesWritten = 1 ∧ s.holding (.write 1) = some ⟨"u", 0⟩ ∧
      innerQueryWriteStatus s (some "u") (.ok none) = .ok ⟨0, false⟩ := by
  intro s
  refine ⟨?_, ?_, ?_⟩ <;> decide +kernel

end NativeLink.ByteStreamServer
