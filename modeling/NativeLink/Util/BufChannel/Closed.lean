import NativeLink.Util.BufChannel.Delivery

-- Reading a channel whose writer is done: it sent its chunks and then called `send_eof`, or was
-- dropped, which closes the channel without setting `eof_sent`. `Reads s rest eof` says what the
-- reader gets from `s` on: the chunks of `rest`, then the EOF on every call when the writer sent
-- it, and otherwise the error of a dropped sender, which the reader keeps in `last_err` and returns
-- on every later call. A writer still sending only makes a read wait for the next chunk, so what a
-- reader gets is what it gets from the channel the writer leaves.

namespace NativeLink.BufChannel

open EStateM

-- The channel after its writer sent `chunks`, before the reader took any of them.
def sent (chunks : List Bytes) : Channel :=
  { makeBufChannelPair with rx := chunks, bytesWritten := (chunks.map List.length).sum }

-- The same once the writer called `send_eof` (`eof`) or was dropped.
def written (chunks : List Bytes) (eof : Bool) : Channel :=
  { sent chunks with txOpen := false, eofSent := eof }

-- Dropping `DropCloserWriteHalf` drops its sender and leaves `eof_sent` as it is.
def dropWriteHalf (s : Channel) : Channel :=
  { s with txOpen := false }

inductive Reads (s : Channel) : List Bytes → Bool → Prop
  -- chunks still in the queue or the channel
  | pending {rest : List Bytes} {eof : Bool} (noErr : s.lastErr = none) (txOpen : s.txOpen = false)
      (eofSent : s.eofSent = eof) (data : s.queuedData ++ s.rx = rest) (nonEmpty : [] ∉ rest) :
      Reads s rest eof
  -- the EOF that `peek` pushed back
  | eofQueued (noErr : s.lastErr = none) (txOpen : s.txOpen = false) (eofSent : s.eofSent = true)
      (queued : s.queuedData = [[]]) (rx : s.rx = []) : Reads s [] true
  -- the error of a dropped sender, stored
  | failed {e : Error} (lastErr : s.lastErr = some e) (queued : s.queuedData = []) : Reads s [] false

variable {s s' : Channel} {chunk : Bytes} {chunks rest : List Bytes} {eof : Bool}

/-! ## The writer's side -/

theorem send_run_open (ht : s.txOpen = true) (hc : chunk ≠ []) :
    (send chunk).run s = .ok () { s with rx := s.rx ++ [chunk], bytesWritten := s.bytesWritten + chunk.length } := by
  have hlen : chunk.length = 0 ↔ False := ⟨fun h => hc (List.eq_nil_of_length_eq_zero h), False.elim⟩
  simp only [send, run_bind, run_get, ht, Bool.not_true, Bool.false_eq_true, if_false, hlen]
  rfl

theorem sendEof_run_eofSent :
    ∃ s', sendEof.run s = .ok () s' ∧ s'.eofSent = true ∧ s'.rx = s.rx ∧ s'.bytesWritten = s.bytesWritten := by
  cases he : s.eofSent
  case false =>
    refine ⟨{ s with eofSent := true, txOpen := false }, ?_, rfl, rfl, rfl⟩
    simp only [sendEof, run_bind, run_get, he, Bool.false_eq_true, if_false]
    rfl
  case true =>
    refine ⟨s, ?_, he, rfl, rfl⟩
    simp only [sendEof, run_bind, run_get, he, if_true]
    rfl

theorem send_run_sent (hc : chunk ≠ []) : (send chunk).run (sent chunks) = .ok () (sent (chunks ++ [chunk])) := by
  rw [send_run_open rfl hc]
  simp [sent]

theorem sendEof_run_sent : sendEof.run (sent chunks) = .ok () (written chunks true) :=
  rfl

theorem forM_send_run_sent (h : [] ∉ chunks) :
    ∀ done, (chunks.forM send).run (sent done) = .ok () (sent (done ++ chunks)) := by
  induction chunks with
  | nil => intro done; rw [List.append_nil]; rfl
  | cons chunk chunks ih =>
    intro done
    have hc : chunk ≠ [] := fun hc => h (hc ▸ List.mem_cons_self)
    rw [List.forM_eq_forM, List.forM_cons, ← List.forM_eq_forM, run_bind_of_ok (send_run_sent hc),
      ih (fun hm => h (List.mem_cons_of_mem _ hm))]
    simp

theorem dropWriteHalf_sent : dropWriteHalf (sent chunks) = written chunks false :=
  rfl

theorem reads_written (h : [] ∉ chunks) : Reads (written chunks eof) chunks eof :=
  .pending rfl rfl rfl rfl h

/-! ## The calls of the reader -/

theorem errTip_run_ok {α : Type} {x : M α} {a : α} (msg : String) (h : x.run s = .ok a s') :
    (errTip msg x).run s = .ok a s' := by
  rw [errTip, run_adaptExcept, h]

theorem errTip_run_error {α : Type} {x : M α} {e : Error} (msg : String) (h : x.run s = .error (.error e) s') :
    (errTip msg x).run s = .error (.error (e.append msg)) s' := by
  rw [errTip, run_adaptExcept, h]

theorem tryRecv_run_err {e : Error} (he : s.lastErr = some e) : tryRecv.run s = .ok (some (.error e)) s := by
  simp only [tryRecv, run_bind, run_get, he]
  rfl

theorem recv_run_queued (he : s.lastErr = none) (hq : s.queuedData = chunk :: chunks) :
    recv.run s = .ok chunk { s with queuedData := chunks } := by
  rw [recv, run_bind_of_ok (tryRecv_run_cons he hq)]
  rfl

theorem recv_run_channel (he : s.lastErr = none) (hq : s.queuedData = []) (hr : s.rx = chunk :: chunks)
    (hc : chunk ≠ []) :
    ∃ r, recv.run s =
      .ok chunk { s with rx := chunks, bytesReceived := s.bytesReceived + chunk.length, recentData := r } := by
  obtain ⟨r, hrun⟩ := recvInner_run_chunk (s := { s with rx := chunks }) hc
  refine ⟨r, ?_⟩
  rw [recv, run_bind_of_ok (tryRecv_run_nil he hq)]
  dsimp only
  rw [run_bind_of_ok (rxRecv_run_cons hr), Option.getD_some, hrun]

theorem recv_run_eof (he : s.lastErr = none) (hq : s.queuedData = []) (hr : s.rx = []) (ht : s.txOpen = false)
    (heof : s.eofSent = true) : ∃ r, recv.run s = .ok [] { s with recentData := r } := by
  obtain ⟨r, hrun⟩ := recvInner_run_eof heof
  refine ⟨r, ?_⟩
  rw [recv, run_bind_of_ok (tryRecv_run_nil he hq)]
  dsimp only
  rw [run_bind_of_ok (rxRecv_run_closed hr ht), Option.getD_none, hrun]

theorem recv_run_dropped (he : s.lastErr = none) (hq : s.queuedData = []) (hr : s.rx = []) (ht : s.txOpen = false)
    (heof : s.eofSent = false) :
    recv.run s = .error (.error (Error.new .internal "Sender dropped before sending EOF"))
      { s with queuedData := [], recentData := [], bytesReceived := 0,
               lastErr := some (Error.new .internal "Sender dropped before sending EOF") } := by
  rw [recv, run_bind_of_ok (tryRecv_run_nil he hq)]
  dsimp only
  rw [run_bind_of_ok (rxRecv_run_closed hr ht), Option.getD_none]
  simp only [recvInner, List.isEmpty_nil, if_true, run_bind, run_get, heof, Bool.not_false]
  rfl

theorem recv_run_err {e : Error} (he : s.lastErr = some e) : recv.run s = .error (.error e) s := by
  rw [recv, run_bind_of_ok (tryRecv_run_err he)]
  rfl

theorem peek_run_queued (hq : s.queuedData = chunk :: chunks) : peek.run s = .ok chunk s := by
  simp only [peek, run_bind, run_get, hq, List.isEmpty_cons, Bool.false_eq_true, if_false]
  exact front_run hq

theorem peek_run_of_recv (hq : s.queuedData = []) (h : recv.run s = .ok chunk s') :
    peek.run s = .ok chunk { s' with queuedData := chunk :: s'.queuedData } := by
  simp only [peek, run_bind, run_get, hq, List.isEmpty_nil, if_true]
  rw [errTip_run_ok _ h]
  exact front_run rfl

theorem peek_run_of_recv_error {e : Error} (hq : s.queuedData = []) (h : recv.run s = .error (.error e) s') :
    peek.run s = .error (.error (e.append "In buf_channel::peek")) s' := by
  simp only [peek, run_bind, run_get, hq, List.isEmpty_nil, if_true]
  rw [errTip_run_error _ h]

/-! ## What the reader gets -/

theorem Reads.ne_nil (h : Reads s rest eof) (hc : chunk ∈ rest) : chunk ≠ [] := by
  cases h with
  | pending _ _ _ _ nonEmpty => exact fun h => nonEmpty (h ▸ hc)
  | eofQueued => cases hc
  | failed => cases hc

theorem recv_reads_cons (h : Reads s (chunk :: rest) eof) : ∃ s', recv.run s = .ok chunk s' ∧ Reads s' rest eof := by
  cases h with
  | pending noErr txOpen eofSent data nonEmpty =>
    have hrest : [] ∉ rest := fun hm => nonEmpty (List.mem_cons_of_mem _ hm)
    cases hq : s.queuedData
    case cons q qs =>
      rw [hq, List.cons_append] at data
      obtain ⟨rfl, rfl⟩ := List.cons.inj data
      exact ⟨_, recv_run_queued noErr hq, .pending noErr txOpen eofSent rfl hrest⟩
    case nil =>
      rw [hq, List.nil_append] at data
      obtain ⟨r, hrun⟩ := recv_run_channel noErr hq data fun hc => nonEmpty (hc ▸ List.mem_cons_self)
      exact ⟨_, hrun, .pending noErr txOpen eofSent (by simp [hq]) hrest⟩

theorem recv_reads_eof (h : Reads s [] true) : ∃ s', recv.run s = .ok [] s' ∧ Reads s' [] true := by
  cases h with
  | pending noErr txOpen eofSent data _ =>
    obtain ⟨hq, hr⟩ := List.append_eq_nil_iff.mp data
    obtain ⟨r, hrun⟩ := recv_run_eof noErr hq hr txOpen eofSent
    exact ⟨_, hrun, .pending noErr txOpen eofSent (by simp [hq, hr]) List.not_mem_nil⟩
  | eofQueued noErr txOpen eofSent queued rx =>
    exact ⟨_, recv_run_queued noErr queued, .pending noErr txOpen eofSent (by simp [rx]) List.not_mem_nil⟩

theorem recv_reads_dropped (h : Reads s [] false) :
    ∃ e s', recv.run s = .error (.error e) s' ∧ Reads s' [] false := by
  cases h with
  | pending noErr txOpen eofSent data _ =>
    obtain ⟨hq, hr⟩ := List.append_eq_nil_iff.mp data
    exact ⟨_, _, recv_run_dropped noErr hq hr txOpen eofSent, .failed rfl rfl⟩
  | failed lastErr queued => exact ⟨_, s, recv_run_err lastErr, .failed lastErr queued⟩

theorem peek_reads_cons (h : Reads s (chunk :: rest) eof) :
    ∃ s', peek.run s = .ok chunk s' ∧ Reads s' (chunk :: rest) eof := by
  cases h with
  | pending noErr txOpen eofSent data nonEmpty =>
    cases hq : s.queuedData
    case cons q qs =>
      rw [hq, List.cons_append] at data
      obtain ⟨rfl, -⟩ := List.cons.inj data
      exact ⟨s, peek_run_queued hq, .pending noErr txOpen eofSent (by rw [hq, List.cons_append, data]) nonEmpty⟩
    case nil =>
      rw [hq, List.nil_append] at data
      obtain ⟨r, hrun⟩ := recv_run_channel noErr hq data fun hc => nonEmpty (hc ▸ List.mem_cons_self)
      exact ⟨_, peek_run_of_recv hq hrun, .pending noErr txOpen eofSent (by simp [hq]) nonEmpty⟩

theorem peek_reads_eof (h : Reads s [] true) : ∃ s', peek.run s = .ok [] s' ∧ Reads s' [] true := by
  cases h with
  | pending noErr txOpen eofSent data _ =>
    obtain ⟨hq, hr⟩ := List.append_eq_nil_iff.mp data
    obtain ⟨r, hrun⟩ := recv_run_eof noErr hq hr txOpen eofSent
    refine ⟨_, peek_run_of_recv hq hrun, .eofQueued noErr txOpen eofSent ?_ hr⟩
    simp [hq]
  | eofQueued noErr txOpen eofSent queued rx =>
    exact ⟨s, peek_run_queued queued, .eofQueued noErr txOpen eofSent queued rx⟩

theorem peek_reads_dropped (h : Reads s [] false) :
    ∃ e s', peek.run s = .error (.error e) s' ∧ Reads s' [] false := by
  cases h with
  | pending noErr txOpen eofSent data _ =>
    obtain ⟨hq, hr⟩ := List.append_eq_nil_iff.mp data
    exact ⟨_, _, peek_run_of_recv_error hq (recv_run_dropped noErr hq hr txOpen eofSent), .failed rfl rfl⟩
  | failed lastErr queued =>
    exact ⟨_, s, peek_run_of_recv_error queued (recv_run_err lastErr), .failed lastErr queued⟩

end NativeLink.BufChannel
