import NativeLink.Util.BufChannel

-- Delivery through `buf_channel`: every call takes bytes off the front of the stream the writer
-- has sent, so what the reader gets, followed by what is still in the queue and the channel, is
-- what was sent. The invariant `Channel.Wf` says that no error is stored, that the channel holds
-- no empty chunk, and that the empty chunk `peek` queues for the EOF stands alone after the writer
-- is done. `Took`, `Peeked` and `Consumed` say what `recv`, `peek` and `consume` do from a state
-- where it holds; a call waits only while the writer may still send.

namespace NativeLink.BufChannel

open EStateM

variable {s s₁ s₂ s' : Channel} {chunk rest : Bytes} {chunks : List Bytes}

/-! ## The calls on the state -/

theorem tryRecv_run_cons (he : s.lastErr = none) (hq : s.queuedData = chunk :: chunks) :
    tryRecv.run s = .ok (some (.ok chunk)) { s with queuedData := chunks } := by
  simp only [tryRecv, run_bind, run_get, he, hq]
  rfl

theorem tryRecv_run_nil (he : s.lastErr = none) (hq : s.queuedData = []) : tryRecv.run s = .ok none s := by
  simp only [tryRecv, run_bind, run_get, he, hq]
  rfl

theorem rxRecv_run_cons (hr : s.rx = chunk :: chunks) :
    rxRecv.run s = .ok (some chunk) { s with rx := chunks } := by
  simp only [rxRecv, run_bind, run_get, hr]
  rfl

theorem rxRecv_run_open (hr : s.rx = []) (ht : s.txOpen = true) : rxRecv.run s = .error .blocked s := by
  simp only [rxRecv, run_bind, run_get, hr, ht]
  rfl

theorem rxRecv_run_closed (hr : s.rx = []) (ht : s.txOpen = false) : rxRecv.run s = .ok none s := by
  simp only [rxRecv, run_bind, run_get, hr, ht]
  rfl

theorem maybePopulateRecentData_run (chunk : Bytes) (s : Channel) :
    ∃ r, (maybePopulateRecentData chunk).run s = .ok () { s with recentData := r } := by
  rw [maybePopulateRecentData, run_modify]
  split
  case isTrue => exact ⟨s.recentData, rfl⟩
  case isFalse =>
    split
    case isTrue => exact ⟨[], rfl⟩
    case isFalse => exact ⟨_, rfl⟩

theorem recvInner_run_chunk (hc : chunk ≠ []) :
    ∃ r, (recvInner chunk).run s =
      .ok chunk { s with bytesReceived := s.bytesReceived + chunk.length, recentData := r } := by
  have hne : chunk.isEmpty = false := List.isEmpty_eq_false_iff.mpr hc
  obtain ⟨r, hr⟩ := maybePopulateRecentData_run chunk
    { s with bytesReceived := s.bytesReceived + chunk.length }
  refine ⟨r, ?_⟩
  simp only [recvInner, hne, Bool.false_eq_true, if_false, run_bind, run_modify, hr]
  rfl

theorem recvInner_run_eof (he : s.eofSent = true) : ∃ r, (recvInner []).run s = .ok [] { s with recentData := r } := by
  obtain ⟨r, hr⟩ := maybePopulateRecentData_run [] s
  refine ⟨r, ?_⟩
  simp only [recvInner, List.isEmpty_nil, if_true, run_bind, run_get, he, Bool.not_true,
    Bool.false_eq_true, if_false, hr]
  rfl

/-! ## The invariant -/

structure Channel.Wf (s : Channel) : Prop where
  noErr : s.lastErr = none
  -- the writer drops its sender exactly when it sends the EOF
  eofSent : s.eofSent = !s.txOpen
  rx : [] ∉ s.rx
  -- the empty chunk `peek` queues for the EOF stands alone, after the channel has closed
  eofQueued : [] ∈ s.queuedData → s.queuedData = [[]] ∧ s.rx = [] ∧ s.txOpen = false
  received : s.bytesReceived + (s.rx.map List.length).sum = s.bytesWritten

theorem makeBufChannelPair_wf : makeBufChannelPair.Wf where
  noErr := rfl
  eofSent := rfl
  rx := List.not_mem_nil
  eofQueued := nofun
  received := rfl

-- A call waits only on an open channel.
def Waits (s : Channel) (e : Stop) (_ : Channel) : Prop :=
  e = .blocked ∧ s.txOpen = true

theorem errTip_post {α : Type} {x : M α} {Q : α → Channel → Prop} (msg : String)
    (hx : Post Q (Waits s) (x.run s)) : Post Q (Waits s) ((errTip msg x).run s) := by
  refine Post.adaptExcept hx fun e s' h => ?_
  obtain ⟨rfl, ht⟩ := h
  exact ⟨rfl, ht⟩

-- What `recv` does from a well-formed state: it takes `chunk` off the front of the stream, and
-- returns the empty chunk only at its end, once the writer is done.
structure Took (s : Channel) (chunk : Bytes) (s' : Channel) : Prop where
  wf : s'.Wf
  stream : chunk ++ s'.stream = s.stream
  txOpen : s'.txOpen = s.txOpen
  written : s'.bytesWritten = s.bytesWritten
  eof : chunk = [] → s'.queuedData = [] ∧ s'.rx = [] ∧ s'.txOpen = false
  next : chunk ≠ [] → rounds s' < rounds s ∧ [] ∉ s'.queuedData

theorem Took.stream_nil' (h : Took s [] s') : s'.stream = [] := by
  obtain ⟨hq, hr, -⟩ := h.eof rfl
  rw [Channel.stream, hq, hr]
  rfl

theorem Took.stream_nil (h : Took s [] s') : s.stream = [] := by
  rw [← h.stream, h.stream_nil']
  rfl

theorem Took.waits {e : Stop} (h : Took s chunk s₁) (hw : Waits s₁ e s') : Waits s e s' :=
  ⟨hw.1, h.txOpen ▸ hw.2⟩

theorem Channel.Wf.push (hs : s.Wf) (hc : chunk ≠ []) (hq : [] ∉ s.queuedData) :
    { s with queuedData := chunk :: s.queuedData }.Wf := by
  refine ⟨hs.noErr, hs.eofSent, hs.rx, fun hm => ?_, hs.received⟩
  cases List.mem_cons.mp hm
  case inl h => exact (hc h.symm).elim
  case inr h => exact (hq h).elim

theorem Took.push_wf (h : Took s chunk s₁) : { s₁ with queuedData := chunk :: s₁.queuedData }.Wf := by
  by_cases hc : chunk = []
  case pos =>
    subst hc
    obtain ⟨hq, hr, ht⟩ := h.eof rfl
    have hs := h.wf
    exact ⟨hs.noErr, hs.eofSent, hs.rx, fun _ => ⟨by rw [hq], hr, ht⟩, hs.received⟩
  case neg => exact h.wf.push hc (h.next hc).2

theorem took_queued (hs : s.Wf) (hq : s.queuedData = chunk :: chunks) :
    Took s chunk { s with queuedData := chunks } := by
  have hmarker : [] ∈ chunks → False := fun hm => by
    obtain ⟨hq', -⟩ := hs.eofQueued (hq ▸ List.mem_cons_of_mem _ hm)
    rw [hq] at hq'
    cases List.cons.inj hq' |>.2 ▸ hm
  refine ⟨⟨hs.noErr, hs.eofSent, hs.rx, fun hm => (hmarker hm).elim, hs.received⟩, ?_, rfl, rfl, ?_, ?_⟩
  case refine_1 => simp [Channel.stream, hq]
  case refine_2 =>
    intro hc
    subst hc
    obtain ⟨hq', hr, ht⟩ := hs.eofQueued (hq ▸ List.mem_cons_self)
    rw [hq] at hq'
    exact ⟨(List.cons.inj hq').2, hr, ht⟩
  case refine_3 =>
    intro _
    refine ⟨?_, hmarker⟩
    simp [rounds, hq]

theorem took_channel (hs : s.Wf) (hq : s.queuedData = []) (hr : s.rx = chunk :: chunks) (r : List Bytes) :
    Took s chunk { s with rx := chunks, bytesReceived := s.bytesReceived + chunk.length, recentData := r } := by
  have hc : chunk ≠ [] := fun hc => hs.rx (hr ▸ hc ▸ List.mem_cons_self)
  have hrecv := hs.received
  rw [hr, List.map_cons, List.sum_cons] at hrecv
  refine ⟨⟨hs.noErr, hs.eofSent, fun hm => hs.rx (hr ▸ List.mem_cons_of_mem _ hm), ?_, ?_⟩,
    ?_, rfl, rfl, fun h => (hc h).elim, fun _ => ⟨?_, ?_⟩⟩
  case refine_1 => simp [hq]
  case refine_2 => dsimp only; omega
  case refine_3 => simp [Channel.stream, hq, hr]
  case refine_4 => simp [rounds, hq, hr]
  case refine_5 => simp [hq]

theorem took_eof (hs : s.Wf) (hq : s.queuedData = []) (hr : s.rx = []) (ht : s.txOpen = false)
    (r : List Bytes) : Took s [] { s with recentData := r } :=
  ⟨⟨hs.noErr, hs.eofSent, hs.rx, hs.eofQueued, hs.received⟩, by simp [Channel.stream, hq, hr], rfl, rfl,
    fun _ => ⟨hq, hr, ht⟩, fun h => (h rfl).elim⟩

theorem recv_post (hs : s.Wf) : Post (Took s) (Waits s) (recv.run s) := by
  cases hq : s.queuedData
  case cons chunk chunks =>
    rw [recv, run_bind_of_ok (tryRecv_run_cons hs.noErr hq)]
    exact took_queued hs hq
  case nil =>
    rw [recv, run_bind_of_ok (tryRecv_run_nil hs.noErr hq)]
    dsimp only
    cases hr : s.rx
    case cons chunk chunks =>
      have hc : chunk ≠ [] := fun hc => hs.rx (hr ▸ hc ▸ List.mem_cons_self)
      rw [run_bind_of_ok (rxRecv_run_cons hr), Option.getD_some]
      obtain ⟨r, hrun⟩ := recvInner_run_chunk (s := { s with rx := chunks }) hc
      rw [hrun]
      exact took_channel hs hq hr r
    case nil =>
      cases ht : s.txOpen
      case true =>
        rw [run_bind, rxRecv_run_open hr ht]
        exact ⟨rfl, ht⟩
      case false =>
        have he : s.eofSent = true := by rw [hs.eofSent, ht]; rfl
        rw [run_bind_of_ok (rxRecv_run_closed hr ht), Option.getD_none]
        obtain ⟨r, hrun⟩ := recvInner_run_eof he
        rw [hrun]
        exact took_eof hs hq hr ht r

theorem pushFront_run (chunk : Bytes) (s : Channel) :
    (pushFront chunk).run s = .ok () { s with queuedData := chunk :: s.queuedData } :=
  rfl

theorem front_run (hq : s.queuedData = chunk :: chunks) : front.run s = .ok chunk s := by
  simp only [front, run_bind, run_get, hq]
  rfl

/-! ## `peek` -/

-- What `peek` does from a well-formed state: it leaves the stream as it is, and shows the empty
-- chunk only at its end.
structure Peeked (s : Channel) (chunk : Bytes) (s' : Channel) : Prop where
  wf : s'.Wf
  stream : s'.stream = s.stream
  txOpen : s'.txOpen = s.txOpen
  written : s'.bytesWritten = s.bytesWritten
  eof : chunk = [] → s.stream = [] ∧ s.txOpen = false

theorem peek_post (hs : s.Wf) : Post (Peeked s) (Waits s) (peek.run s) := by
  rw [peek, run_bind, run_get]
  dsimp only
  cases hq : s.queuedData
  case nil =>
    rw [List.isEmpty_nil, if_pos rfl]
    refine Post.bind (errTip_post _ (recv_post hs)) fun chunk s₁ h => ?_
    rw [run_bind_of_ok (pushFront_run chunk s₁), front_run rfl]
    refine ⟨h.push_wf, ?_, h.txOpen, h.written, fun hc => ?_⟩
    case refine_1 =>
      rw [← h.stream]
      simp [Channel.stream]
    case refine_2 =>
      subst hc
      exact ⟨h.stream_nil, h.txOpen ▸ (h.eof rfl).2.2⟩
  case cons chunk chunks =>
    rw [if_neg (by simp), front_run hq]
    refine ⟨hs, rfl, rfl, rfl, fun hc => ?_⟩
    subst hc
    obtain ⟨hq', hr, ht⟩ := hs.eofQueued (hq ▸ List.mem_cons_self)
    refine ⟨?_, ht⟩
    rw [Channel.stream, hq', hr]
    rfl

/-! ## `consume` -/

-- What `consume` with a limit of `n` bytes does from a well-formed state: it returns the first
-- `n` bytes of the stream, and fewer only once the writer is done and the stream is empty.
structure Consumed (s : Channel) (n : Nat) (data : Bytes) (s' : Channel) : Prop where
  wf : s'.Wf
  take : data = s.stream.take n
  drop : s'.stream = s.stream.drop n
  short : data.length < n → s'.txOpen = false
  txOpen : s'.txOpen = s.txOpen
  written : s'.bytesWritten = s.bytesWritten

theorem Consumed.nil (hs : s.Wf) : Consumed s 0 [] s :=
  ⟨hs, rfl, rfl, fun h => (Nat.lt_irrefl 0 h).elim, rfl, rfl⟩

theorem Consumed.of_eof {n : Nat} (h : Took s [] s') : Consumed s n [] s' where
  wf := h.wf
  take := by rw [h.stream_nil, List.take_nil]
  drop := by rw [h.stream_nil, h.stream_nil', List.drop_nil]
  short _ := (h.eof rfl).2.2
  txOpen := h.txOpen
  written := h.written

theorem Consumed.of_cut {n : Nat} (h : Took s chunk s₁) (hn : n < chunk.length) :
    Consumed s n (chunk.take n) { s₁ with queuedData := chunk.drop n :: s₁.queuedData } where
  wf := by
    have hc : chunk ≠ [] := List.ne_nil_of_length_pos (Nat.lt_of_le_of_lt (Nat.zero_le n) hn)
    exact h.wf.push (by simpa [List.drop_eq_nil_iff] using hn) (h.next hc).2
  take := by rw [← h.stream, List.take_append_of_le_length (Nat.le_of_lt hn)]
  drop := by
    rw [← h.stream, List.drop_append_of_le_length (Nat.le_of_lt hn)]
    simp [Channel.stream]
  short hlt := by simp [Nat.le_of_lt hn] at hlt
  txOpen := h.txOpen
  written := h.written

theorem Consumed.of_peeked {n : Nat} {p : Bytes} (h : Peeked s p s') (hp : p = [] ∨ n = 0) :
    Consumed s n [] s' := by
  cases hp
  case inl hp =>
    obtain ⟨hst, ht⟩ := h.eof hp
    exact ⟨h.wf, by rw [hst, List.take_nil], by rw [h.stream, hst, List.drop_nil], fun _ => h.txOpen ▸ ht,
      h.txOpen, h.written⟩
  case inr hn =>
    subst hn
    exact ⟨h.wf, rfl, h.stream, fun h => (Nat.lt_irrefl 0 h).elim, h.txOpen, h.written⟩

theorem Consumed.of_peeked_left {n : Nat} {p data : Bytes} (h : Peeked s p s₁) (h' : Consumed s₁ n data s') :
    Consumed s n data s' where
  wf := h'.wf
  take := h.stream ▸ h'.take
  drop := h.stream ▸ h'.drop
  short := h'.short
  txOpen := h'.txOpen.trans h.txOpen
  written := h'.written.trans h.written

theorem Consumed.cons {n : Nat} {data : Bytes} (h : Took s chunk s₁) (hn : chunk.length ≤ n)
    (h' : Consumed s₁ (n - chunk.length) data s') : Consumed s n (chunk ++ data) s' where
  wf := h'.wf
  take := by rw [← h.stream, List.take_append, List.take_of_length_le hn, h'.take]
  drop := by rw [← h.stream, List.drop_append, List.drop_eq_nil_of_le hn, List.nil_append, h'.drop]
  short hlt := h'.short (by rw [List.length_append] at hlt; omega)
  txOpen := h'.txOpen.trans h.txOpen
  written := h'.written.trans h.written

theorem Consumed.whole {n : Nat} (h : Took s chunk s₁) (hn : n = chunk.length) : Consumed s n chunk s₁ := by
  have hzero : n - chunk.length = 0 := by omega
  have hcons := Consumed.cons h (Nat.le_of_eq hn.symm) (hzero ▸ Consumed.nil h.wf)
  rwa [List.append_nil] at hcons

theorem consumeLoop_post (size : Nat) :
    ∀ fuel output s, s.Wf → rounds s ≤ fuel → output.length < size →
      Post (fun out s' => ∃ data, out = output ++ data ∧ Consumed s (size - output.length) data s')
        (Waits s) ((consumeLoop size fuel output).run s) := by
  intro fuel
  induction fuel
  case zero =>
    intro output s _ hfuel _
    exact absurd hfuel (by simp [rounds])
  case succ fuel ih =>
    intro output s hs hfuel hlt
    rw [consumeLoop]
    refine Post.bind (errTip_post _ (recv_post hs)) fun chunk s₁ h => ?_
    dsimp only
    split
    case isTrue hc =>
      rw [List.isEmpty_iff.mp hc] at h
      exact ⟨[], (List.append_nil _).symm, Consumed.of_eof h⟩
    case isFalse hc =>
      have hne : chunk ≠ [] := fun he => hc (List.isEmpty_iff.mpr he)
      by_cases hcut : output.length + chunk.length > size
      case pos =>
        rw [if_pos hcut, run_bind_of_ok (pushFront_run _ s₁), pure_bind]
        rw [if_pos (by simp; omega), run_pure]
        exact ⟨_, rfl, Consumed.of_cut h (by omega)⟩
      case neg =>
        rw [if_neg hcut, pure_bind]
        by_cases hfull : (output ++ chunk).length = size
        case pos =>
          rw [if_pos hfull, run_pure]
          exact ⟨chunk, rfl, Consumed.whole h (by simp at hfull; omega)⟩
        case neg =>
          rw [if_neg hfull]
          have hrounds : rounds s₁ ≤ fuel := by have := (h.next hne).1; omega
          have hlt' : (output ++ chunk).length < size := by simp at hfull ⊢; omega
          refine (ih (output ++ chunk) s₁ h.wf hrounds hlt').mono (fun out s' hout => ?_)
            (fun _ _ hw => h.waits hw)
          obtain ⟨data, rfl, hcons⟩ := hout
          have hn : size - (output ++ chunk).length = size - output.length - chunk.length := by
            simp only [List.length_append]
            omega
          rw [hn] at hcons
          exact ⟨chunk ++ data, List.append_assoc _ _ _, Consumed.cons h (by omega) hcons⟩

theorem consume_post (size : Option Nat) (hs : s.Wf) :
    Post (Consumed s (size.getD u64Max)) (Waits s) ((consume size).run s) := by
  rw [consume]
  generalize size.getD u64Max = n
  refine Post.bind (errTip_post _ (recv_post hs)) fun chunk s₁ h => ?_
  split
  case isTrue hc =>
    rw [List.isEmpty_iff.mp hc] at h ⊢
    exact Consumed.of_eof h
  case isFalse hc =>
    split
    case isTrue hcut =>
      rw [run_bind_of_ok (pushFront_run _ s₁), run_pure]
      exact Consumed.of_cut h hcut
    case isFalse hcut =>
      have hle : chunk.length ≤ n := Nat.le_of_not_lt hcut
      refine Post.bind ((errTip_post _ (peek_post h.wf)).mono (fun _ _ hp => hp) fun _ _ hw => h.waits hw)
        fun p s₂ hp => ?_
      split
      case isTrue hend =>
        rw [run_pure]
        have hor : p = [] ∨ n - chunk.length = 0 := by
          simp only [Bool.or_eq_true, List.isEmpty_iff, decide_eq_true_eq] at hend
          cases hend
          case inl hp => exact Or.inl hp
          case inr heq => exact Or.inr (by omega)
        have hcons := Consumed.cons h hle (Consumed.of_peeked hp hor)
        rwa [List.append_nil] at hcons
      case isFalse hend =>
        have hlt : chunk.length < n := by
          simp only [Bool.or_eq_true, decide_eq_true_eq, not_or] at hend
          omega
        rw [run_bind, run_get]
        refine (consumeLoop_post n (rounds s₂) chunk s₂ hp.wf (Nat.le_refl _) hlt).mono (fun out s' hout => ?_)
          fun _ _ hw => h.waits ⟨hw.1, hp.txOpen ▸ hw.2⟩
        obtain ⟨data, rfl, hcons⟩ := hout
        exact Consumed.cons h hle (Consumed.of_peeked_left hp hcons)

/-! ## `drain`, `try_recv` and the writer -/

-- What `drain` does: it reads up to the EOF, so the stream is empty and the writer done.
structure Drained (s s' : Channel) : Prop where
  wf : s'.Wf
  stream : s'.stream = []
  txOpen : s'.txOpen = false
  written : s'.bytesWritten = s.bytesWritten

theorem drainLoop_post :
    ∀ fuel s, s.Wf → rounds s ≤ fuel → Post (fun _ s' => Drained s s') (Waits s) ((drainLoop fuel).run s) := by
  intro fuel
  induction fuel
  case zero =>
    intro s _ hfuel
    exact absurd hfuel (by simp [rounds])
  case succ fuel ih =>
    intro s hs hfuel
    rw [drainLoop]
    refine Post.bind (errTip_post _ (recv_post hs)) fun chunk s₁ h => ?_
    split
    case isTrue hc =>
      rw [List.isEmpty_iff.mp hc] at h
      exact ⟨h.wf, h.stream_nil', (h.eof rfl).2.2, h.written⟩
    case isFalse hc =>
      have hne : chunk ≠ [] := fun he => hc (List.isEmpty_iff.mpr he)
      have hrounds : rounds s₁ ≤ fuel := by have := (h.next hne).1; omega
      exact (ih s₁ h.wf hrounds).mono (fun _ s' hd => { hd with written := hd.written.trans h.written })
        fun _ _ hw => h.waits hw

theorem drain_post (hs : s.Wf) : Post (fun _ s' => Drained s s') (Waits s) (drain.run s) := by
  rw [drain, run_bind, run_get]
  exact drainLoop_post _ s hs (Nat.le_refl _)

-- `try_recv` takes the front of the queue, or returns `None` on an empty queue; with no error
-- stored it never returns one.
def TryRecvd (s : Channel) : Option (Except Error Bytes) → Channel → Prop
  | some (.ok chunk), s' => Took s chunk s'
  | some (.error _), _ => False
  | none, s' => s' = s

theorem tryRecv_post (hs : s.Wf) : Post (TryRecvd s) (fun _ _ => False) (tryRecv.run s) := by
  cases hq : s.queuedData
  case nil =>
    rw [tryRecv_run_nil hs.noErr hq]
    rfl
  case cons chunk chunks =>
    rw [tryRecv_run_cons hs.noErr hq]
    exact took_queued hs hq

theorem send_post (buf : Bytes) (hs : s.Wf) :
    Post (fun _ s' => s'.Wf ∧ s'.stream = s.stream ++ buf ∧ s'.bytesWritten = s.bytesWritten + buf.length)
      (fun e s' => s' = s ∧ ∃ err, e = .error err) ((send buf).run s) := by
  rw [send, run_bind, run_get]
  dsimp only
  split
  case isTrue => exact ⟨rfl, _, rfl⟩
  case isFalse hopen =>
    split
    case isTrue => exact ⟨rfl, _, rfl⟩
    case isFalse hlen =>
      have ht : s.txOpen = true := by simpa using hopen
      have hbuf : buf ≠ [] := fun h => hlen (by rw [h]; rfl)
      refine ⟨⟨hs.noErr, hs.eofSent, ?_, ?_, ?_⟩, ?_, rfl⟩
      case refine_1 =>
        intro hm
        cases List.mem_append.mp hm
        case inl h => exact hs.rx h
        case inr h => exact hbuf (List.mem_singleton.mp h).symm
      case refine_2 =>
        intro hm
        have := (hs.eofQueued hm).2.2
        rw [ht] at this
        cases this
      case refine_3 =>
        have := hs.received
        simp only [List.map_append, List.sum_append, List.map_cons, List.map_nil, List.sum_cons,
          List.sum_nil]
        omega
      case refine_4 => simp [Channel.stream]

theorem sendEof_post (hs : s.Wf) :
    Post (fun _ s' => s'.Wf ∧ s'.stream = s.stream ∧ s'.bytesWritten = s.bytesWritten) (fun _ _ => False)
      (sendEof.run s) := by
  rw [sendEof, run_bind, run_get]
  dsimp only
  split
  case isTrue => exact ⟨hs, rfl, rfl⟩
  case isFalse hsent =>
    have ht : s.txOpen = true := by
      have := hs.eofSent
      cases hto : s.txOpen
      case false => rw [hto] at this; exact absurd this hsent
      case true => rfl
    refine ⟨⟨hs.noErr, rfl, hs.rx, fun hm => ?_, hs.received⟩, rfl, rfl⟩
    have := (hs.eofQueued hm).2.2
    rw [ht] at this
    cases this

/-! ## Runs -/

theorem exec_post (call : Call) (hs : s.Wf) :
    Post (fun flow s' => s'.Wf ∧ flow.taken ++ s'.stream = s.stream ++ flow.sent ∧
        s'.bytesWritten = s.bytesWritten + flow.sent.length)
      (fun e s' => Waits s e s' ∨ ((∃ buf, call = .send buf) ∧ s' = s ∧ ∃ err, e = .error err))
      (call.exec.run s) := by
  cases call
  case send buf =>
    refine Post.bind ((send_post buf hs).mono (fun _ _ h => h) fun _ _ h => Or.inr ⟨⟨buf, rfl⟩, h⟩)
      fun _ s' h => ?_
    obtain ⟨hwf, hst, hw⟩ := h
    exact ⟨hwf, by rw [hst]; rfl, hw⟩
  case sendEof =>
    refine Post.bind ((sendEof_post hs).mono (fun _ _ h => h) nofun) fun _ s' h => ?_
    obtain ⟨hwf, hst, hw⟩ := h
    exact ⟨hwf, by rw [hst]; simp, hw⟩
  case recv =>
    refine Post.bind ((recv_post hs).mono (fun _ _ h => h) fun _ _ h => Or.inl h) fun chunk s' h => ?_
    exact ⟨h.wf, by rw [h.stream, List.append_nil], h.written⟩
  case tryRecv =>
    refine Post.bind ((tryRecv_post hs).mono (fun _ _ h => h) nofun) fun r s' h => ?_
    rcases r with _ | _ | chunk
    case none =>
      subst h
      exact ⟨hs, by simp, rfl⟩
    case some.error => exact h.elim
    case some.ok => exact ⟨h.wf, by rw [h.stream, List.append_nil], h.written⟩
  case peek =>
    refine Post.bind ((peek_post hs).mono (fun _ _ h => h) fun _ _ h => Or.inl h) fun _ s' h => ?_
    exact ⟨h.wf, by rw [h.stream]; simp, h.written⟩
  case consume size =>
    refine Post.bind ((consume_post size hs).mono (fun _ _ h => h) fun _ _ h => Or.inl h)
      fun data s' h => ?_
    refine ⟨h.wf, ?_, h.written⟩
    show data ++ s'.stream = s.stream ++ []
    rw [h.take, h.drop, List.take_append_drop, List.append_nil]
  case drain =>
    rw [Call.exec, run_bind, run_get]
    refine Post.bind ((drain_post hs).mono (fun _ _ h => h) fun _ _ h => Or.inl h) fun _ s' h => ?_
    exact ⟨h.wf, by rw [h.stream], h.written⟩
  case setMaxRecentDataSize size =>
    rw [Call.exec, setMaxRecentDataSize, run_bind_of_ok (run_modify _ s)]
    exact ⟨⟨hs.noErr, hs.eofSent, hs.rx, hs.eofQueued, hs.received⟩, by simp [Channel.stream], rfl⟩

-- What holds after every run: the state is well formed, the bytes taken followed by the stream
-- are the bytes sent, and the writer counted all it sent.
structure Delivered (s : Channel) (flow : Flow) : Prop where
  wf : s.Wf
  stream : flow.taken ++ s.stream = flow.sent
  written : s.bytesWritten = flow.sent.length

theorem step_delivered {sf : Channel × Flow} (h : Delivered sf.1 sf.2) (call : Call) :
    Delivered (step sf call).1 (step sf call).2 := by
  obtain ⟨s, flow⟩ := sf
  have hpost := exec_post call h.wf
  rw [step]
  cases hr : call.exec.run s
  case ok f s' =>
    rw [hr] at hpost
    obtain ⟨hwf, hst, hw⟩ := hpost
    refine ⟨hwf, ?_, ?_⟩
    case refine_1 =>
      calc flow.taken ++ f.taken ++ s'.stream
          = flow.taken ++ (s.stream ++ f.sent) := by rw [List.append_assoc, hst]
        _ = flow.sent ++ f.sent := by rw [← List.append_assoc, h.stream]
    case refine_2 =>
      rw [hw, h.written, List.length_append]
  case error e s' =>
    rw [hr] at hpost
    cases e
    case error err =>
      rcases hpost with ⟨hb, -⟩ | ⟨-, rfl, -⟩
      case inl => cases hb
      case inr => exact h
    all_goals exact h

theorem run_delivered (calls : List Call) : Delivered (run calls).1 (run calls).2 :=
  fold_inv (I := fun sf => Delivered sf.1 sf.2) step (fun _ call h => step_delivered h call) calls _
    ⟨makeBufChannelPair_wf, rfl, rfl⟩

-- Over every run of both halves: the bytes the reader took (returned by `recv`, `try_recv` and
-- `consume`, or dropped by `drain`), followed by those still queued or in the channel, are the
-- bytes sent, in order; `bytes_received` stays within them; a call fails only as a refused `send`
-- and waits only while the writer is open; `consume` returns the first `n` bytes not yet taken,
-- and fewer only once the writer is done; `recv` and `try_recv` return the empty chunk only at
-- the end of the stream, after the EOF.
theorem delivered_once_in_order (calls : List Call) :
    (run calls).2.taken ++ (run calls).1.stream = (run calls).2.sent ∧
    (run calls).1.bytesReceived ≤ (run calls).2.sent.length ∧
    (∀ (call : Call) e s', call.exec.run (run calls).1 = .error e s' →
      (e = .blocked ∧ (run calls).1.txOpen = true) ∨ ((∃ buf, call = .send buf) ∧ s' = (run calls).1)) ∧
    (∀ size data s', (consume size).run (run calls).1 = .ok data s' →
      data = (run calls).1.stream.take (size.getD u64Max) ∧
      s'.stream = (run calls).1.stream.drop (size.getD u64Max) ∧
      (data.length < size.getD u64Max → s'.txOpen = false)) ∧
    (∀ chunk s', (recv.run (run calls).1 = .ok chunk s' ∨ tryRecv.run (run calls).1 = .ok (some (.ok chunk)) s') →
      chunk = [] → (run calls).1.stream = [] ∧ (run calls).1.txOpen = false) := by
  have h := run_delivered calls
  refine ⟨h.stream, ?_, ?_, ?_, ?_⟩
  case refine_1 =>
    have := h.wf.received
    rw [← h.written]
    omega
  case refine_2 =>
    intro call e s' he
    have hpost := exec_post call h.wf
    rw [he] at hpost
    rcases hpost with ⟨hb, ht⟩ | ⟨hbuf, hs', -⟩
    case inl => exact Or.inl ⟨hb, ht⟩
    case inr => exact Or.inr ⟨hbuf, hs'⟩
  case refine_3 =>
    intro size data s' hc
    have hpost := consume_post size h.wf
    rw [hc] at hpost
    exact ⟨hpost.take, hpost.drop, hpost.short⟩
  case refine_4 =>
    intro chunk s' hr hc
    subst hc
    have htook : Took (run calls).1 [] s' := by
      rcases hr with hr | hr
      case inl =>
        have hpost := recv_post h.wf
        rw [hr] at hpost
        exact hpost
      case inr =>
        have hpost := tryRecv_post h.wf
        rw [hr] at hpost
        exact hpost
    refine ⟨htook.stream_nil, ?_⟩
    rw [← htook.txOpen]
    exact (htook.eof rfl).2.2

-- `consume(Some(0))` returns the empty chunk while the stream still holds "ab".
theorem consume_zero_before_eof :
    ∃ s', (consume (some 0)).run (run [.send [0x61, 0x62], .sendEof]).1 = .ok [] s' ∧
      s'.stream = [0x61, 0x62] :=
  ⟨_, rfl, rfl⟩

end NativeLink.BufChannel
