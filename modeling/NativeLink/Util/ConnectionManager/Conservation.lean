import NativeLink.Util.ConnectionManager

-- What the worker and the clients keep over every interleaving: the permits are conserved, no
-- request waits while it could be served, and each endpoint keeps its number of channels, counting
-- the ones an unhandled `Error` gave up.

namespace NativeLink

namespace ConnectionManager

namespace State

-- The channels a list of `Connection`s still holds for the pool.
def pendingChannels (connections : List Connection) : Multiset ChannelIdentifier :=
  ↑((connections.filter (·.pendingChannel)).map (·.channel))

-- The pool: the channels being connected, available, pending in a live `Connection`, or on their
-- way back in a `Connected` or `Dropped`.
def pool (s : State) : Multiset ChannelIdentifier :=
  ↑s.connectingChannels + ↑s.availableChannels + pendingChannels s.connections +
    ↑(s.connectionRx.filterMap ConnectionRequest.heldChannel)

-- The channels given up by an `Error` the worker has not handled yet.
def givenUp (s : State) : Multiset ChannelIdentifier :=
  ↑(s.connectionRx.filterMap ConnectionRequest.givenUpChannel)

-- The permits: those of the worker, one per live `Connection` and one per `Dropped` on its way.
def permits (s : State) : Nat :=
  s.availableConnections + s.connections.length + s.connectionRx.countP ConnectionRequest.isDropped

-- No request waits while a permit and a channel are there for it.
def Served (s : State) : Prop :=
  s.waitingConnections = [] ∨ s.availableConnections = 0 ∨ s.availableChannels = []

-- What every reachable state satisfies, for the endpoints and the limits `new` settled on.
structure Wf (numEndpoints connectionsPerEndpoint maxConcurrentRequests : Nat) (s : State) : Prop where
  permits : s.permits = maxConcurrentRequests
  served : s.Served
  length : s.endpoints.length = numEndpoints
  pooled : Pooled (fun _ => connectionsPerEndpoint) (s.pool + s.givenUp) s.endpoints

-- `s'` has the channels, the permits and the endpoints of `s`.
structure Keeps (s s' : State) : Prop where
  pool : s'.pool = s.pool
  givenUp : s'.givenUp = s.givenUp
  endpoints : s'.endpoints = s.endpoints
  permits : s'.permits = s.permits

section Fields

variable {endpoints : List Nat} {availableConnections : Nat} {connectingChannels availableChannels : List ChannelIdentifier}
  {waitingConnections workerRx : List Nat} {connectionRx : List ConnectionRequest} {connections : List Connection}
  {gaveUp : List Nat}

@[simp] theorem pool_mk : (State.mk endpoints availableConnections connectingChannels availableChannels
    waitingConnections workerRx connectionRx connections gaveUp).pool =
      ↑connectingChannels + ↑availableChannels + pendingChannels connections +
        ↑(connectionRx.filterMap ConnectionRequest.heldChannel) := rfl

@[simp] theorem givenUp_mk : (State.mk endpoints availableConnections connectingChannels availableChannels
    waitingConnections workerRx connectionRx connections gaveUp).givenUp =
      ↑(connectionRx.filterMap ConnectionRequest.givenUpChannel) := rfl

@[simp] theorem permits_mk : (State.mk endpoints availableConnections connectingChannels availableChannels
    waitingConnections workerRx connectionRx connections gaveUp).permits =
      availableConnections + connections.length + connectionRx.countP ConnectionRequest.isDropped := rfl

end Fields

variable {s s' s'' : State} {n cpe max : Nat}

theorem Keeps.refl (s : State) : Keeps s s :=
  ⟨rfl, rfl, rfl, rfl⟩

theorem Keeps.trans (h : Keeps s s') (h' : Keeps s' s'') : Keeps s s'' :=
  ⟨h'.pool.trans h.pool, h'.givenUp.trans h.givenUp, h'.endpoints.trans h.endpoints, h'.permits.trans h.permits⟩

theorem Wf.of_channels (h : Wf n cpe max s) (hchannels : s'.pool + s'.givenUp = s.pool + s.givenUp)
    (hendpoints : s'.endpoints = s.endpoints) (hpermits : s'.permits = s.permits) (hserved : s'.Served) :
    Wf n cpe max s' where
  permits := hpermits.trans h.permits
  served := hserved
  length := hendpoints ▸ h.length
  pooled := by
    rw [hchannels, hendpoints]
    exact h.pooled

theorem Wf.of_keeps (h : Wf n cpe max s) (hk : Keeps s s') (hserved : s'.Served) : Wf n cpe max s' :=
  h.of_channels (by rw [hk.pool, hk.givenUp]) hk.endpoints hk.permits hserved

/-! ## Handing out a channel -/

section Provide

variable {c : ChannelIdentifier} {tx : Nat}

theorem pool_provideChannel : (s.provideChannel c tx).pool = c ::ₘ s.pool := by
  unfold provideChannel
  dsimp only
  split
  all_goals simp only [pool, pendingChannels, List.filterMap_append, List.filter_append, List.map_append,
    List.filterMap_cons, List.filterMap_nil, ConnectionRequest.heldChannel, List.filter_cons, List.filter_nil,
    List.map_cons, List.map_nil, coe_append_singleton, Multiset.add_cons, Multiset.cons_add, if_true]

theorem givenUp_provideChannel : (s.provideChannel c tx).givenUp = s.givenUp := by
  unfold provideChannel
  dsimp only
  split
  all_goals simp only [givenUp, List.filterMap_append, List.filterMap_cons, List.filterMap_nil,
    ConnectionRequest.givenUpChannel, List.append_nil]

theorem permits_provideChannel (h : 0 < s.availableConnections) : (s.provideChannel c tx).permits = s.permits := by
  unfold provideChannel
  dsimp only
  split
  all_goals simp [permits, ConnectionRequest.isDropped]; omega

theorem provideChannel_fields :
    (s.provideChannel c tx).endpoints = s.endpoints ∧
      (s.provideChannel c tx).availableChannels = s.availableChannels ∧
      (s.provideChannel c tx).waitingConnections = s.waitingConnections ∧
      (s.provideChannel c tx).availableConnections = s.availableConnections - 1 := by
  unfold provideChannel
  dsimp only
  split <;> exact ⟨rfl, rfl, rfl, rfl⟩

theorem keeps_provideChannel {cs : List ChannelIdentifier} {waiting : List Nat} (hchannels : s.availableChannels = c :: cs)
    (h : 0 < s.availableConnections) :
    Keeps s ({ s with availableChannels := cs, waitingConnections := waiting }.provideChannel c tx) where
  pool := by
    rw [pool_provideChannel]
    simp only [pool, hchannels]
    rw [← Multiset.cons_coe]
    simp only [Multiset.add_cons, Multiset.cons_add]
  givenUp := givenUp_provideChannel
  endpoints := provideChannel_fields.1
  permits := permits_provideChannel h

end Provide

/-! ## `maybe_available_connection` -/

theorem keeps_maybeAvailableLoop : ∀ (fuel : Nat) (s : State), Keeps s (maybeAvailableLoop fuel s)
  | 0, s => Keeps.refl s
  | fuel + 1, s => by
    rw [maybeAvailableLoop]
    split
    case isTrue hcond =>
      split
      case h_1 c cs tx txs hchannels _ =>
        exact (keeps_provideChannel hchannels hcond.1).trans (keeps_maybeAvailableLoop fuel _)
      case h_2 => exact Keeps.refl s
    case isFalse => exact Keeps.refl s

theorem served_maybeAvailableLoop : ∀ (fuel : Nat) (s : State), s.waitingConnections.length ≤ fuel →
    (maybeAvailableLoop fuel s).Served
  | 0, s, hfuel => Or.inl (List.length_eq_zero_iff.mp (Nat.le_zero.mp hfuel))
  | fuel + 1, s, hfuel => by
    rw [maybeAvailableLoop]
    split
    case isTrue hcond =>
      split
      case h_1 c cs tx txs hchannels hwaiting =>
        apply served_maybeAvailableLoop fuel
        rw [provideChannel_fields.2.2.1]
        rw [hwaiting] at hfuel
        simpa using hfuel
      case h_2 hnot =>
        obtain ⟨-, hwaiting, hchannels⟩ := hcond
        obtain ⟨c, cs, hc⟩ := List.exists_cons_of_ne_nil hchannels
        obtain ⟨tx, txs, htx⟩ := List.exists_cons_of_ne_nil hwaiting
        exact absurd (hnot c cs tx txs hc htx) (by simp)
    case isFalse hcond =>
      unfold Served
      by_cases hA : s.availableConnections = 0
      · exact Or.inr (Or.inl hA)
      · by_cases hw : s.waitingConnections = []
        · exact Or.inl hw
        · exact Or.inr (Or.inr (by by_contra hc; exact hcond ⟨by omega, hw, hc⟩))

theorem keeps_maybeAvailableConnection (s : State) : Keeps s s.maybeAvailableConnection :=
  keeps_maybeAvailableLoop _ s

theorem served_maybeAvailableConnection (s : State) : s.maybeAvailableConnection.Served :=
  served_maybeAvailableLoop _ s (Nat.le_refl _)

/-! ## A new attempt in place of a channel -/

section Connect

variable {e current : Nat}

theorem connectEndpoint_none (hcur : s.endpoints[e]? = some current) :
    s.connectEndpoint e none =
      { s with endpoints := s.endpoints.set e (current + 1),
               connectingChannels := s.connectingChannels ++ [⟨e, current + 1⟩] } := by
  simp only [connectEndpoint, hcur]

theorem connectEndpoint_some (hcur : s.endpoints[e]? = some current) (connectionIndex : Nat) :
    s.connectEndpoint e (some connectionIndex) =
      { s with connectingChannels := s.connectingChannels ++ [⟨e, connectionIndex⟩] } := by
  simp only [connectEndpoint, hcur]

theorem Wf.renew (h : Wf n cpe max s) {old : ChannelIdentifier} (hold : old ∈ s.pool + s.givenUp)
    (hchannels : s'.pool + s'.givenUp = (s.pool + s.givenUp).erase old) (hendpoints : s'.endpoints = s.endpoints)
    (hpermits : s'.permits = max) (hserved : s'.Served) : Wf n cpe max (s'.connectEndpoint old.endpointIndex none) := by
  obtain ⟨current, hcur, -⟩ := h.pooled.known old hold
  rw [← hendpoints] at hcur
  rw [connectEndpoint_none hcur]
  refine ⟨hpermits, hserved, by rw [List.length_set, hendpoints, h.length], ?_⟩
  have hrenew := h.pooled.renew hold (hendpoints ▸ hcur)
  rw [← hchannels, ← hendpoints] at hrenew
  simp only [pool, givenUp, coe_append_singleton, Multiset.cons_add] at hrenew ⊢
  exact hrenew

end Connect

/-! ## The worker's messages -/

section Message

variable {m : ConnectionRequest} {rest : List ConnectionRequest}

theorem pool_of_connectionRx_cons (hrx : s.connectionRx = m :: rest) :
    s.pool = ↑m.heldChannel.toList + { s with connectionRx := rest }.pool := by
  simp only [pool, hrx, List.filterMap_cons]
  cases m.heldChannel with
  | none => simp
  | some c =>
    simp only [Option.toList_some, ← Multiset.cons_coe, Multiset.coe_nil, Multiset.add_cons, Multiset.cons_add,
      Multiset.zero_add]

theorem givenUp_of_connectionRx_cons (hrx : s.connectionRx = m :: rest) :
    s.givenUp = ↑m.givenUpChannel.toList + { s with connectionRx := rest }.givenUp := by
  simp only [givenUp, hrx, List.filterMap_cons]
  cases m.givenUpChannel with
  | none => simp
  | some c => simp

theorem permits_of_connectionRx_cons (hrx : s.connectionRx = m :: rest) :
    s.permits = { s with connectionRx := rest }.permits + if m.isDropped then 1 else 0 := by
  simp only [permits, hrx, List.countP_cons]
  omega

theorem coe_filter_ne {l : List ChannelIdentifier} (hl : (l : Multiset ChannelIdentifier).Nodup) {c : ChannelIdentifier}
    (hc : c ∈ l) : (l : Multiset ChannelIdentifier) = c ::ₘ ↑(l.filter (· != c)) := by
  rw [← Multiset.cons_erase (Multiset.mem_coe.mpr hc), Multiset.Nodup.erase_eq_filter c hl, Multiset.filter_coe]
  simp only [ne_eq, decide_not]
  rfl

theorem Wf.nodup_availableChannels (h : Wf n cpe max s) : (s.availableChannels : Multiset ChannelIdentifier).Nodup := by
  refine Multiset.nodup_of_le ?_ h.pooled.nodup
  calc (s.availableChannels : Multiset ChannelIdentifier)
      ≤ ↑s.connectingChannels + ↑s.availableChannels := Multiset.le_add_left _ _
    _ ≤ ↑s.connectingChannels + ↑s.availableChannels + pendingChannels s.connections := Multiset.le_add_right _ _
    _ ≤ s.pool := Multiset.le_add_right _ _
    _ ≤ s.pool + s.givenUp := Multiset.le_add_right _ _

theorem Wf.handleConnection (h : Wf n cpe max s) (hrx : s.connectionRx = m :: rest) :
    Wf n cpe max ({ s with connectionRx := rest }.handleConnection m) := by
  have hpool := pool_of_connectionRx_cons hrx
  have hgivenUp := givenUp_of_connectionRx_cons hrx
  have hpermits := permits_of_connectionRx_cons hrx
  cases m with
  | dropped maybeChannel =>
    apply Wf.of_keeps h _ (served_maybeAvailableConnection _)
    refine Keeps.trans ?_ (keeps_maybeAvailableConnection _)
    cases maybeChannel with
    | none =>
      refine ⟨?_, ?_, rfl, ?_⟩
      · simpa [ConnectionRequest.heldChannel] using hpool.symm
      · simpa [ConnectionRequest.givenUpChannel] using hgivenUp.symm
      · simp only [hpermits, permits_mk, ConnectionRequest.isDropped, if_true]
        omega
    | some c =>
      dsimp only
      refine ⟨?_, ?_, rfl, ?_⟩
      · simp only [hpool, pool_mk, ConnectionRequest.heldChannel, Option.toList_some, coe_append_singleton,
        Multiset.coe_singleton, Multiset.add_cons, Multiset.cons_add, Multiset.singleton_add]
      · simpa [ConnectionRequest.givenUpChannel] using hgivenUp.symm
      · simp only [hpermits, permits_mk, ConnectionRequest.isDropped, if_true]
        omega
  | connected c =>
    apply Wf.of_keeps h _ (served_maybeAvailableConnection _)
    refine Keeps.trans ?_ (keeps_maybeAvailableConnection _)
    refine ⟨?_, ?_, rfl, ?_⟩
    · simp only [hpool, pool_mk, ConnectionRequest.heldChannel, Option.toList_some, coe_append_singleton,
        Multiset.coe_singleton, Multiset.add_cons, Multiset.cons_add, Multiset.singleton_add]
    · simpa [ConnectionRequest.givenUpChannel] using hgivenUp.symm
    · simp [hpermits, ConnectionRequest.isDropped]
  | error identifier wasPending =>
    have hserved : { s with connectionRx := rest }.Served := h.served
    simp only [ConnectionRequest.heldChannel, ConnectionRequest.isDropped, Option.toList, Multiset.coe_nil,
      Multiset.zero_add, Bool.false_eq_true, if_false, Nat.add_zero] at hpool hpermits
    dsimp only [State.handleConnection]
    cases wasPending with
    | true =>
      simp only [ConnectionRequest.givenUpChannel, Option.toList, Multiset.coe_singleton, Multiset.singleton_add]
        at hgivenUp
      rw [if_pos rfl]
      refine h.renew ?_ ?_ rfl (hpermits.symm.trans h.permits) hserved
      · rw [hgivenUp]
        exact Multiset.mem_add.mpr (Or.inr (Multiset.mem_cons_self _ _))
      · rw [hpool, hgivenUp, Multiset.add_cons, Multiset.erase_cons_head]
    | false =>
      simp only [ConnectionRequest.givenUpChannel, Option.toList, Multiset.coe_nil, Multiset.zero_add] at hgivenUp
      simp only [Bool.false_eq_true, if_false]
      have hserved' :
          { s with connectionRx := rest, availableChannels := s.availableChannels.filter (· != identifier) }.Served := by
        rcases hserved with hw | hA | hav
        · exact Or.inl hw
        · exact Or.inr (Or.inl hA)
        · exact Or.inr (Or.inr (by simp only at hav ⊢; rw [hav, List.filter_nil]))
      split
      case isTrue hlen =>
        have hmem : identifier ∈ s.availableChannels := by
          by_contra hnot
          have hkeep : s.availableChannels.filter (· != identifier) = s.availableChannels :=
            List.filter_eq_self.mpr fun c hc => bne_iff_ne.mpr (ne_of_mem_of_not_mem hc hnot)
          rw [hkeep] at hlen
          exact absurd hlen (by simp)
        have hsplit : s.pool = identifier ::ₘ
            { s with connectionRx := rest, availableChannels := s.availableChannels.filter (· != identifier) }.pool := by
          rw [hpool]
          simp only [pool_mk]
          rw [coe_filter_ne h.nodup_availableChannels hmem]
          simp only [Multiset.add_cons, Multiset.cons_add]
        refine h.renew ?_ ?_ rfl (hpermits.symm.trans h.permits) hserved'
        · rw [hsplit]
          exact Multiset.mem_add.mpr (Or.inl (Multiset.mem_cons_self _ _))
        · rw [hsplit, hgivenUp, Multiset.cons_add, Multiset.erase_cons_head]
          rfl
      case isFalse hlen =>
        have hkeep : s.availableChannels.filter (· != identifier) = s.availableChannels := by
          simp only [bne_iff_ne, ne_eq, not_not] at hlen
          exact List.filter_eq_self.mpr (List.length_filter_eq_length_iff.mp hlen.symm)
        refine Wf.of_keeps h ⟨?_, hgivenUp.symm, rfl, hpermits.symm⟩ hserved'
        rw [hpool]
        simp only [pool_mk, hkeep]

end Message

/-! ## The clients -/

section Connections

variable {l : List Connection} {i : Nat} {conn : Connection}

theorem pendingChannels_cons (conn : Connection) (l : List Connection) :
    pendingChannels (conn :: l) =
      if conn.pendingChannel then conn.channel ::ₘ pendingChannels l else pendingChannels l := by
  unfold pendingChannels
  cases hpending : conn.pendingChannel <;> simp [hpending]

theorem pendingChannels_of_getElem? (h : l[i]? = some conn) :
    pendingChannels l = pendingChannels (conn :: l.eraseIdx i) := by
  obtain ⟨hi, rfl⟩ := List.getElem?_eq_some_iff.mp h
  exact Multiset.coe_eq_coe.mpr (((List.getElem_cons_eraseIdx_perm hi).symm.filter _).map _)

theorem pendingChannels_set (hi : i < l.length) (conn : Connection) :
    pendingChannels (l.set i conn) = pendingChannels (conn :: l.eraseIdx i) := by
  rw [pendingChannels_of_getElem? (List.getElem?_set_self hi), List.eraseIdx_set_eq]

end Connections

theorem Wf.drop (h : Wf n cpe max s) (i : Nat) : Wf n cpe max (s.drop i) := by
  unfold State.drop
  split
  case h_1 => exact h
  case h_2 conn hconn =>
    have hi : i < s.connections.length := (List.getElem?_eq_some_iff.mp hconn).1
    refine h.of_channels ?_ rfl ?_ h.served
    · cases hpending : conn.pendingChannel
      all_goals simp only [pool, givenUp, pendingChannels_of_getElem? hconn, pendingChannels_cons, hpending,
        Bool.false_eq_true, ↓reduceIte, List.filterMap_append, List.filterMap_cons, List.filterMap_nil,
        ConnectionRequest.heldChannel, ConnectionRequest.givenUpChannel, List.append_nil, coe_append_singleton,
        Multiset.add_cons, Multiset.cons_add]
    · simp only [State.permits, List.length_eraseIdx_of_lt hi, List.countP_append, List.countP_cons, List.countP_nil,
        ConnectionRequest.isDropped, ↓reduceIte]
      have : 0 < s.connections.length := by omega
      omega

theorem Wf.pollReady (h : Wf n cpe max s) (i : Nat) (ok : Bool) : Wf n cpe max (s.pollReady i ok) := by
  unfold State.pollReady
  split
  case h_1 => exact h
  case h_2 conn hconn =>
    have hi : i < s.connections.length := (List.getElem?_eq_some_iff.mp hconn).1
    have hpermits : ∀ m : ConnectionRequest, m.isDropped = false →
        { s with
          connections := s.connections.set i { conn with pendingChannel := false }
          connectionRx := s.connectionRx ++ [m] }.permits = s.permits := by
      intro m hm
      simp only [State.permits, List.length_set, List.countP_append, List.countP_cons, List.countP_nil, hm]
      rfl
    dsimp only
    cases ok with
    | true =>
      cases hpending : conn.pendingChannel
      case false => exact h
      case true =>
        simp only [↓reduceIte]
        refine h.of_channels ?_ rfl (hpermits _ rfl) h.served
        simp only [pool, givenUp, pendingChannels_of_getElem? hconn, pendingChannels_set hi, pendingChannels_cons,
          hpending, Bool.false_eq_true, ↓reduceIte, List.filterMap_append, List.filterMap_cons, List.filterMap_nil,
          ConnectionRequest.heldChannel, ConnectionRequest.givenUpChannel, List.append_nil, coe_append_singleton,
          Multiset.add_cons, Multiset.cons_add]
    | false =>
      simp only [Bool.false_eq_true, ↓reduceIte]
      refine h.of_channels ?_ rfl (hpermits _ rfl) h.served
      cases hpending : conn.pendingChannel
      all_goals simp only [pool, givenUp, pendingChannels_of_getElem? hconn, pendingChannels_set hi, pendingChannels_cons,
        hpending, Bool.false_eq_true, ↓reduceIte, List.filterMap_append, List.filterMap_cons, List.filterMap_nil,
        ConnectionRequest.heldChannel, ConnectionRequest.givenUpChannel, List.append_nil, coe_append_singleton,
        Multiset.add_cons, Multiset.cons_add]

/-! ## The worker's other branches -/

theorem Wf.handleWorker (h : Wf n cpe max s) (tx : Nat) {rest : List Nat} :
    Wf n cpe max ({ s with workerRx := rest }.handleWorker tx) := by
  have h₀ : Wf n cpe max { s with workerRx := rest } := h.of_keeps ⟨rfl, rfl, rfl, rfl⟩ h.served
  unfold State.handleWorker
  split
  case h_1 c cs hchannels =>
    split
    case isTrue hA =>
      have hwaiting : s.waitingConnections = [] := by
        rcases h.served with hw | hA' | hav
        · exact hw
        · exact absurd hA' (Nat.pos_iff_ne_zero.mp hA)
        · exact absurd (hchannels.symm.trans hav) (List.cons_ne_nil c cs)
      refine h₀.of_keeps (keeps_provideChannel hchannels hA) (Or.inl ?_)
      rw [provideChannel_fields.2.2.1]
      exact hwaiting
    case isFalse hA => exact h₀.of_keeps ⟨rfl, rfl, rfl, rfl⟩ (Or.inr (Or.inl (Nat.eq_zero_of_not_pos hA)))
  case h_2 hchannels => exact h₀.of_keeps ⟨rfl, rfl, rfl, rfl⟩ (Or.inr (Or.inr hchannels))

theorem Wf.handleConnected (h : Wf n cpe max s) {i : Nat} {identifier : ChannelIdentifier}
    (hid : s.connectingChannels[i]? = some identifier) (ok : Bool) :
    Wf n cpe max ({ s with connectingChannels := s.connectingChannels.eraseIdx i }.handleConnected
      (if ok then .ok identifier else .error identifier)) := by
  obtain ⟨hi, rfl⟩ := List.getElem?_eq_some_iff.mp hid
  have hsplit : (s.connectingChannels : Multiset ChannelIdentifier) =
      s.connectingChannels[i] ::ₘ ↑(s.connectingChannels.eraseIdx i) := by
    rw [Multiset.cons_coe]
    exact Multiset.coe_eq_coe.mpr (List.getElem_cons_eraseIdx_perm hi).symm
  cases ok with
  | true =>
    simp only [↓reduceIte, State.handleConnected]
    apply h.of_keeps _ (served_maybeAvailableConnection _)
    refine Keeps.trans ?_ (keeps_maybeAvailableConnection _)
    refine ⟨?_, rfl, rfl, rfl⟩
    simp only [State.pool, hsplit, coe_append_singleton, Multiset.add_cons, Multiset.cons_add]
  | false =>
    have hmem : s.connectingChannels[i] ∈ s.pool + s.givenUp := by
      rw [State.pool, hsplit]
      simp
    obtain ⟨current, hcur, -⟩ := h.pooled.known _ hmem
    simp only [Bool.false_eq_true, ↓reduceIte, State.handleConnected]
    rw [connectEndpoint_some (s := { s with connectingChannels := s.connectingChannels.eraseIdx i }) hcur]
    refine h.of_keeps ⟨?_, rfl, rfl, rfl⟩ h.served
    simp only [State.pool, hsplit, coe_append_singleton, Multiset.cons_add]

theorem Wf.step (h : Wf n cpe max s) : ∀ event : Event, Wf n cpe max (s.step event)
  | .request _ => h.of_keeps ⟨rfl, rfl, rfl, rfl⟩ h.served
  | .giveUp _ => h.of_keeps ⟨rfl, rfl, rfl, rfl⟩ h.served
  | .serveRequest => by
    dsimp only [State.step]
    split
    case h_1 tx rest _ => exact h.handleWorker tx
    case h_2 => exact h
  | .serveMessage => by
    dsimp only [State.step]
    split
    case h_1 m rest hrx => exact h.handleConnection hrx
    case h_2 => exact h
  | .connectNext i ok => by
    dsimp only [State.step]
    split
    case h_1 identifier hid => exact h.handleConnected hid ok
    case h_2 => exact h
  | .drop i => h.drop i
  | .pollReady i ok => h.pollReady i ok
  | .responseError _ => by
    dsimp only [State.step]
    refine h.of_keeps ⟨?_, ?_, rfl, ?_⟩ h.served
    all_goals simp only [State.pool, State.givenUp, State.permits, List.filterMap_append, List.filterMap_cons,
      List.filterMap_nil, ConnectionRequest.heldChannel, ConnectionRequest.givenUpChannel, List.append_nil,
      List.countP_append, List.countP_cons, List.countP_nil, ConnectionRequest.isDropped, Bool.false_eq_true,
      ↓reduceIte, Nat.add_zero]

/-! ## The state `new` starts from -/

section New

variable {counts : Nat → Nat} {e : Nat}

theorem connectEndpoint_eq (s : State) (e : Nat) (connectionIndex : Option Nat) :
    ∃ endpoints connectingChannels, endpoints.length = s.endpoints.length ∧
      s.connectEndpoint e connectionIndex = { s with endpoints, connectingChannels } := by
  unfold connectEndpoint
  split
  case h_1 => exact ⟨s.endpoints, s.connectingChannels, rfl, rfl⟩
  case h_2 current _ =>
    cases connectionIndex with
    | some _ => exact ⟨s.endpoints, _, rfl, rfl⟩
    | none => exact ⟨_, _, List.length_set .., rfl⟩

theorem length_endpoints_connectEndpoint (s : State) (e : Nat) (connectionIndex : Option Nat) :
    (s.connectEndpoint e connectionIndex).endpoints.length = s.endpoints.length := by
  obtain ⟨_, _, hlen, heq⟩ := connectEndpoint_eq s e connectionIndex
  rw [heq]
  exact hlen

theorem pooled_connectEndpoint (h : Pooled counts (s.pool + s.givenUp) s.endpoints) (he : e < s.endpoints.length) :
    Pooled (Function.update counts e (counts e + 1))
      ((s.connectEndpoint e none).pool + (s.connectEndpoint e none).givenUp) (s.connectEndpoint e none).endpoints := by
  obtain ⟨current, hcur⟩ : ∃ current, s.endpoints[e]? = some current := ⟨_, List.getElem?_eq_getElem he⟩
  rw [connectEndpoint_none hcur]
  have hfresh := h.fresh hcur
  simp only [State.pool, State.givenUp, coe_append_singleton, Multiset.cons_add] at hfresh ⊢
  exact hfresh

theorem pooled_foldl_connectEndpoint : ∀ (attempts : List Nat) {counts : Nat → Nat} {s : State},
    Pooled counts (s.pool + s.givenUp) s.endpoints → e < s.endpoints.length →
    Pooled (Function.update counts e (counts e + attempts.length))
      ((attempts.foldl (fun s _ => s.connectEndpoint e none) s).pool +
        (attempts.foldl (fun s _ => s.connectEndpoint e none) s).givenUp)
      (attempts.foldl (fun s _ => s.connectEndpoint e none) s).endpoints
  | [], counts, s, h, _ => by simpa using h
  | _ :: attempts, counts, s, h, he => by
    have hnext := pooled_foldl_connectEndpoint attempts (pooled_connectEndpoint h he)
      (by rw [length_endpoints_connectEndpoint]; exact he)
    rw [Function.update_idem, Function.update_self] at hnext
    rw [List.foldl_cons, List.length_cons, ← Nat.add_assoc, Nat.add_right_comm]
    exact hnext

theorem length_endpoints_foldl_connectEndpoint (attempts : List Nat) (s : State) :
    (attempts.foldl (fun s _ => s.connectEndpoint e none) s).endpoints.length = s.endpoints.length :=
  EStateM.fold_inv (I := fun t => t.endpoints.length = s.endpoints.length) _
    (fun t _ ht => (length_endpoints_connectEndpoint t e none).trans ht) attempts s rfl

theorem pooled_foldl_endpoints (attempts : Nat) : ∀ (es : List Nat) {counts : Nat → Nat} {s : State},
    Pooled counts (s.pool + s.givenUp) s.endpoints → (∀ e ∈ es, e < s.endpoints.length) →
    Pooled (fun e => counts e + attempts * es.count e)
      ((es.foldl (fun s e => (List.range attempts).foldl (fun s _ => s.connectEndpoint e none) s) s).pool +
        (es.foldl (fun s e => (List.range attempts).foldl (fun s _ => s.connectEndpoint e none) s) s).givenUp)
      (es.foldl (fun s e => (List.range attempts).foldl (fun s _ => s.connectEndpoint e none) s) s).endpoints
  | [], counts, s, h, _ => by simpa using h
  | e :: es, counts, s, h, hes => by
    have hfirst := pooled_foldl_connectEndpoint (List.range attempts) h (hes e List.mem_cons_self)
    rw [List.length_range] at hfirst
    have hnext := pooled_foldl_endpoints attempts es hfirst (fun e' he' => by
      rw [length_endpoints_foldl_connectEndpoint]
      exact hes e' (List.mem_cons_of_mem e he'))
    rw [List.foldl_cons]
    have hcounts : (fun e' => Function.update counts e (counts e + attempts) e' + attempts * es.count e') =
        fun e' => counts e' + attempts * (e :: es).count e' := by
      funext e'
      by_cases he' : e' = e
      case pos =>
        subst he'
        simp only [Function.update_self, List.count_cons_self, Nat.mul_succ]
        omega
      case neg => simp [Function.update_of_ne he', Ne.symm he']
    rw [← hcounts]
    exact hnext

theorem wf_new (n cpe max : Nat) :
    Wf n (if cpe = 0 then 1 else cpe) (if max = 0 then usizeMax else max) (new n cpe max) := by
  unfold new
  dsimp only
  have hattempt : ∀ (e : Nat) (t : State),
      t.permits = (if max = 0 then usizeMax else max) ∧ t.waitingConnections = [] ∧ t.endpoints.length = n →
      (t.connectEndpoint e none).permits = (if max = 0 then usizeMax else max) ∧
        (t.connectEndpoint e none).waitingConnections = [] ∧ (t.connectEndpoint e none).endpoints.length = n := by
    intro e t ht
    obtain ⟨_, _, hlen, heq⟩ := connectEndpoint_eq t e none
    rw [heq]
    exact ⟨ht.1, ht.2.1, hlen.trans ht.2.2⟩
  obtain ⟨hpermits, hwaiting, hlength⟩ := EStateM.fold_inv
    (fun s endpointIndex => (List.range (if cpe = 0 then 1 else cpe)).foldl (fun s _ => s.connectEndpoint endpointIndex none) s)
    (fun t e ht => EStateM.fold_inv _ (fun t _ => hattempt e t) _ t ht) (List.range n)
    ⟨List.replicate n 0, if max = 0 then usizeMax else max, [], [], [], [], [], [], []⟩
    ⟨by simp [State.permits], rfl, List.length_replicate⟩
  have hpooled := @pooled_foldl_endpoints (if cpe = 0 then 1 else cpe) (List.range n) (fun _ => 0)
    ⟨List.replicate n 0, if max = 0 then usizeMax else max, [], [], [], [], [], [], []⟩
    ⟨Multiset.nodup_zero, by simp [State.pool, State.givenUp, pendingChannels], by simp [State.pool, State.givenUp, pendingChannels]⟩
    (fun e he => by simpa using List.mem_range.mp he)
  refine ⟨hpermits, Or.inl hwaiting, hlength, hpooled.congr fun e he => ?_⟩
  rw [hlength] at he
  simp [List.count_eq_one_of_mem List.nodup_range (List.mem_range.mpr he)]

end New

theorem wf_run (n cpe max : Nat) (events : List Event) :
    Wf n (if cpe = 0 then 1 else cpe) (if max = 0 then usizeMax else max) (run n cpe max events) :=
  EStateM.fold_inv State.step (fun _ event h => h.step event) events _ (wf_new n cpe max)

end State

open State

-- In every interleaving of the worker's steps and the clients' actions, from any number of
-- endpoints and limits: the permits at the worker, in live `Connection`s and in `Dropped`s on their
-- way add up to the limit, no request waits while a permit and a channel are there for it, and the
-- channels of each endpoint, counting those a pending `Error` gave up, are distinct and
-- `connections_per_endpoint` many.
theorem permits_and_channels_conserved (numEndpoints connectionsPerEndpoint maxConcurrentRequests : Nat)
    (events : List Event) :
    (run numEndpoints connectionsPerEndpoint maxConcurrentRequests events).permits =
        (if maxConcurrentRequests = 0 then usizeMax else maxConcurrentRequests) ∧
      (run numEndpoints connectionsPerEndpoint maxConcurrentRequests events).Served ∧
      ((run numEndpoints connectionsPerEndpoint maxConcurrentRequests events).pool +
        (run numEndpoints connectionsPerEndpoint maxConcurrentRequests events).givenUp).Nodup ∧
      ∀ e < numEndpoints, ((run numEndpoints connectionsPerEndpoint maxConcurrentRequests events).pool +
          (run numEndpoints connectionsPerEndpoint maxConcurrentRequests events).givenUp).countP
            (·.endpointIndex = e) = (if connectionsPerEndpoint = 0 then 1 else connectionsPerEndpoint) := by
  have h := wf_run numEndpoints connectionsPerEndpoint maxConcurrentRequests events
  refine ⟨h.permits, h.served, h.pooled.nodup, fun e he => h.pooled.count e ?_⟩
  rw [h.length]
  exact he

-- A pending channel whose `poll_ready` fails is out of the pool until the worker takes the
-- `Error`: meanwhile the one endpoint has no channel being connected, available, pending or on its
-- way back, and a later request waits.
theorem pending_error_empties_endpoint :
    (run 1 1 1 [.connectNext 0 true, .request 0, .serveRequest, .pollReady 0 false, .request 1, .serveRequest]).pool = 0 ∧
      (run 1 1 1 [.connectNext 0 true, .request 0, .serveRequest, .pollReady 0 false, .request 1, .serveRequest]).givenUp =
        {⟨0, 1⟩} ∧
      (run 1 1 1 [.connectNext 0 true, .request 0, .serveRequest, .pollReady 0 false, .request 1, .serveRequest]).waitingConnections =
        [1] := by
  decide

end ConnectionManager

end NativeLink
