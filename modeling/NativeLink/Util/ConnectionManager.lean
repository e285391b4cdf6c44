import NativeLink.Lib.Invariant
import Mathlib

-- `nativelink-util/src/connection_manager.rs`. A worker keeps a pool of channels to the endpoints
-- and a number of permits; `connection()` asks it for a `Connection`, which holds one permit and,
-- until its first successful `poll_ready`, one channel of the pool. What the clients do reaches
-- the worker as messages on an unbounded channel: `Connected` and `Dropped` bring a channel back,
-- `Dropped` brings the permit back, and `Error` asks for a channel to be replaced. The worker's
-- `select!` takes a request, a message or a finished connection attempt, one at a time; the
-- clients act in between, in any order. A channel is known by its `ChannelIdentifier`.

namespace NativeLink

namespace ConnectionManager

def usizeMax : Nat := 2 ^ 64 - 1

structure ChannelIdentifier where
  endpointIndex : Nat
  connectionIndex : Nat
  deriving DecidableEq, Repr

inductive ConnectionRequest
  | dropped (channel : Option ChannelIdentifier)
  | connected (channel : ChannelIdentifier)
  | error (identifier : ChannelIdentifier) (wasPending : Bool)
  deriving DecidableEq, Repr

-- A `Connection`: its channel, and whether `pending_channel` still holds it for the pool.
structure Connection where
  pendingChannel : Bool
  channel : ChannelIdentifier
  deriving DecidableEq, Repr

-- The worker's fields, then the two channels into it and the `Connection`s the clients hold. A
-- request is its requester's number; `gaveUp` lists the requesters that dropped their receiver.
structure State where
  endpoints : List Nat
  availableConnections : Nat
  connectingChannels : List ChannelIdentifier
  availableChannels : List ChannelIdentifier
  waitingConnections : List Nat
  workerRx : List Nat
  connectionRx : List ConnectionRequest
  connections : List Connection
  gaveUp : List Nat
  deriving Repr

inductive Event
  -- `connection()` sends the requester's oneshot to the worker
  | request (tx : Nat)
  -- the requester stops waiting and drops its receiver
  | giveUp (tx : Nat)
  -- the branches of the worker's `select!`
  | serveRequest
  | serveMessage
  | connectNext (i : Nat) (ok : Bool)
  -- a `Connection` is dropped, or its `poll_ready` is ready
  | drop (i : Nat)
  | pollReady (i : Nat) (ok : Bool)
  -- a `ResponseFuture` of a call on a channel fails
  | responseError (identifier : ChannelIdentifier)
  deriving DecidableEq, Repr

namespace State

/-! ## The worker -/

-- `connect_endpoint`: a connection attempt to the endpoint, under the next index unless it
-- retries one.
def connectEndpoint (s : State) (endpointIndex : Nat) (connectionIndex : Option Nat) : State :=
  match s.endpoints[endpointIndex]? with
  | none => s
  | some currentConnectionIndex =>
    let (endpoints, connectionIndex) := match connectionIndex with
      | some connectionIndex => (s.endpoints, connectionIndex)
      | none => (s.endpoints.set endpointIndex (currentConnectionIndex + 1), currentConnectionIndex + 1)
    { s with endpoints, connectingChannels := s.connectingChannels ++ [⟨endpointIndex, connectionIndex⟩] }

-- `provide_channel`. When the requester has given up, `send` hands the `Connection` back and it
-- is dropped at once, which sends `Dropped` with its channel.
def provideChannel (s : State) (channel : ChannelIdentifier) (tx : Nat) : State :=
  let s := { s with availableConnections := s.availableConnections - 1 }
  if tx ∈ s.gaveUp then { s with connectionRx := s.connectionRx ++ [.dropped (some channel)] }
  else { s with connections := s.connections ++ [⟨true, channel⟩] }

-- The `while` of `maybe_available_connection`; each round serves a waiting request, so there are
-- at most as many rounds as requests wait.
def maybeAvailableLoop : Nat → State → State
  | 0, s => s
  | fuel + 1, s =>
    if 0 < s.availableConnections ∧ s.waitingConnections ≠ [] ∧ s.availableChannels ≠ [] then
      match s.availableChannels, s.waitingConnections with
      | channel :: availableChannels, tx :: waitingConnections =>
        maybeAvailableLoop fuel ({ s with availableChannels, waitingConnections }.provideChannel channel tx)
      | _, _ => s
    else s

def maybeAvailableConnection (s : State) : State :=
  maybeAvailableLoop s.waitingConnections.length s

-- `handle_worker`.
def handleWorker (s : State) (tx : Nat) : State :=
  match s.availableChannels with
  | channel :: availableChannels =>
    if 0 < s.availableConnections then { s with availableChannels }.provideChannel channel tx
    else { s with waitingConnections := s.waitingConnections ++ [tx] }
  | [] => { s with waitingConnections := s.waitingConnections ++ [tx] }

-- `handle_connected`: the result of a connection attempt, `Err` with the identifier it retries.
def handleConnected (s : State) : Except ChannelIdentifier ChannelIdentifier → State
  | .ok channel => { s with availableChannels := s.availableChannels ++ [channel] }.maybeAvailableConnection
  | .error identifier => s.connectEndpoint identifier.endpointIndex (some identifier.connectionIndex)

-- `handle_connection`. An `Error` for a channel already back in the pool reconnects only if the
-- `retain` took the channel out, so that errors on one channel reconnect it once.
def handleConnection (s : State) : ConnectionRequest → State
  | .dropped maybeChannel =>
    let s := match maybeChannel with
      | some channel => { s with availableChannels := s.availableChannels ++ [channel] }
      | none => s
    { s with availableConnections := s.availableConnections + 1 }.maybeAvailableConnection
  | .connected channel => { s with availableChannels := s.availableChannels ++ [channel] }.maybeAvailableConnection
  | .error identifier wasPending =>
    let retained := s.availableChannels.filter (· != identifier)
    let (s, shouldReconnect) :=
      if wasPending then (s, true)
      else ({ s with availableChannels := retained }, s.availableChannels.length != retained.length)
    if shouldReconnect then s.connectEndpoint identifier.endpointIndex none else s

/-! ## The clients -/

-- `Drop for Connection`.
def drop (s : State) (i : Nat) : State :=
  match s.connections[i]? with
  | none => s
  | some connection =>
    { s with
      connections := s.connections.eraseIdx i
      connectionRx := s.connectionRx ++ [.dropped (if connection.pendingChannel then some connection.channel else none)] }

-- `poll_ready` once the channel is ready: the first `Ok` returns the channel to the pool, an `Err`
-- reports it, saying whether the channel was still pending.
def pollReady (s : State) (i : Nat) (ok : Bool) : State :=
  match s.connections[i]? with
  | none => s
  | some connection =>
    let connections := s.connections.set i { connection with pendingChannel := false }
    if ok then
      if connection.pendingChannel then
        { s with connections, connectionRx := s.connectionRx ++ [.connected connection.channel] }
      else s
    else
      { s with connections, connectionRx := s.connectionRx ++ [.error connection.channel connection.pendingChannel] }

def step (s : State) : Event → State
  | .request tx => { s with workerRx := s.workerRx ++ [tx] }
  | .giveUp tx => { s with gaveUp := s.gaveUp ++ [tx] }
  | .serveRequest =>
    match s.workerRx with
    | tx :: workerRx => { s with workerRx }.handleWorker tx
    | [] => s
  | .serveMessage =>
    match s.connectionRx with
    | request :: connectionRx => { s with connectionRx }.handleConnection request
    | [] => s
  | .connectNext i ok =>
    match s.connectingChannels[i]? with
    | some identifier =>
      { s with connectingChannels := s.connectingChannels.eraseIdx i }.handleConnected
        (if ok then .ok identifier else .error identifier)
    | none => s
  | .drop i => s.drop i
  | .pollReady i ok => s.pollReady i ok
  | .responseError identifier => { s with connectionRx := s.connectionRx ++ [.error identifier false] }

-- `ConnectionManager::new` and the attempts `service_requests` starts before its loop: a limit of
-- `0` means `usize::MAX`, and at least one connection per endpoint.
def new (numEndpoints connectionsPerEndpoint maxConcurrentRequests : Nat) : State :=
  let maxConcurrentRequests := if maxConcurrentRequests = 0 then usizeMax else maxConcurrentRequests
  let connectionsPerEndpoint := if connectionsPerEndpoint = 0 then 1 else connectionsPerEndpoint
  (List.range numEndpoints).foldl
    (fun s endpointIndex => (List.range connectionsPerEndpoint).foldl (fun s _ => s.connectEndpoint endpointIndex none) s)
    ⟨List.replicate numEndpoints 0, maxConcurrentRequests, [], [], [], [], [], [], []⟩

end State

def run (numEndpoints connectionsPerEndpoint maxConcurrentRequests : Nat) (events : List Event) : State :=
  events.foldl State.step (State.new numEndpoints connectionsPerEndpoint maxConcurrentRequests)

/-! ## The channels of the endpoints -/

namespace ConnectionRequest

-- The channel a message brings back to the pool.
def heldChannel : ConnectionRequest → Option ChannelIdentifier
  | .dropped channel => channel
  | .connected channel => some channel
  | .error _ _ => none

def isDropped : ConnectionRequest → Bool
  | .dropped _ => true
  | _ => false

-- The channel an `Error` gives up because it was still pending.
def givenUpChannel : ConnectionRequest → Option ChannelIdentifier
  | .error identifier true => some identifier
  | _ => none

end ConnectionRequest

theorem coe_append_singleton {α : Type} (l : List α) (a : α) :
    ((l ++ [a] : List α) : Multiset α) = a ::ₘ (l : Multiset α) := by
  rw [Multiset.coe_eq_coe.mpr (List.perm_append_singleton a l)]
  rfl

-- What holds of a collection of channels: no identifier twice, each under an index its endpoint
-- has already handed out, and `counts e` of them for each endpoint `e`.
structure Pooled (counts : Nat → Nat) (channels : Multiset ChannelIdentifier) (endpoints : List Nat) : Prop where
  nodup : channels.Nodup
  known : ∀ c ∈ channels, ∃ current, endpoints[c.endpointIndex]? = some current ∧ c.connectionIndex ≤ current
  count : ∀ e < endpoints.length, channels.countP (·.endpointIndex = e) = counts e

section Pooled

variable {counts : Nat → Nat} {channels : Multiset ChannelIdentifier} {endpoints : List Nat}

theorem Pooled.fresh (h : Pooled counts channels endpoints) {e current : Nat} (hcur : endpoints[e]? = some current) :
    Pooled (Function.update counts e (counts e + 1)) (⟨e, current + 1⟩ ::ₘ channels)
      (endpoints.set e (current + 1)) where
  nodup := by
    rw [Multiset.nodup_cons]
    refine ⟨fun hmem => ?_, h.nodup⟩
    obtain ⟨current', hcur', hle⟩ := h.known _ hmem
    rw [hcur] at hcur'
    cases hcur'
    exact absurd hle (by simp)
  known := by
    intro c hc
    rw [Multiset.mem_cons] at hc
    rcases hc with rfl | hc
    case inl =>
      have he : e < endpoints.length := (List.getElem?_eq_some_iff.mp hcur).1
      exact ⟨current + 1, List.getElem?_set_self he, Nat.le_refl _⟩
    case inr =>
      obtain ⟨current', hcur', hle⟩ := h.known c hc
      by_cases he : c.endpointIndex = e
      case pos =>
        rw [he, hcur] at hcur'
        cases hcur'
        rw [he]
        exact ⟨current + 1, List.getElem?_set_self (List.getElem?_eq_some_iff.mp hcur).1, by omega⟩
      case neg => exact ⟨current', by rw [List.getElem?_set_ne (Ne.symm he)]; exact hcur', hle⟩
  count := by
    intro e' he'
    rw [List.length_set] at he'
    rw [Multiset.countP_cons, h.count e' he']
    by_cases he : e' = e
    case pos =>
      subst he
      simp
    case neg => simp [Function.update_of_ne he, Ne.symm he]

theorem Pooled.erase (h : Pooled counts channels endpoints) {old : ChannelIdentifier} (hold : old ∈ channels) :
    Pooled (Function.update counts old.endpointIndex (counts old.endpointIndex - 1)) (channels.erase old) endpoints where
  nodup := h.nodup.erase old
  known := fun c hc => h.known c (Multiset.mem_of_mem_erase hc)
  count := by
    intro e he
    have hcount := h.count e he
    rw [← Multiset.cons_erase hold, Multiset.countP_cons] at hcount
    by_cases hold' : old.endpointIndex = e
    case pos =>
      subst hold'
      rw [if_pos rfl] at hcount
      rw [Function.update_self]
      omega
    case neg =>
      rw [if_neg hold', Nat.add_zero] at hcount
      rw [Function.update_of_ne (Ne.symm hold'), hcount]

theorem Pooled.renew (h : Pooled counts channels endpoints) {old : ChannelIdentifier} (hold : old ∈ channels)
    {current : Nat} (hcur : endpoints[old.endpointIndex]? = some current) :
    Pooled counts (⟨old.endpointIndex, current + 1⟩ ::ₘ channels.erase old) (endpoints.set old.endpointIndex (current + 1)) := by
  have hpos : 0 < counts old.endpointIndex := by
    have hcount := h.count old.endpointIndex (List.getElem?_eq_some_iff.mp hcur).1
    rw [← hcount]
    exact Multiset.countP_pos.mpr ⟨old, hold, by simp⟩
  have hrenew := (h.erase hold).fresh hcur
  have hcounts : Function.update (Function.update counts old.endpointIndex (counts old.endpointIndex - 1))
      old.endpointIndex (Function.update counts old.endpointIndex (counts old.endpointIndex - 1) old.endpointIndex + 1) =
      counts := by
    funext e
    by_cases he : e = old.endpointIndex
    case pos =>
      subst he
      simp only [Function.update_self]
      omega
    case neg => simp [Function.update_of_ne he]
  rwa [hcounts] at hrenew

theorem Pooled.congr {counts' : Nat → Nat} (h : Pooled counts channels endpoints)
    (hcounts : ∀ e < endpoints.length, counts e = counts' e) : Pooled counts' channels endpoints where
  nodup := h.nodup
  known := h.known
  count := fun e he => (h.count e he).trans (hcounts e he)

end Pooled

end ConnectionManager

end NativeLink
