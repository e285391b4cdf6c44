import NativeLink.Util.StoreTrait

-- Model of `WriteState` and `WriteStateWrapper` in `nativelink-util/src/proto_stream_utils.rs`,
-- which `GrpcStore::write` shares with the tonic client across retries. The wrapper is the stream
-- the client pulls `WriteRequest`s from; it keeps the last two in `cached_messages`, and `resume`
-- copies them into `resume_queue`, from which the next polls are served. The two-slot arrays are
-- pairs whose first component is slot 0. The read stream is generic: one ready poll of it and its
-- `is_first_msg`, and the instance-name rewrite of `poll_next` is the function `rewrite`.

namespace NativeLink.WriteState

-- The stream the client's requests come from, by one ready poll of it and `is_first_msg`.
structure ReadStream (S T : Type) where
  pollNext : S → Option (Except Error T) × S
  isFirstMsg : S → Bool

end WriteState

structure WriteState (S T : Type) where
  readStreamError : Option Error
  readStream : S
  cachedMessages : Option T × Option T
  resumeQueue : Option T × Option T
  isResumed : Bool

namespace WriteState

variable {S T : Type}

def new (readStream : S) : WriteState S T :=
  ⟨none, readStream, (none, none), (none, none), false⟩

-- `cached_messages.swap(0, 1); cached_messages[0] = Some(message)`.
def pushMessage (s : WriteState S T) (message : T) : WriteState S T :=
  let cachedMessages := s.cachedMessages.swap
  { s with cachedMessages := (some message, cachedMessages.2) }

-- The resume queue as a circular buffer of two: swap, then take slot 0; an empty slot ends the
-- replay.
def resumedMessage (s : WriteState S T) : Option T × WriteState S T :=
  if s.isResumed then
    let resumeQueue := s.resumeQueue.swap
    let message := resumeQueue.1
    let s := { s with resumeQueue := (none, resumeQueue.2) }
    if message.isNone then (message, { s with isResumed := false }) else (message, s)
  else (none, s)

def canResume (rs : ReadStream S T) (s : WriteState S T) : Bool :=
  s.readStreamError.isNone && (s.cachedMessages.1.isSome || rs.isFirstMsg s.readStream)

def resume (s : WriteState S T) : WriteState S T :=
  { s with resumeQueue := s.cachedMessages, isResumed := true }

-- The second half of `WriteStateWrapper::poll_next`, once the read stream is ready: its next
-- request after `rewrite`, cached; a stream error or a failed rewrite is kept in
-- `read_stream_error` and ends the stream.
def pollReadStream (rs : ReadStream S T) (rewrite : T → Except Error T) (s : WriteState S T) :
    Option T × WriteState S T :=
  let (maybeMessage, readStream) := rs.pollNext s.readStream
  let s := { s with readStream := readStream }
  match maybeMessage with
  | some (.ok message) =>
    match rewrite message with
    | .ok message => (some message, s.pushMessage message)
    | .error err => (none, { s with readStreamError := some err })
  | some (.error err) => (none, { s with readStreamError := some err })
  | none => (none, s)

-- `WriteStateWrapper::poll_next`: a message of the resume queue, or the read stream's next.
def pollNext (rs : ReadStream S T) (rewrite : T → Except Error T) (s : WriteState S T) :
    Option T × WriteState S T :=
  let (cachedMessage, s) := s.resumedMessage
  if cachedMessage.isSome then (cachedMessage, s) else pollReadStream rs rewrite s

-- `n` polls of the client, with what each returned.
def pollMany (rs : ReadStream S T) (rewrite : T → Except Error T) :
    Nat → WriteState S T → List (Option T) × WriteState S T
  | 0, s => ([], s)
  | n + 1, s =>
    let (item, s) := pollNext rs rewrite s
    let (items, s) := pollMany rs rewrite n s
    (item :: items, s)

/-! ## One poll -/

section Poll

variable {rs : ReadStream S T} {rewrite : T → Except Error T} {s : WriteState S T}

theorem pollReadStream_resumeQueue : (pollReadStream rs rewrite s).2.resumeQueue = s.resumeQueue := by
  rcases hp : rs.pollNext s.readStream with ⟨maybeMessage, readStream⟩
  rcases maybeMessage with _ | (err | message)
  case none => simp [pollReadStream, hp]
  case error => simp [pollReadStream, hp]
  case ok => cases hw : rewrite message <;> simp [pollReadStream, hp, hw, pushMessage]

theorem pollReadStream_isResumed : (pollReadStream rs rewrite s).2.isResumed = s.isResumed := by
  rcases hp : rs.pollNext s.readStream with ⟨maybeMessage, readStream⟩
  rcases maybeMessage with _ | (err | message)
  case none => simp [pollReadStream, hp]
  case error => simp [pollReadStream, hp]
  case ok => cases hw : rewrite message <;> simp [pollReadStream, hp, hw, pushMessage]

theorem pollReadStream_setQueue (q : Option T × Option T) :
    pollReadStream rs rewrite { s with resumeQueue := q } =
      ((pollReadStream rs rewrite s).1, { (pollReadStream rs rewrite s).2 with resumeQueue := q }) := by
  rcases hp : rs.pollNext s.readStream with ⟨maybeMessage, readStream⟩
  rcases maybeMessage with _ | (err | message)
  case none => simp [pollReadStream, hp]
  case error => simp [pollReadStream, hp]
  case ok => cases hw : rewrite message <;> simp [pollReadStream, hp, hw, pushMessage]

theorem pollNext_of_not_resumed (h : s.isResumed = false) :
    pollNext rs rewrite s = pollReadStream rs rewrite s := by
  simp [pollNext, resumedMessage, h]

theorem pollNext_of_resumed_some {m : T} (h : s.isResumed = true) (hq : s.resumeQueue.2 = some m) :
    pollNext rs rewrite s = (some m, { s with resumeQueue := (none, s.resumeQueue.1) }) := by
  simp [pollNext, resumedMessage, h, hq]

theorem pollNext_of_resumed_none (h : s.isResumed = true) (hq : s.resumeQueue.2 = none) :
    pollNext rs rewrite s =
      pollReadStream rs rewrite { s with resumeQueue := (none, s.resumeQueue.1), isResumed := false } := by
  simp [pollNext, resumedMessage, h, hq]

end Poll

/-! ## Runs of polls -/

section Many

variable {rs : ReadStream S T} {rewrite : T → Except Error T}

theorem pollMany_succ (n : Nat) (s : WriteState S T) :
    (pollMany rs rewrite (n + 1) s).1 =
      (pollNext rs rewrite s).1 :: (pollMany rs rewrite n (pollNext rs rewrite s).2).1 := rfl

theorem yields_eq_of_pollNext_eq {s s' : WriteState S T} (h : pollNext rs rewrite s = pollNext rs rewrite s')
    (n : Nat) : (pollMany rs rewrite n s).1 = (pollMany rs rewrite n s').1 := by
  cases n with
  | zero => rfl
  | succ n => rw [pollMany_succ, pollMany_succ, h]

theorem yields_setQueue (q : Option T × Option T) :
    ∀ (n : Nat) (s : WriteState S T), s.isResumed = false →
      (pollMany rs rewrite n { s with resumeQueue := q }).1 = (pollMany rs rewrite n s).1
  | 0, _, _ => rfl
  | n + 1, s, h => by
    have h' : ({ s with resumeQueue := q } : WriteState S T).isResumed = false := h
    have hnext : (pollReadStream rs rewrite s).2.isResumed = false := by rw [pollReadStream_isResumed, h]
    rw [pollMany_succ, pollMany_succ, pollNext_of_not_resumed h', pollNext_of_not_resumed h,
      pollReadStream_setQueue, yields_setQueue q n _ hnext]

theorem yields_quiet_congr (n : Nat) {t t' : WriteState S T} (ht : t.isResumed = false)
    (ht' : t'.isResumed = false) (herr : t.readStreamError = t'.readStreamError)
    (hstream : t.readStream = t'.readStream) (hcached : t.cachedMessages = t'.cachedMessages) :
    (pollMany rs rewrite n t).1 = (pollMany rs rewrite n t').1 := by
  have heq : t' = { t with resumeQueue := t'.resumeQueue } := by
    cases t
    cases t'
    simp_all
  calc (pollMany rs rewrite n t).1
      = (pollMany rs rewrite n { t with resumeQueue := t'.resumeQueue }).1 := (yields_setQueue _ n t ht).symm
    _ = (pollMany rs rewrite n t').1 := by rw [← heq]

theorem yields_drained {s : WriteState S T} (h : s.isResumed = true) (hq : s.resumeQueue = (none, none))
    (n : Nat) : (pollMany rs rewrite n s).1 = (pollMany rs rewrite n { s with isResumed := false }).1 := by
  apply yields_eq_of_pollNext_eq
  have hnot : ({ s with isResumed := false } : WriteState S T).isResumed = false := rfl
  rw [pollNext_of_resumed_none h (by rw [hq]), pollNext_of_not_resumed hnot, hq]

end Many

/-! ## What `resume` replays -/

-- The messages a resume serves before the read stream again: slot 1 of the cached pair, then
-- slot 0, up to the first empty one.
def replay (s : WriteState S T) : List T :=
  match s.cachedMessages.2 with
  | none => []
  | some previous => previous :: s.cachedMessages.1.toList

section Resume

variable {rs : ReadStream S T} {rewrite : T → Except Error T}

theorem yields_resume (s : WriteState S T) (n : Nat) :
    (pollMany rs rewrite ((replay s).length + n) (resume s)).1 =
      (replay s).map some ++ (pollMany rs rewrite n { s with isResumed := false }).1 := by
  have hr : (resume s).isResumed = true := rfl
  cases h1 : s.cachedMessages.2 with
  | none =>
    have hfirst : pollNext rs rewrite (resume s) =
        pollNext rs rewrite { s with resumeQueue := (none, s.cachedMessages.1), isResumed := false } := by
      rw [pollNext_of_resumed_none hr h1, pollNext_of_not_resumed rfl]
      rfl
    rw [show replay s = [] by simp [replay, h1], List.length_nil, Nat.zero_add, List.map_nil,
      List.nil_append, yields_eq_of_pollNext_eq hfirst]
    exact yields_quiet_congr n rfl rfl rfl rfl rfl
  | some previous =>
    rw [show replay s = previous :: s.cachedMessages.1.toList by simp [replay, h1], List.length_cons,
      Nat.add_right_comm, pollMany_succ, pollNext_of_resumed_some hr h1, List.map_cons, List.cons_append]
    congr 1
    cases h0 : s.cachedMessages.1 with
    | none =>
      have hdrained : (none, (resume s).resumeQueue.1) = ((none, none) : Option T × Option T) := by
        rw [show (resume s).resumeQueue.1 = s.cachedMessages.1 from rfl, h0]
      rw [Option.toList_none, List.length_nil, Nat.zero_add, List.map_nil, List.nil_append,
        yields_drained rfl hdrained]
      exact yields_quiet_congr n rfl rfl rfl rfl rfl
    | some latest =>
      have hq1 : ((none, (resume s).resumeQueue.1) : Option T × Option T).2 = some latest := h0
      rw [Option.toList_some, List.length_singleton, Nat.add_comm 1 n, List.map_cons, List.map_nil,
        List.singleton_append, pollMany_succ, pollNext_of_resumed_some rfl hq1]
      congr 1
      exact (yields_drained rfl rfl n).trans (yields_quiet_congr n rfl rfl rfl rfl rfl)

end Resume

/-! ## The cached pair over a run -/

-- The cached pair holds the last request pulled from the read stream, then the one before it.
def Tracks (s : WriteState S T) (pulled : List T) : Prop :=
  s.cachedMessages = (pulled.getLast?, pulled.dropLast.getLast?)

-- What a poll took from the read stream: nothing when the resume queue served it.
def pulledBy (rs : ReadStream S T) (rewrite : T → Except Error T) (s : WriteState S T) : Option T :=
  if s.resumedMessage.1.isSome then none else (pollReadStream rs rewrite s.resumedMessage.2).1

-- A poll of the client, or a failed attempt after which `GrpcStore::write` resumes.
inductive Event
  | poll
  | resume

-- The state after the events, with the requests pulled from the read stream on the way.
def run (rs : ReadStream S T) (rewrite : T → Except Error T) :
    List Event → List T × WriteState S T → List T × WriteState S T
  | [], r => r
  | .poll :: events, (pulled, s) =>
    run rs rewrite events (pulled ++ (pulledBy rs rewrite s).toList, (pollNext rs rewrite s).2)
  | .resume :: events, (pulled, s) => run rs rewrite events (pulled, resume s)

section Tracks

variable {rs : ReadStream S T} {rewrite : T → Except Error T} {s : WriteState S T} {pulled : List T}

theorem tracks_new (readStream : S) : Tracks (new readStream : WriteState S T) [] := rfl

theorem Tracks.pushMessage (h : Tracks s pulled) (m : T) : Tracks (s.pushMessage m) (pulled ++ [m]) := by
  rw [Tracks] at h ⊢
  simp [WriteState.pushMessage, h]

theorem Tracks.resume (h : Tracks s pulled) : Tracks (resume s) pulled := h

theorem resumedMessage_cachedMessages : s.resumedMessage.2.cachedMessages = s.cachedMessages := by
  unfold resumedMessage
  split
  case isTrue =>
    dsimp only
    split <;> rfl
  case isFalse => rfl

theorem Tracks.pollReadStream (h : Tracks s pulled) :
    Tracks (pollReadStream rs rewrite s).2 (pulled ++ (pollReadStream rs rewrite s).1.toList) := by
  rcases hp : rs.pollNext s.readStream with ⟨maybeMessage, readStream⟩
  rcases maybeMessage with _ | (err | message)
  case none => simpa [WriteState.pollReadStream, hp, Tracks] using h
  case error => simpa [WriteState.pollReadStream, hp, Tracks] using h
  case ok =>
    cases hw : rewrite message with
    | error err => simpa [WriteState.pollReadStream, hp, hw, Tracks] using h
    | ok message' =>
      simpa [WriteState.pollReadStream, hp, hw] using h.pushMessage (s := { s with readStream := readStream }) message'

theorem Tracks.pollNext (h : Tracks s pulled) :
    Tracks (pollNext rs rewrite s).2 (pulled ++ (pulledBy rs rewrite s).toList) := by
  have hkept : Tracks s.resumedMessage.2 pulled := by
    rw [Tracks, resumedMessage_cachedMessages]
    exact h
  have hpoll : WriteState.pollNext rs rewrite s =
      if s.resumedMessage.1.isSome then s.resumedMessage
      else WriteState.pollReadStream rs rewrite s.resumedMessage.2 := rfl
  rw [hpoll, pulledBy]
  split
  case isTrue => simpa using hkept
  case isFalse => exact hkept.pollReadStream

theorem Tracks.run (events : List Event) (h : Tracks s pulled) :
    Tracks (run rs rewrite events (pulled, s)).2 (run rs rewrite events (pulled, s)).1 := by
  induction events generalizing pulled s with
  | nil => exact h
  | cons event events ih =>
    cases event with
    | poll => exact ih h.pollNext
    | resume => exact ih h.resume

theorem replay_of_tracks (h : Tracks s pulled) :
    replay s = if 2 ≤ pulled.length then pulled.drop (pulled.length - 2) else [] := by
  rw [Tracks] at h
  rcases List.eq_nil_or_concat pulled with rfl | ⟨init, latest, rfl⟩
  case inl => simp [replay, h]
  case inr =>
    rcases List.eq_nil_or_concat init with rfl | ⟨init', previous, rfl⟩
    case inl => simp [replay, h]
    case inr =>
      simp only [List.concat_eq_append] at h ⊢
      have hdrop : (init' ++ [previous] ++ [latest]).drop ((init' ++ [previous] ++ [latest]).length - 2) =
          [previous, latest] := by
        simp
      rw [if_pos (by simp), hdrop]
      simp [replay, h]

theorem yields_resume_after_run (events : List Event) (readStream : S) (n : Nat) :
    let r := run rs rewrite events ([], new readStream)
    let replayed := if 2 ≤ r.1.length then r.1.drop (r.1.length - 2) else []
    (pollMany rs rewrite (replayed.length + n) (resume r.2)).1 =
      replayed.map some ++ (pollMany rs rewrite n { r.2 with isResumed := false }).1 := by
  intro r replayed
  have htracks : Tracks r.2 r.1 := Tracks.run events (tracks_new readStream)
  rw [show replayed = replay r.2 from (replay_of_tracks htracks).symm]
  exact yields_resume r.2 n

end Tracks

/-! ## A single request pulled before the failure -/

section One

variable {rs : ReadStream S T} {rewrite : T → Except Error T}

-- With one request pulled, `can_resume` holds, but the swap in `resumed_message` meets the empty
-- slot first: the replay ends at once and the client is served the read stream's second request.
theorem resume_after_one_request_skips_it (s₀ s₁ s₂ : S) (m₁ m₁' m₂ m₂' : T)
    (h₁ : rs.pollNext s₀ = (some (.ok m₁), s₁)) (hw₁ : rewrite m₁ = .ok m₁')
    (h₂ : rs.pollNext s₁ = (some (.ok m₂), s₂)) (hw₂ : rewrite m₂ = .ok m₂') :
    (pollNext rs rewrite (new s₀)).1 = some m₁' ∧
      canResume rs (pollNext rs rewrite (new s₀)).2 = true ∧
      (pollNext rs rewrite (resume (pollNext rs rewrite (new s₀)).2)).1 = some m₂' := by
  have hfirst : pollNext rs rewrite (new s₀) =
      (some m₁', ⟨none, s₁, (some m₁', none), (none, none), false⟩) := by
    rw [pollNext_of_not_resumed rfl]
    simp [pollReadStream, h₁, hw₁, new, pushMessage]
  have hresumed : (resume (pollNext rs rewrite (new s₀)).2).isResumed = true := rfl
  have hslot : (resume (pollNext rs rewrite (new s₀)).2).resumeQueue.2 = none := by rw [hfirst]; rfl
  refine ⟨by rw [hfirst], by rw [hfirst]; rfl, ?_⟩
  rw [pollNext_of_resumed_none hresumed hslot, hfirst]
  simp [pollReadStream, resume, h₂, hw₂]

theorem resume_after_one_request_skips_it_of_list :
    let rs : ReadStream (List Nat) Nat := ⟨fun l => (l.head?.map .ok, l.tail), fun _ => false⟩
    (rs.pollNext [1, 2] = (some (.ok 1), [2]) ∧ (Except.ok 1 : Except Error Nat) = .ok 1 ∧
      rs.pollNext [2] = (some (.ok 2), []) ∧ (Except.ok 2 : Except Error Nat) = .ok 2) ∧
      (pollNext rs .ok (resume (pollNext rs .ok (new [1, 2])).2)).1 = some 2 :=
  ⟨⟨rfl, rfl, rfl, rfl⟩, (resume_after_one_request_skips_it [1, 2] [2] [] 1 1 2 2 rfl rfl rfl rfl).2.2⟩

end One

end WriteState

end NativeLink
