import NativeLink.Util.StoreTrait
import Mathlib

-- `Retrier::retry` of `nativelink-util/src/retry.rs`, which the gRPC, S3 and Redis stores, the gRPC
-- scheduler and the connection manager run their requests through. The operation is a stream of
-- attempts, `operation i` the result of its `i`-th poll (`none` once the stream has ended). The
-- retrier polls it until an attempt succeeds, fails for good or its retries run out, and between
-- two attempts it sleeps for the next delay of an exponential backoff passed through the jitter
-- function. A run is the list of the sleeps and the result, `none` for the panic of the backoff's
-- multiplication. Durations are in nanoseconds; the `f32` fields of the configuration are given by
-- their exact values.

namespace NativeLink

-- `Duration`, in nanoseconds.
abbrev Duration := Nat

-- `Duration::MAX`: `u64::MAX` seconds and 999 999 999 nanoseconds.
def durationMax : Duration := u64Max * 10 ^ 9 + 999999999

-- `Duration::from_millis`.
def fromMillis (millis : Nat) : Duration := millis * 10 ^ 6

-- `x as u64` of an `f32`: rounded toward zero into `0..=u64::MAX`.
def f32AsU64 (x : ℚ) : Nat := min ⌊x⌋.toNat u64Max

-- `nativelink_config::stores::ErrorCode`.
inductive ErrorCode
  | cancelled | unknown | invalidArgument | deadlineExceeded | notFound | alreadyExists
  | permissionDenied | resourceExhausted | failedPrecondition | aborted | outOfRange
  | unimplemented | internal | unavailable | dataLoss | unauthenticated
  deriving DecidableEq

-- `nativelink_config::stores::Retry`; `delay` is documented in seconds.
structure Retry where
  maxRetries : Nat
  delay : ℚ
  jitter : ℚ
  retryOnErrors : Option (List ErrorCode)

-- `RetryResult`: what one attempt of the operation gives.
inductive RetryResult (α : Type)
  | ok (value : α)
  | retry (err : Error)
  | err (err : Error)

namespace Retrier

-- `to_error_code`.
def toErrorCode : Code → ErrorCode
  | .cancelled => .cancelled
  | .invalidArgument => .invalidArgument
  | .deadlineExceeded => .deadlineExceeded
  | .notFound => .notFound
  | .alreadyExists => .alreadyExists
  | .permissionDenied => .permissionDenied
  | .resourceExhausted => .resourceExhausted
  | .failedPrecondition => .failedPrecondition
  | .aborted => .aborted
  | .outOfRange => .outOfRange
  | .unimplemented => .unimplemented
  | .internal => .internal
  | .unavailable => .unavailable
  | .dataLoss => .dataLoss
  | .unauthenticated => .unauthenticated
  | .ok | .unknown => .unknown

variable {α : Type} (config : Retry) (jitterFn : Duration → Duration) (operation : Nat → Option (RetryResult α))

-- `Retrier::should_retry`: whether an error is temporary.
def shouldRetry (code : Code) : Bool :=
  if code = .ok then false
  else
    match config.retryOnErrors with
    | some retryCodes => retryCodes.contains (toErrorCode code)
    | none =>
      match code with
      | .invalidArgument | .failedPrecondition | .outOfRange | .unimplemented | .notFound
      | .alreadyExists | .permissionDenied | .unauthenticated => false
      | _ => true

-- The loop of `retry` at the poll with index `attempt` (the source counts it as `attempt + 1`), with
-- `remaining` delays left in `take(max_retries)` and the backoff at `current`. `take` stops asking
-- the backoff once it is exhausted, so the last doubling happens on the last retry.
def retryLoop : (remaining attempt : Nat) → (current : Duration) → List Duration × Option (Except Error α)
  | remaining, attempt, current =>
    match operation attempt with
    | none => ([], some (.error (Error.new .internal s!"Retry stream ended abruptly on attempt {attempt + 1}")))
    | some (.ok value) => ([], some (.ok value))
    | some (.err e) => ([], some (.error (e.append s!"On attempt {attempt + 1}")))
    | some (.retry err) =>
      if !shouldRetry config err.code then ([], some (.error err))
      else
        match remaining with
        | 0 => ([], some (.error (err.append s!"On attempt {attempt + 1}")))
        | remaining + 1 =>
          -- `ExponentialBackoff::next` doubles the delay before it returns it; `Duration *= 2`
          -- panics past `Duration::MAX`
          if current * 2 ≤ durationMax then
            let rest := retryLoop remaining (attempt + 1) (current * 2)
            (jitterFn (current * 2) :: rest.1, rest.2)
          else ([], none)

-- `Retrier::retry`: the backoff starts at `Duration::from_millis(delay as u64)`.
def retry : List Duration × Option (Except Error α) :=
  retryLoop config jitterFn operation config.maxRetries 0 (fromMillis (f32AsU64 config.delay))

-- Whether an attempt's result makes the retrier try again, retries left.
def Retries : Option (RetryResult α) → Bool
  | some (.retry err) => shouldRetry config err.code
  | _ => false

/-! ## The backoff schedule -/

-- What `get_retry_config` yields when no doubling overflows: the delays of `ExponentialBackoff`
-- from `base`, each passed through the jitter function, `take(n)` of them.
def backoffSchedule (base : Duration) (n : Nat) : List Duration :=
  (List.range n).map fun i => jitterFn (base * 2 ^ (i + 1))

theorem double_mul_two_pow (current : Duration) (n : Nat) : current * 2 * 2 ^ n = current * 2 ^ (n + 1) := by
  rw [Nat.pow_succ', Nat.mul_assoc]

theorem backoffSchedule_succ (base : Duration) (n : Nat) :
    backoffSchedule jitterFn base (n + 1) = jitterFn (base * 2) :: backoffSchedule jitterFn (base * 2) n := by
  have hpow : ∀ i, base * 2 ^ (i + 1 + 1) = base * 2 * 2 ^ (i + 1) := fun i =>
    (double_mul_two_pow base (i + 1)).symm
  simp only [backoffSchedule, List.range_succ_eq_map, List.map_cons, List.map_map, Function.comp_def, hpow]
  simp

/-! ## One turn of the loop -/

section Turn

variable {config operation} {attempt : Nat} (remaining : Nat) (current : Duration)

theorem retryLoop_of_not_retries (h : Retries config (operation attempt) = false) :
    ∃ result, retryLoop config jitterFn operation remaining attempt current = ([], some result) ∧
      ∀ value, result = .ok value ↔ operation attempt = some (.ok value) := by
  rw [retryLoop]
  cases hop : operation attempt with
  | none => exact ⟨_, rfl, fun _ => by simp⟩
  | some result =>
    rw [hop] at h
    cases result with
    | ok value => exact ⟨_, rfl, fun _ => by simp⟩
    | err e => exact ⟨_, rfl, fun _ => by simp⟩
    | retry e =>
      have hstop : shouldRetry config e.code = false := h
      refine ⟨.error e, ?_, fun _ => by simp⟩
      simp only [hstop, Bool.not_false, if_true]

theorem retryLoop_of_retries_zero (h : Retries config (operation attempt) = true) :
    ∃ err, operation attempt = some (.retry err) ∧
      retryLoop config jitterFn operation 0 attempt current =
        ([], some (.error (err.append s!"On attempt {attempt + 1}"))) := by
  cases hop : operation attempt with
  | none => rw [hop] at h; cases h
  | some result =>
    rw [hop] at h
    cases result with
    | retry e =>
      have hretry : shouldRetry config e.code = true := h
      refine ⟨e, rfl, ?_⟩
      rw [retryLoop, hop]
      simp only [hretry, Bool.not_true]
      rfl
    | ok _ | err _ => cases h

theorem retryLoop_of_retries_succ (h : Retries config (operation attempt) = true) :
    retryLoop config jitterFn operation (remaining + 1) attempt current =
      if current * 2 ≤ durationMax then
        (jitterFn (current * 2) :: (retryLoop config jitterFn operation remaining (attempt + 1) (current * 2)).1,
          (retryLoop config jitterFn operation remaining (attempt + 1) (current * 2)).2)
      else ([], none) := by
  cases hop : operation attempt with
  | none => rw [hop] at h; cases h
  | some result =>
    rw [hop] at h
    cases result with
    | retry e =>
      have hretry : shouldRetry config e.code = true := h
      rw [retryLoop, hop]
      simp only [hretry, Bool.not_true]
      rfl
    | ok _ | err _ => cases h

end Turn

/-! ## Whole runs of the loop -/

section Run

variable {config operation}

theorem retryLoop_induction {motive : Nat → Nat → Duration → Prop}
    (stop : ∀ remaining attempt current, Retries config (operation attempt) = false →
      motive remaining attempt current)
    (exhausted : ∀ attempt current, Retries config (operation attempt) = true → motive 0 attempt current)
    (backoff : ∀ remaining attempt current, Retries config (operation attempt) = true →
      motive remaining (attempt + 1) (current * 2) → motive (remaining + 1) attempt current)
    (remaining attempt : Nat) (current : Duration) : motive remaining attempt current := by
  induction remaining generalizing attempt current with
  | zero =>
    cases hr : Retries config (operation attempt)
    · exact stop 0 attempt current hr
    · exact exhausted attempt current hr
  | succ remaining ih =>
    cases hr : Retries config (operation attempt)
    · exact stop _ attempt current hr
    · exact backoff remaining attempt current hr (ih _ _)

theorem fits_of_fits_succ {current : Duration} {n : Nat} (h : current * 2 ^ (n + 1) ≤ durationMax) :
    current * 2 ≤ durationMax ∧ current * 2 * 2 ^ n ≤ durationMax := by
  have hmono : current * 2 ≤ current * 2 * 2 ^ n := Nat.le_mul_of_pos_right _ (Nat.two_pow_pos n)
  rw [double_mul_two_pow] at hmono ⊢
  exact ⟨le_trans hmono h, h⟩

theorem retryLoop_sleeps_start_schedule (remaining attempt : Nat) (current : Duration) :
    (retryLoop config jitterFn operation remaining attempt current).1 <+:
      backoffSchedule jitterFn current remaining := by
  induction remaining, attempt, current using retryLoop_induction with
  | stop remaining attempt current hr =>
    obtain ⟨_, heq, -⟩ := retryLoop_of_not_retries jitterFn remaining current hr
    rw [heq]
    exact List.nil_prefix
  | exhausted attempt current hr =>
    obtain ⟨_, -, heq⟩ := retryLoop_of_retries_zero jitterFn current hr
    rw [heq]
    exact List.nil_prefix
  | backoff remaining attempt current hr ih =>
    rw [retryLoop_of_retries_succ jitterFn remaining current hr, backoffSchedule_succ]
    split
    · exact List.cons_prefix_cons.mpr ⟨rfl, ih⟩
    · exact List.nil_prefix

theorem retryLoop_isSome (remaining attempt : Nat) (current : Duration)
    (hfit : current * 2 ^ remaining ≤ durationMax) :
    (retryLoop config jitterFn operation remaining attempt current).2.isSome := by
  induction remaining, attempt, current using retryLoop_induction with
  | stop remaining attempt current hr =>
    obtain ⟨_, heq, -⟩ := retryLoop_of_not_retries jitterFn remaining current hr
    rw [heq]
    rfl
  | exhausted attempt current hr =>
    obtain ⟨_, -, heq⟩ := retryLoop_of_retries_zero jitterFn current hr
    rw [heq]
    rfl
  | backoff remaining attempt current hr ih =>
    obtain ⟨hdouble, hrest⟩ := fits_of_fits_succ hfit
    rw [retryLoop_of_retries_succ jitterFn remaining current hr, if_pos hdouble]
    exact ih hrest

theorem retryLoop_of_retried {remaining attempt i : Nat} {current : Duration} (hi : i ≤ remaining)
    (hret : ∀ j < i, Retries config (operation (attempt + j)) = true) (hfit : current * 2 ^ i ≤ durationMax) :
    retryLoop config jitterFn operation remaining attempt current =
      (backoffSchedule jitterFn current i ++
          (retryLoop config jitterFn operation (remaining - i) (attempt + i) (current * 2 ^ i)).1,
        (retryLoop config jitterFn operation (remaining - i) (attempt + i) (current * 2 ^ i)).2) := by
  induction i generalizing remaining attempt current with
  | zero => simp [backoffSchedule]
  | succ i ih =>
    obtain ⟨remaining, rfl⟩ : ∃ r, remaining = r + 1 := ⟨remaining - 1, by omega⟩
    obtain ⟨hdouble, hrest⟩ := fits_of_fits_succ hfit
    have hnow : Retries config (operation attempt) = true := hret 0 (Nat.succ_pos i)
    have hlater : ∀ j < i, Retries config (operation (attempt + 1 + j)) = true := fun j hj => by
      rw [Nat.add_right_comm, Nat.add_assoc]
      exact hret (j + 1) (by omega)
    have hattempt : attempt + 1 + i = attempt + (i + 1) := by omega
    rw [retryLoop_of_retries_succ jitterFn remaining current hnow, if_pos hdouble, ih (by omega) hlater hrest,
      backoffSchedule_succ, double_mul_two_pow, Nat.add_sub_add_right, hattempt, List.cons_append]

theorem exists_ok_attempt_of_retryLoop (remaining attempt : Nat) (current : Duration) {value : α}
    (hcurrent : current ≤ durationMax)
    (h : (retryLoop config jitterFn operation remaining attempt current).2 = some (.ok value)) :
    ∃ i ≤ remaining, operation (attempt + i) = some (.ok value) ∧
      (∀ j < i, Retries config (operation (attempt + j)) = true) ∧ current * 2 ^ i ≤ durationMax := by
  induction remaining, attempt, current using retryLoop_induction with
  | stop remaining attempt current hr =>
    obtain ⟨result, heq, hok⟩ := retryLoop_of_not_retries jitterFn remaining current hr
    rw [heq, Option.some.injEq] at h
    refine ⟨0, Nat.zero_le _, (hok value).mp h, fun j hj => absurd hj (Nat.not_lt_zero j), ?_⟩
    simpa using hcurrent
  | exhausted attempt current hr =>
    obtain ⟨_, -, heq⟩ := retryLoop_of_retries_zero jitterFn current hr
    rw [heq] at h
    cases h
  | backoff remaining attempt current hr ih =>
    rw [retryLoop_of_retries_succ jitterFn remaining current hr] at h
    split at h
    case isFalse => cases h
    case isTrue hdouble =>
      obtain ⟨i, hi, hop, hret, hfit⟩ := ih hdouble h
      refine ⟨i + 1, by omega, by rwa [Nat.add_right_comm, Nat.add_assoc] at hop, ?_, ?_⟩
      · intro j hj
        cases j with
        | zero => exact hr
        | succ j =>
          have hlater := hret j (by omega)
          rwa [Nat.add_right_comm, Nat.add_assoc] at hlater
      · rwa [double_mul_two_pow] at hfit

theorem retryLoop_eq_ok_iff (remaining attempt : Nat) (current : Duration) {value : α}
    (hcurrent : current ≤ durationMax) :
    (retryLoop config jitterFn operation remaining attempt current).2 = some (.ok value) ↔
      ∃ i ≤ remaining, operation (attempt + i) = some (.ok value) ∧
        (∀ j < i, Retries config (operation (attempt + j)) = true) ∧ current * 2 ^ i ≤ durationMax := by
  refine ⟨exists_ok_attempt_of_retryLoop jitterFn remaining attempt current hcurrent, ?_⟩
  rintro ⟨i, hi, hop, hret, hfit⟩
  have hstop : Retries config (operation (attempt + i)) = false := by rw [hop]; rfl
  obtain ⟨result, heq, hok⟩ := retryLoop_of_not_retries jitterFn (remaining - i) (current * 2 ^ i) hstop
  rw [retryLoop_of_retried jitterFn hi hret hfit, heq, Option.some.injEq]
  exact (hok value).mpr hop

theorem retryLoop_of_exhausted {remaining attempt : Nat} {current : Duration}
    (hret : ∀ j ≤ remaining, Retries config (operation (attempt + j)) = true)
    (hfit : current * 2 ^ remaining ≤ durationMax) :
    ∃ err, operation (attempt + remaining) = some (.retry err) ∧
      retryLoop config jitterFn operation remaining attempt current =
        (backoffSchedule jitterFn current remaining,
          some (.error (err.append s!"On attempt {attempt + remaining + 1}"))) := by
  obtain ⟨err, hop, heq⟩ :=
    retryLoop_of_retries_zero jitterFn (current * 2 ^ remaining) (hret remaining (le_refl _))
  refine ⟨err, hop, ?_⟩
  rw [retryLoop_of_retried jitterFn (le_refl _) (fun j hj => hret j (Nat.le_of_lt hj)) hfit, Nat.sub_self, heq,
    List.append_nil]

theorem retryLoop_eq_of_agree {operation' : Nat → Option (RetryResult α)} (remaining attempt : Nat)
    (current : Duration) (h : ∀ i ≤ remaining, operation (attempt + i) = operation' (attempt + i)) :
    retryLoop config jitterFn operation remaining attempt current =
      retryLoop config jitterFn operation' remaining attempt current := by
  induction remaining generalizing attempt current with
  | zero =>
    have h0 : operation attempt = operation' attempt := h 0 (Nat.zero_le _)
    rw [retryLoop, retryLoop, h0]
  | succ remaining ih =>
    have h0 : operation attempt = operation' attempt := h 0 (Nat.zero_le _)
    have hnext := ih (attempt + 1) (current * 2) fun i hi => by
      rw [Nat.add_right_comm, Nat.add_assoc]
      exact h (i + 1) (by omega)
    rw [retryLoop, retryLoop, h0]
    simp only [hnext]

end Run

/-! ## `Retrier::retry` -/

section Retry

theorem base_le_durationMax (delay : ℚ) : fromMillis (f32AsU64 delay) ≤ durationMax := by
  have hms : f32AsU64 delay ≤ u64Max := min_le_right _ _
  unfold fromMillis durationMax
  calc f32AsU64 delay * 10 ^ 6 ≤ u64Max * 10 ^ 6 := Nat.mul_le_mul_right _ hms
    _ ≤ u64Max * 10 ^ 9 + 999999999 := by omega

-- A store that is unavailable for its first two polls and then answers.
def unavailableTwice : Nat → Option (RetryResult Nat) := fun i =>
  if i < 2 then some (.retry (Error.new .unavailable "busy")) else some (.ok 7)

-- A store that stays unavailable.
def alwaysUnavailable : Nat → Option (RetryResult Nat) := fun _ =>
  some (.retry (Error.new .unavailable "busy"))

theorem retry_sleeps_follow_exponential_backoff :
    (retry config jitterFn operation).1 <+:
      backoffSchedule jitterFn (fromMillis (f32AsU64 config.delay)) config.maxRetries :=
  retryLoop_sleeps_start_schedule jitterFn _ _ _

theorem retry_sleeps_follow_exponential_backoff_of_unavailable_store :
    (retry ⟨3, 100, 0, none⟩ id unavailableTwice).1 = [200000000, 400000000] ∧
      (retry ⟨3, 100, 0, none⟩ id unavailableTwice).1 <+: backoffSchedule id (fromMillis (f32AsU64 100)) 3 :=
  ⟨by decide, retry_sleeps_follow_exponential_backoff ⟨3, 100, 0, none⟩ id unavailableTwice⟩

theorem retry_succeeds_iff_an_attempt_succeeds {value : α} :
    (retry config jitterFn operation).2 = some (.ok value) ↔
      ∃ i ≤ config.maxRetries, operation i = some (.ok value) ∧ (∀ j < i, Retries config (operation j) = true) ∧
        fromMillis (f32AsU64 config.delay) * 2 ^ i ≤ durationMax := by
  rw [retry, retryLoop_eq_ok_iff jitterFn _ _ _ (base_le_durationMax config.delay)]
  simp only [Nat.zero_add]

theorem retry_succeeds_iff_an_attempt_succeeds_of_unavailable_store :
    (retry ⟨3, 100, 0, none⟩ id unavailableTwice).2 = some (.ok 7) :=
  (retry_succeeds_iff_an_attempt_succeeds ⟨3, 100, 0, none⟩ id unavailableTwice).mpr
    ⟨2, by decide, rfl, by decide, by decide⟩

theorem retry_gives_up_after_max_retries
    (hret : ∀ j ≤ config.maxRetries, Retries config (operation j) = true)
    (hfit : fromMillis (f32AsU64 config.delay) * 2 ^ config.maxRetries ≤ durationMax) :
    ∃ err, operation config.maxRetries = some (.retry err) ∧
      retry config jitterFn operation =
        (backoffSchedule jitterFn (fromMillis (f32AsU64 config.delay)) config.maxRetries,
          some (.error (err.append s!"On attempt {config.maxRetries + 1}"))) := by
  have hret' : ∀ j ≤ config.maxRetries, Retries config (operation (0 + j)) = true := by
    simpa only [Nat.zero_add] using hret
  simpa only [retry, Nat.zero_add] using retryLoop_of_exhausted jitterFn hret' hfit

theorem retry_gives_up_after_max_retries_of_unavailable_store :
    (∀ j ≤ 3, Retries ⟨3, 100, 0, none⟩ (alwaysUnavailable j) = true) ∧
      fromMillis (f32AsU64 100) * 2 ^ 3 ≤ durationMax ∧
      ∃ err, alwaysUnavailable 3 = some (.retry err) ∧
        retry ⟨3, 100, 0, none⟩ id alwaysUnavailable =
          (backoffSchedule id (fromMillis (f32AsU64 100)) 3, some (.error (err.append s!"On attempt {3 + 1}"))) :=
  have hret : ∀ j ≤ 3, Retries ⟨3, 100, 0, none⟩ (alwaysUnavailable j) = true := by decide
  have hfit : fromMillis (f32AsU64 100) * 2 ^ 3 ≤ durationMax := by decide
  ⟨hret, hfit, retry_gives_up_after_max_retries ⟨3, 100, 0, none⟩ id alwaysUnavailable hret hfit⟩

theorem retry_answers_when_backoff_fits
    (hfit : fromMillis (f32AsU64 config.delay) * 2 ^ config.maxRetries ≤ durationMax) :
    (retry config jitterFn operation).2.isSome :=
  retryLoop_isSome jitterFn _ _ _ hfit

theorem retry_answers_when_backoff_fits_of_unavailable_store :
    fromMillis (f32AsU64 100) * 2 ^ 3 ≤ durationMax ∧ (retry ⟨3, 100, 0, none⟩ id alwaysUnavailable).2.isSome :=
  have hfit : fromMillis (f32AsU64 100) * 2 ^ 3 ≤ durationMax := by decide
  ⟨hfit, retry_answers_when_backoff_fits ⟨3, 100, 0, none⟩ id alwaysUnavailable hfit⟩

-- A store that is unavailable for its first four polls and then answers.
def unavailableFourTimes : Nat → Option (RetryResult Nat) := fun i =>
  if i < 4 then some (.retry (Error.new .unavailable "busy")) else some (.ok 7)

theorem retry_reads_at_most_max_retries_plus_one_attempts {operation' : Nat → Option (RetryResult α)}
    (h : ∀ i ≤ config.maxRetries, operation i = operation' i) :
    retry config jitterFn operation = retry config jitterFn operation' :=
  retryLoop_eq_of_agree jitterFn config.maxRetries 0 _ (by simpa only [Nat.zero_add] using h)

theorem retry_reads_at_most_max_retries_plus_one_attempts_of_late_answer :
    (∀ i ≤ 3, alwaysUnavailable i = unavailableFourTimes i) ∧
      retry ⟨3, 100, 0, none⟩ id alwaysUnavailable = retry ⟨3, 100, 0, none⟩ id unavailableFourTimes :=
  have h : ∀ i ≤ 3, alwaysUnavailable i = unavailableFourTimes i := fun i hi => by
    simp only [alwaysUnavailable, unavailableFourTimes, if_pos (show i < 4 by omega)]
  ⟨h, retry_reads_at_most_max_retries_plus_one_attempts ⟨3, 100, 0, none⟩ id alwaysUnavailable h⟩

end Retry

end Retrier

end NativeLink
