import NativeLink.Lib.Invariant
import NativeLink.Util.StoreTrait

-- Model of `CompletenessCheckingStore::inner_has_with_results` of
-- `nativelink-store/src/completeness_checking_store.rs`. A future per AC key looks its entry up
-- and queues the digests the entry references, and those of the files of each of its output
-- directories' Trees as the Tree arrives; one checker takes the whole queue to the CAS's
-- `has_with_results` and unsets the result of a key with a digest missing. All of them are polled
-- by one `select!` loop, so a run is any sequence of their steps, each what one future does between
-- two awaits. `Notify` stores at most one permit, and wakes its waiter when it has one.

namespace NativeLink

namespace CompletenessCheckingStore

/-! ## The messages read and the stores asked -/

-- The fields of the proto messages the store reads; `δ` is the proto `Digest`.
structure OutputFile (δ : Type) where
  digest : Option δ

structure OutputDirectory (δ : Type) where
  treeDigest : Option δ

structure ActionResult (δ : Type) where
  outputFiles : List (OutputFile δ)
  outputDirectories : List (OutputDirectory δ)
  stdoutDigest : Option δ
  stderrDigest : Option δ

structure FileNode (δ : Type) where
  digest : Option δ

structure Directory (δ : Type) where
  files : List (FileNode δ)

structure Tree (δ : Type) where
  root : Option (Directory δ)
  children : List (Directory δ)

-- What the code asks of the outside, for store keys `κ`: `DigestInfo::try_from` of a proto digest
-- with its conversion to a key, the entry and size `get_size_and_decode_digest` gets from the AC
-- store, the Tree `get_and_decode_digest` gets from the CAS store, and what the CAS's
-- `has_with_results` reports for a digest.
structure Stores (κ δ : Type) where
  tryFrom : δ → Except Error κ
  getActionResult : κ → Except Error (ActionResult δ × Nat)
  getTree : κ → Except Error (Tree δ)
  casHas : κ → Option Nat

variable {κ δ : Type} (env : Stores κ δ)

-- `get_digests_and_output_dirs`.
def getDigestsAndOutputDirs (actionResult : ActionResult δ) :
    Except Error (List κ × List (OutputDirectory δ)) := do
  let digestInfos ← ((actionResult.outputFiles.filterMap OutputFile.digest ++
      actionResult.stdoutDigest.toList ++ actionResult.stderrDigest.toList).mapM env.tryFrom).mapError
    (·.append "Some digests could not be converted to DigestInfos")
  pure (digestInfos, actionResult.outputDirectories)

-- The loop of `check_output_directories` that converts the tree digests, before any Tree is asked
-- for.
def treeDigests (outputDirectories : List (OutputDirectory δ)) : Except Error (List κ) :=
  (outputDirectories.filterMap OutputDirectory.treeDigest).mapM fun treeDigest =>
    (env.tryFrom treeDigest).mapError (·.append "Could not decode tree digest CompletenessCheckingStore::has")

-- One future of `check_output_directories`: the Tree of `treeDigest`, and the digests of the files
-- of its children and its root.
def treeFiles (treeDigest : κ) : Except Error (List κ) := do
  let tree ← env.getTree treeDigest
  (((tree.children ++ tree.root.toList).flatMap fun dir => dir.files.filterMap FileNode.digest).mapM
    env.tryFrom).mapError (·.append "Expected digest to exist and be convertable")

-- The `map_err` of a key's future: a tip, unless the entry was not found.
def keyError (e : Error) : Error :=
  if e.code ≠ .notFound then e.append "Error checking existence of digest in CompletenessCheckingStore::has"
  else e

/-! ## The futures and their shared state -/

inductive KeyFuture (κ : Type)
  -- waiting for `get_size_and_decode_digest` of its key
  | lookup (key : κ)
  -- in `check_output_directories`, waiting for the Trees of these digests
  | trees (pending : List κ)
  -- its output taken by the select loop
  | completed (result : Except Error Unit)

def KeyFuture.isCompleted : KeyFuture κ → Bool
  | .completed _ => true
  | _ => false

-- Where `check_existence_fut` is: at `notify.notified().await` (not yet a waiter, the waiter, or
-- the waiter woken), or waiting for `has_with_results` of a batch.
inductive Checker (κ : Type)
  | idle
  | waiting
  | woken
  | checking (digests : List κ) (indexes : List Nat)

inductive Outcome
  | returned (result : Except Error Unit)
  | panicked (msg : String)
  deriving DecidableEq

structure State (κ : Type) where
  results : List (Option Nat)
  digestsToCheck : List κ
  digestsToCheckIdxs : List Nat
  done : Bool
  -- the permit `notify` stores
  permit : Bool
  futures : List (KeyFuture κ)
  checker : Checker κ
  outcome : Option Outcome
  -- ghost: each digest queued, with the index of its key, and each one `has_with_results` answered
  pushed : List (κ × Nat)
  checked : List (κ × Nat)

namespace State

variable (s : State κ)

-- `notify_one`: the waiter is woken, or the permit stored when there is none.
def notifyOne : State κ :=
  match s.checker with
  | .waiting => { s with checker := .woken }
  | _ => { s with permit := true }

-- `handle_digest_infos_fn`: the digests of entry `i` queued, and the checker notified.
def extendDigests (i : Nat) (digestInfos : List κ) : State κ :=
  { s with
    digestsToCheck := s.digestsToCheck ++ digestInfos
    digestsToCheckIdxs := s.digestsToCheckIdxs ++ List.replicate digestInfos.length i
    pushed := s.pushed ++ digestInfos.map (·, i) }.notifyOne

-- The first critical section of a key's future: the size set, the digests queued (swapped in
-- when the queue is empty) and the checker notified.
def setSize (i size : Nat) (digestInfos : List κ) : State κ :=
  { s with
    results := s.results.set i (some size)
    digestsToCheck := if s.digestsToCheck.isEmpty then digestInfos else s.digestsToCheck ++ digestInfos
    digestsToCheckIdxs := s.digestsToCheckIdxs ++ List.replicate digestInfos.length i
    pushed := s.pushed ++ digestInfos.map (·, i) }.notifyOne

-- The select loop takes the output of key future `i`; an error unsets its result.
def complete (i : Nat) (result : Except Error Unit) : State κ :=
  let s := { s with futures := s.futures.set i (.completed result) }
  match result with
  | .ok () => s
  | .error _ => { s with results := s.results.set i none }

-- `check_output_directories` waits for the Trees `pending`, and returns when there are none.
def awaitTrees (i : Nat) (pending : List κ) : State κ :=
  if pending.isEmpty then s.complete i (.ok ())
  else { s with futures := s.futures.set i (.trees pending) }

-- Key future `i`: `get_size_and_decode_digest` of its key returns.
def lookup (i : Nat) (key : κ) : State κ :=
  match env.getActionResult key with
  | .error e => s.complete i (.error (keyError e))
  | .ok (actionResult, size) =>
    match getDigestsAndOutputDirs env actionResult with
    | .error e => s.complete i (.error (keyError e))
    | .ok (digestInfos, outputDirectories) =>
      let s := s.setSize i size digestInfos
      if outputDirectories.isEmpty then s.complete i (.ok ())
      else
        match treeDigests env outputDirectories with
        | .error e => s.complete i (.error (keyError e))
        | .ok trees => s.awaitTrees i trees

-- Key future `i`: the `j`-th of the Trees it waits for arrives.
def treeArrives (i : Nat) (pending : List κ) (j : Nat) : State κ :=
  match pending[j]? with
  | none => s
  | some treeDigest =>
    match treeFiles env treeDigest with
    | .error e => s.complete i (.error (keyError e))
    | .ok digestInfos => (s.extendDigests i digestInfos).awaitTrees i (pending.eraseIdx j)

-- `check_existence_fut` returns `result`: in the select loop, or to its last await once `done`.
def checkerEnds (result : Except Error Unit) : State κ :=
  if s.done then
    { s with outcome := some (.returned (result.mapError (·.append
      "CompletenessCheckingStore's check_existence_fut ended unexpectedly on last await"))) }
  else
    { s with outcome := some (.returned (.error (Error.new .internal
      "CompletenessCheckingStore's check_existence_fut ended unexpectedly"))) }

-- The checker past `notify.notified().await`: it ends once `done` is set with nothing queued, and
-- otherwise takes the whole queue to `has_with_results`.
def takeDigests : State κ :=
  if s.done && s.digestsToCheck.isEmpty then s.checkerEnds (.ok ())
  else
    -- digests queued before `done` was set: the checker notifies itself to look again
    let s := if s.done then s.notifyOne else s
    if s.digestsToCheck.length ≠ s.digestsToCheckIdxs.length then
      { s with outcome := some (.panicked "Expected sizes to match in CompletenessCheckingStore::has") }
    else
      { s with
        checker := .checking s.digestsToCheck s.digestsToCheckIdxs
        digestsToCheck := []
        digestsToCheckIdxs := [] }

-- The checker polled at `notify.notified().await`: it passes on a stored permit or once woken, and
-- becomes the waiter otherwise.
def poll : State κ :=
  match s.checker with
  | .idle => if s.permit then { s with permit := false }.takeDigests else { s with checker := .waiting }
  | .woken => s.takeDigests
  | _ => s

-- The indexes whose digest `has_with_results` reports missing.
def missedIndexes (digests : List κ) (indexes : List Nat) : List Nat :=
  ((digests.map env.casHas).zip indexes).filterMap fun (r, index) => r.elim (some index) fun _ => none

-- `has_with_results` answers the checker, which unsets the result of each missed index.
def answer : State κ :=
  match s.checker with
  | .checking digests indexes =>
    { s with
      results := (missedIndexes env digests indexes).foldl (fun results index => results.set index none) s.results
      checker := .idle
      checked := s.checked ++ digests.zip indexes }
  | _ => s

-- `has_with_results` fails, and with it the checker.
def fail (e : Error) : State κ :=
  match s.checker with
  | .checking _ _ =>
    s.checkerEnds (.error (e.append "Error calling has_with_results() inside CompletenessCheckingStore::has"))
  | _ => s

-- `futures.next()` yields `None`: `done` is set and the checker notified.
def finish : State κ :=
  if s.futures.all KeyFuture.isCompleted && !s.done then { s with done := true }.notifyOne else s

end State

-- What one poll of the select loop lets run up to its next await.
inductive Event
  | lookup (i : Nat)
  | treeArrives (i j : Nat)
  | finish
  | poll
  | answer
  | fail (e : Error)

namespace State

-- Once the call returned or panicked, nothing runs.
def step (s : State κ) (e : Event) : State κ :=
  if s.outcome.isSome then s
  else
    match e with
    | .lookup i =>
      match s.futures[i]? with
      | some (.lookup key) => s.lookup env i key
      | _ => s
    | .treeArrives i j =>
      match s.futures[i]? with
      | some (.trees pending) => s.treeArrives env i pending j
      | _ => s
    | .finish => s.finish
    | .poll => s.poll
    | .answer => s.answer env
    | .fail e => s.fail e

-- The call on `action_result_digests = keys`, with the caller's `results`.
def init (keys : List κ) (results : List (Option Nat)) : State κ where
  results := results
  digestsToCheck := []
  digestsToCheckIdxs := []
  done := false
  permit := false
  futures := keys.map .lookup
  checker := .idle
  outcome := none
  pushed := []
  checked := []

end State

def run (keys : List κ) (results : List (Option Nat)) (events : List Event) : State κ :=
  events.foldl (State.step env) (State.init keys results)

end CompletenessCheckingStore

end NativeLink
