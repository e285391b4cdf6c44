import NativeLink.Util.BufChannel.Closed

-- Model of `VerifyStore` of `nativelink-store/src/verify_store.rs`. `inner_check_update` reads the
-- client's chunks from `rx` and forwards each to the inner store through `tx`; it sends the EOF
-- only when the client's stream ended with one, at the expected size and with the expected hash.
-- Both channels are those of `buf_channel`. The hasher is the bytes it has been fed, and its digest
-- is `hash` of them: the digest of chunks fed one by one is that of their concatenation. Sizes are
-- not bounded by `u64` here.

namespace NativeLink

-- `VerifyStore`, without its inner store and metrics.
structure VerifyStore where
  verifySize : Bool
  verifyHash : Bool

namespace VerifyStore

open EStateM BufChannel

-- The two halves `inner_check_update` holds: the reading half of the client's channel, and the
-- writing half of the channel to the inner store.
structure Pipes where
  rx : Channel
  tx : Channel

abbrev M := EStateM Stop Pipes

def onRx {α : Type} (x : BufChannel.M α) : M α :=
  focus Pipes.rx (fun p t => { p with rx := t }) x

def onTx {α : Type} (x : BufChannel.M α) : M α :=
  focus Pipes.tx (fun p t => { p with tx := t }) x

-- `if let Ok(v) = x.await`: an error of `x` is dropped, and what `x` did is kept.
def okOrNone {α : Type} (x : BufChannel.M α) : BufChannel.M (Option α) := fun s =>
  match x s with
  | .ok a s' => .ok (some a) s'
  | .error (.error _) s' => .ok none s'
  | .error stop s' => .error stop s'

variable (hash : Bytes → Nat)

-- The size check of each round: too much data fails at once, and at exactly the expected size the
-- next chunk must be the EOF.
def checkSizeSoFar (maybeExpectedDigestSize : Option Nat) (sumSize : Nat) : M Unit :=
  match maybeExpectedDigestSize with
  | none => pure ()
  | some expectedSize =>
    if sumSize > expectedSize then
      throw (.error (makeInputErr s!"Expected size {expectedSize} but already received {sumSize} on insert"))
    else if sumSize = expectedSize then do
      -- an error of the peek is left for the `recv` of the next round to report
      match ← onRx (okOrNone peek) with
      | some eofChunk =>
        if !eofChunk.isEmpty then
          throw (.error (makeInputErr
            s!"Expected EOF chunk when exact size was hit on insert in verify store - {expectedSize}"))
        else pure ()
      | none => pure ()
    else pure ()

-- The size check at the EOF.
def checkSizeAtEof (maybeExpectedDigestSize : Option Nat) (sumSize : Nat) : M Unit :=
  match maybeExpectedDigestSize with
  | some expectedSize =>
    if sumSize ≠ expectedSize then
      throw (.error (makeInputErr s!"Expected size {expectedSize} but got size {sumSize} on insert"))
    else pure ()
  | none => pure ()

-- The hash check at the EOF.
def checkHash (originalHash : Nat) (maybeHasher : Option Bytes) : M Unit :=
  match maybeHasher with
  | some fed =>
    let hashResult := hash fed
    if originalHash ≠ hashResult then
      throw (.error (makeInputErr s!"Hashes do not match, got: {originalHash} but digest hash was {hashResult}"))
    else pure ()
  | none => pure ()

-- The loop of `inner_check_update`, over `sum_size` and the bytes the hasher was fed.
def checkLoop (maybeExpectedDigestSize : Option Nat) (originalHash : Nat) :
    Nat → Nat → Option Bytes → M Unit
  | 0, _, _ => throw .exhausted
  | fuel + 1, sumSize, maybeHasher => do
    let chunk ← onRx (errTip "Failed to read chunk in check_update in verify store" recv)
    let sumSize := sumSize + chunk.length
    checkSizeSoFar maybeExpectedDigestSize sumSize
    if chunk.isEmpty then
      checkSizeAtEof maybeExpectedDigestSize sumSize
      checkHash hash originalHash maybeHasher
      onTx (errTip "In verify_store::check_update" sendEof)
    else
      onTx (errTip "Failed to write chunk to inner store in verify store" (send chunk))
      checkLoop maybeExpectedDigestSize originalHash fuel sumSize (maybeHasher.map (· ++ chunk))

-- `inner_check_update`. Each round reads a chunk, so the chunks of the client's channel and one
-- more for its end are rounds enough.
def innerCheckUpdate (maybeExpectedDigestSize : Option Nat) (originalHash : Nat) (maybeHasher : Option Bytes) :
    M Unit := do
  checkLoop hash maybeExpectedDigestSize originalHash (rounds (← get).rx) 0 maybeHasher

-- `VerifyStore::update` for a digest, up to the join with the inner store's `update`: the size
-- announced must be the digest's, and the client's stream is then checked into a new channel to
-- the inner store.
def update (store : VerifyStore) (digest : DigestInfo) (sizeInfo : UploadSizeInfo) : M Unit := do
  let digestSize := digest.sizeBytes
  if let .exactSize expectedSize := sizeInfo then
    if store.verifySize && expectedSize != digestSize then
      throw (.error (makeInputErr
        s!"Expected size to match. Got {expectedSize} but digest says {digestSize} on update"))
  let maybeHasher := if store.verifyHash then some [] else none
  let maybeDigestSize := if store.verifySize then some digestSize else none
  modify fun p => { p with tx := makeBufChannelPair }
  innerCheckUpdate hash maybeDigestSize digest.packedHash maybeHasher

-- What may be committed: the client's stream ended with its EOF, and its data has the expected
-- size and hash.
def Verified (maybeExpectedDigestSize : Option Nat) (originalHash : Nat) (verifyHash : Bool) (data : Bytes)
    (eof : Bool) : Prop :=
  eof = true ∧ (∀ expectedSize, maybeExpectedDigestSize = some expectedSize → data.length = expectedSize) ∧
    (verifyHash = true → hash data = originalHash)

-- How `inner_check_update` ends, over the client's chunks `chunks`: it commits them, all
-- forwarded and then the EOF, when they are verified; or it fails with an `Error`, when they are
-- not, having forwarded the first few.
def Committed (maybeExpectedDigestSize : Option Nat) (originalHash : Nat) (verifyHash : Bool)
    (chunks : List Bytes) (eof : Bool) (p : Pipes) : Prop :=
  Verified hash maybeExpectedDigestSize originalHash verifyHash chunks.flatten eof ∧ p.tx = written chunks true

def Refused (maybeExpectedDigestSize : Option Nat) (originalHash : Nat) (verifyHash : Bool)
    (chunks : List Bytes) (eof : Bool) (e : Stop) (p : Pipes) : Prop :=
  (∃ err, e = .error err) ∧ ¬Verified hash maybeExpectedDigestSize originalHash verifyHash chunks.flatten eof ∧
    ∃ k, p.tx = sent (chunks.take k)

section Runs

variable {p : Pipes} {α : Type} {x : BufChannel.M α} {a : α} {t : Channel}

theorem onRx_run_ok (h : x.run p.rx = .ok a t) : (onRx x).run p = .ok a { p with rx := t } :=
  run_focus_ok h

theorem onRx_run_error {e : Stop} (h : x.run p.rx = .error e t) : (onRx x).run p = .error e { p with rx := t } :=
  run_focus_error h

theorem onTx_run_ok (h : x.run p.tx = .ok a t) : (onTx x).run p = .ok a { p with tx := t } :=
  run_focus_ok h

theorem okOrNone_run_ok {s s' : Channel} (h : x.run s = .ok a s') : (okOrNone x).run s = .ok (some a) s' := by
  simp only [okOrNone, EStateM.run] at h ⊢
  rw [h]

theorem okOrNone_run_error {s s' : Channel} {e : Error} (h : x.run s = .error (.error e) s') :
    (okOrNone x).run s = .ok none s' := by
  simp only [okOrNone, EStateM.run] at h ⊢
  rw [h]

end Runs

section Checks

variable {p : Pipes} {rest : List Bytes} {eof : Bool}

theorem checkSizeSoFar_post (hr : Reads p.rx rest eof) (maybeExpectedDigestSize : Option Nat) (sumSize : Nat) :
    Post (fun _ p' => p'.tx = p.tx ∧ Reads p'.rx rest eof)
      (fun e p' => p'.tx = p.tx ∧ (∃ err, e = .error err) ∧
        ∃ expectedSize, maybeExpectedDigestSize = some expectedSize ∧ expectedSize < sumSize + rest.flatten.length)
      ((checkSizeSoFar maybeExpectedDigestSize sumSize).run p) := by
  cases maybeExpectedDigestSize with
  | none => exact ⟨rfl, hr⟩
  | some expectedSize =>
    by_cases hgt : sumSize > expectedSize
    case pos =>
      simp only [checkSizeSoFar, if_pos hgt]
      exact ⟨rfl, ⟨_, rfl⟩, expectedSize, rfl, by omega⟩
    case neg =>
      by_cases heq : sumSize = expectedSize
      case neg =>
        simp only [checkSizeSoFar, if_neg hgt, if_neg heq]
        exact ⟨rfl, hr⟩
      case pos =>
        simp only [checkSizeSoFar, if_neg hgt, if_pos heq]
        cases rest with
        | cons chunk rest =>
          obtain ⟨s', hpeek, -⟩ := peek_reads_cons hr
          have hc : chunk.isEmpty = false := List.isEmpty_eq_false_iff.mpr (hr.ne_nil List.mem_cons_self)
          rw [run_bind_of_ok (onRx_run_ok (okOrNone_run_ok hpeek))]
          simp only [hc, Bool.not_false, if_true]
          refine ⟨rfl, ⟨_, rfl⟩, expectedSize, rfl, ?_⟩
          have hlen : 0 < chunk.length := List.length_pos_iff.mpr (hr.ne_nil List.mem_cons_self)
          simp only [List.flatten_cons, List.length_append]
          omega
        | nil =>
          cases eof
          case false =>
            obtain ⟨e, s', hpeek, hs'⟩ := peek_reads_dropped hr
            rw [run_bind_of_ok (onRx_run_ok (okOrNone_run_error hpeek))]
            exact ⟨rfl, hs'⟩
          case true =>
            obtain ⟨s', hpeek, hs'⟩ := peek_reads_eof hr
            rw [run_bind_of_ok (onRx_run_ok (okOrNone_run_ok hpeek))]
            exact ⟨rfl, hs'⟩

theorem checkSizeAtEof_post (maybeExpectedDigestSize : Option Nat) (sumSize : Nat) :
    Post (fun _ p' => p' = p ∧ ∀ expectedSize, maybeExpectedDigestSize = some expectedSize → sumSize = expectedSize)
      (fun e p' => p' = p ∧ (∃ err, e = .error err) ∧
        ∃ expectedSize, maybeExpectedDigestSize = some expectedSize ∧ sumSize ≠ expectedSize)
      ((checkSizeAtEof maybeExpectedDigestSize sumSize).run p) := by
  cases maybeExpectedDigestSize with
  | none => exact ⟨rfl, nofun⟩
  | some expectedSize =>
    by_cases hsize : sumSize = expectedSize
    case pos =>
      simp only [checkSizeAtEof, hsize, ne_eq, not_true_eq_false, if_false]
      exact ⟨rfl, fun _ h => Option.some.inj h⟩
    case neg =>
      simp only [checkSizeAtEof, if_pos hsize]
      exact ⟨rfl, ⟨_, rfl⟩, expectedSize, rfl, hsize⟩

theorem checkHash_post (originalHash : Nat) (maybeHasher : Option Bytes) :
    Post (fun _ p' => p' = p ∧ ∀ fed, maybeHasher = some fed → hash fed = originalHash)
      (fun e p' => p' = p ∧ (∃ err, e = .error err) ∧ ∃ fed, maybeHasher = some fed ∧ hash fed ≠ originalHash)
      ((checkHash hash originalHash maybeHasher).run p) := by
  cases maybeHasher with
  | none => exact ⟨rfl, nofun⟩
  | some fed =>
    by_cases hhash : hash fed = originalHash
    case pos =>
      simp only [checkHash, hhash, ne_eq, not_true_eq_false, if_false]
      exact ⟨rfl, fun _ h => Option.some.inj h ▸ hhash⟩
    case neg =>
      simp only [checkHash, if_pos (Ne.symm hhash)]
      exact ⟨rfl, ⟨_, rfl⟩, fed, rfl, hhash⟩

end Checks

section Loop

variable {maybeExpectedDigestSize : Option Nat} {originalHash : Nat} {verifyHash : Bool}

theorem refused_of_forwarded {done rest : List Bytes} {eof : Bool} {p : Pipes} {err : Error}
    (hv : ¬Verified hash maybeExpectedDigestSize originalHash verifyHash (done ++ rest).flatten eof)
    (htx : p.tx = sent done) :
    Refused hash maybeExpectedDigestSize originalHash verifyHash (done ++ rest) eof (.error err) p :=
  ⟨⟨err, rfl⟩, hv, done.length, by rw [htx, List.take_left]⟩

theorem not_verified_of_lt {data : Bytes} {eof : Bool} {expectedSize : Nat}
    (hx : maybeExpectedDigestSize = some expectedSize) (hlt : expectedSize < data.length) :
    ¬Verified hash maybeExpectedDigestSize originalHash verifyHash data eof :=
  fun hv => Nat.ne_of_gt hlt (hv.2.1 expectedSize hx)

theorem checkLoop_post (maybeExpectedDigestSize : Option Nat) (originalHash : Nat) (verifyHash : Bool) :
    ∀ (rest done : List Bytes) (eof : Bool) (fuel sumSize : Nat) (maybeHasher : Option Bytes) (p : Pipes),
      rest.length < fuel → Reads p.rx rest eof → [] ∉ done → p.tx = sent done →
      sumSize = done.flatten.length → maybeHasher = (if verifyHash then some done.flatten else none) →
      Post (fun _ => Committed hash maybeExpectedDigestSize originalHash verifyHash (done ++ rest) eof)
        (Refused hash maybeExpectedDigestSize originalHash verifyHash (done ++ rest) eof)
        ((checkLoop hash maybeExpectedDigestSize originalHash fuel sumSize maybeHasher).run p) := by
  intro rest
  induction rest with
  | nil =>
    intro done eof fuel sumSize maybeHasher p hfuel hr hdone htx hsum hhasher
    obtain ⟨fuel, rfl⟩ : ∃ f, fuel = f + 1 := ⟨fuel - 1, by simp at hfuel; omega⟩
    cases eof
    case false =>
      obtain ⟨e, s₁, hrecv, -⟩ := recv_reads_dropped hr
      rw [checkLoop, run_bind, onRx_run_error (errTip_run_error _ hrecv)]
      exact refused_of_forwarded hash (fun hv => Bool.false_ne_true hv.1) htx
    case true =>
      obtain ⟨s₁, hrecv, hr₁⟩ := recv_reads_eof hr
      rw [checkLoop, run_bind_of_ok (onRx_run_ok (errTip_run_ok _ hrecv))]
      dsimp only
      rw [List.length_nil, Nat.add_zero]
      refine Post.bind ((checkSizeSoFar_post hr₁ _ _).mono (fun _ _ h => h) ?_) fun _ p₂ ⟨htx₂, _⟩ => ?_
      case refine_1 =>
        rintro e p₂ ⟨htx₂, ⟨err, rfl⟩, expectedSize, hx, hlt⟩
        refine refused_of_forwarded hash (not_verified_of_lt hash hx ?_) (htx₂.trans htx)
        simpa [hsum] using hlt
      rw [List.isEmpty_nil, if_pos rfl]
      refine Post.bind ((checkSizeAtEof_post _ _).mono (fun _ _ h => h) ?_) fun _ p₃ ⟨hp₃, hsize⟩ => ?_
      case refine_1 =>
        rintro e p₃ ⟨rfl, ⟨err, rfl⟩, expectedSize, hx, hne⟩
        refine refused_of_forwarded hash (fun hv => hne ?_) (htx₂.trans htx)
        rw [hsum, ← hv.2.1 expectedSize hx, List.append_nil]
      refine Post.bind ((checkHash_post hash _ _).mono (fun _ _ h => h) ?_) fun _ p₄ ⟨hp₄, hhash⟩ => ?_
      case refine_1 =>
        rintro e p₄ ⟨rfl, ⟨err, rfl⟩, fed, hfed, hne⟩
        refine refused_of_forwarded hash (fun hv => hne ?_) (hp₃ ▸ htx₂.trans htx)
        cases verifyHash
        case false => simp at hhasher; rw [hhasher] at hfed; cases hfed
        case true =>
          simp only [if_true] at hhasher
          rw [hhasher] at hfed
          rw [← Option.some.inj hfed, ← List.append_nil done]
          exact hv.2.2 rfl
      have htx₄ : p₄.tx = sent done := by rw [hp₄, hp₃, htx₂, htx]
      rw [onTx_run_ok (errTip_run_ok _ (htx₄ ▸ sendEof_run_sent)), List.append_nil]
      refine ⟨⟨rfl, fun expectedSize hx => ?_, fun hverify => ?_⟩, rfl⟩
      case refine_1 => rw [← hsum]; exact hsize expectedSize hx
      case refine_2 => exact hhash _ (by simp [hhasher, hverify])
  | cons chunk rest ih =>
    intro done eof fuel sumSize maybeHasher p hfuel hr hdone htx hsum hhasher
    obtain ⟨fuel, rfl⟩ : ∃ f, fuel = f + 1 := ⟨fuel - 1, by simp at hfuel; omega⟩
    have hc : chunk ≠ [] := hr.ne_nil List.mem_cons_self
    have hall : done ++ [chunk] ++ rest = done ++ chunk :: rest := by simp
    obtain ⟨s₁, hrecv, hr₁⟩ := recv_reads_cons hr
    rw [checkLoop, run_bind_of_ok (onRx_run_ok (errTip_run_ok _ hrecv))]
    dsimp only
    refine Post.bind ((checkSizeSoFar_post hr₁ _ _).mono (fun _ _ h => h) ?_) fun _ p₂ ⟨htx₂, hr₂⟩ => ?_
    case refine_1 =>
      rintro e p₂ ⟨htx₂, ⟨err, rfl⟩, expectedSize, hx, hlt⟩
      refine refused_of_forwarded hash (not_verified_of_lt hash hx ?_) (htx₂.trans htx)
      simp only [List.flatten_append, List.flatten_cons, List.length_append] at hlt ⊢
      omega
    rw [if_neg (by simpa using hc), run_bind_of_ok (onTx_run_ok (errTip_run_ok _ (htx₂.trans htx ▸ send_run_sent hc)))]
    rw [← hall]
    refine ih (done ++ [chunk]) eof fuel _ _ _ (by simp at hfuel; omega) hr₂ ?_ rfl ?_ ?_
    case refine_1 => simpa using ⟨hdone, hc⟩
    case refine_2 => simp [hsum]
    case refine_3 => cases verifyHash <;> simp [hhasher]

end Loop

-- The client's channel holds `chunks` and then its EOF (`eof`) or the drop of its writer.
-- `inner_check_update`, as `update` sets it up for a digest, commits to the inner store exactly
-- when the stream is verified: the inner store's reader gets every chunk unchanged and then the
-- EOF. Otherwise it fails with an `Error`, and once its half of the channel is dropped, the inner
-- store's reader gets the first few chunks and then the error of a dropped sender.
theorem inner_check_update_commits_iff_verified (chunks : List Bytes) (hchunks : [] ∉ chunks)
    (eof verifySize verifyHash : Bool) (digest : DigestInfo) :
    (Verified hash (if verifySize then some digest.sizeBytes else none) digest.packedHash verifyHash chunks.flatten eof →
      ∃ p, (innerCheckUpdate hash (if verifySize then some digest.sizeBytes else none) digest.packedHash
          (if verifyHash then some [] else none)).run ⟨written chunks eof, makeBufChannelPair⟩ = .ok () p ∧
        Reads (dropWriteHalf p.tx) chunks true) ∧
    (¬Verified hash (if verifySize then some digest.sizeBytes else none) digest.packedHash verifyHash chunks.flatten eof →
      ∃ err p k, (innerCheckUpdate hash (if verifySize then some digest.sizeBytes else none) digest.packedHash
          (if verifyHash then some [] else none)).run ⟨written chunks eof, makeBufChannelPair⟩ = .error (.error err) p ∧
        Reads (dropWriteHalf p.tx) (chunks.take k) false) := by
  have hfuel : chunks.length < rounds (written chunks eof) := by simp [rounds, written, sent, makeBufChannelPair]
  have hpost := checkLoop_post hash (if verifySize then some digest.sizeBytes else none) digest.packedHash verifyHash
    chunks [] eof _ 0 (if verifyHash then some [] else none) ⟨written chunks eof, makeBufChannelPair⟩ hfuel
    (reads_written hchunks) List.not_mem_nil rfl rfl (by cases verifyHash <;> rfl)
  rw [List.nil_append] at hpost
  -- the loop starts with as many rounds as the client's channel holds chunks, and one more
  have hinner : (innerCheckUpdate hash (if verifySize then some digest.sizeBytes else none) digest.packedHash
      (if verifyHash then some [] else none)).run ⟨written chunks eof, makeBufChannelPair⟩ =
      (checkLoop hash (if verifySize then some digest.sizeBytes else none) digest.packedHash
        (rounds (written chunks eof)) 0 (if verifyHash then some [] else none)).run
        ⟨written chunks eof, makeBufChannelPair⟩ := rfl
  rw [hinner]
  cases hrun : (checkLoop hash _ _ _ 0 _).run ⟨written chunks eof, makeBufChannelPair⟩
  case ok a p =>
    rw [hrun] at hpost
    obtain ⟨hv, htx⟩ := hpost
    exact ⟨fun _ => ⟨p, rfl, htx ▸ reads_written hchunks⟩, fun hnv => (hnv hv).elim⟩
  case error e p =>
    rw [hrun] at hpost
    obtain ⟨⟨err, rfl⟩, hnv, k, htx⟩ := hpost
    refine ⟨fun hv => (hnv hv).elim, fun _ => ⟨err, p, k, rfl, ?_⟩⟩
    rw [htx, dropWriteHalf_sent]
    exact reads_written fun hm => hchunks (List.mem_of_mem_take hm)

-- Two bytes for a digest of size 2, with the size checked: the stream is committed.
theorem inner_check_update_commits_two_bytes :
    [] ∉ ([[1, 2]] : List Bytes) ∧
      ∃ p, (innerCheckUpdate (fun _ => 0) (if true then some 2 else none) 0 (if false then some [] else none)).run
          ⟨written [[1, 2]] true, makeBufChannelPair⟩ = .ok () p ∧
        Reads (dropWriteHalf p.tx) [[1, 2]] true :=
  ⟨by decide, (inner_check_update_commits_iff_verified (fun _ => 0) [[1, 2]] (by decide) true true false ⟨0, 2⟩).1
    ⟨rfl, fun _ hx => Option.some.inj hx, nofun⟩⟩

end VerifyStore

end NativeLink
