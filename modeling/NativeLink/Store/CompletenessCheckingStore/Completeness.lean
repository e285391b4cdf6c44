import NativeLink.Store.CompletenessCheckingStore

-- The results `inner_has_with_results` reports, over every run of its futures: when the call
-- returns `Ok`, the result of each key is the size of its entry exactly when the entry is complete,
-- and every digest queued was answered by `has_with_results`. Each key's future is followed
-- through its phases (`KeyInv`), the queue through a ghost log of what was queued and answered
-- (`Accounts`), and `Notify` through `Awake`: the checker never sleeps with work queued.

namespace NativeLink

namespace CompletenessCheckingStore

variable {κ δ : Type} (env : Stores κ δ)

/-! ## What the store is to report

An entry is complete when it is found and decodes and every digest it references is in the CAS.
`references` reads the entry as one sequential lookup would. -/

-- The size of entry `key`, the digests of its files, stdout and stderr, and its Trees' digests.
def lookedUp (key : κ) : Except Error (Nat × List κ × List κ) := do
  let (actionResult, size) ← env.getActionResult key
  let (digestInfos, outputDirectories) ← getDigestsAndOutputDirs env actionResult
  let trees ← treeDigests env outputDirectories
  pure (size, digestInfos, trees)

-- The size of entry `key` and every digest it references, those of its Trees' files included.
def references (key : κ) : Except Error (Nat × List κ) := do
  let (size, digestInfos, trees) ← lookedUp env key
  let files ← trees.mapM (treeFiles env)
  pure (size, digestInfos ++ files.flatten)

def Complete (key : κ) (size : Nat) : Prop :=
  ∃ digests, references env key = .ok (size, digests) ∧ ∀ digest ∈ digests, (env.casHas digest).isSome

section References

variable {env} {key : κ} {size : Nat} {digestInfos trees : List κ}

theorem references_ne_of_lookedUp (h : ∀ p, lookedUp env key ≠ .ok p) : ∀ p, references env key ≠ .ok p := by
  intro p hp
  unfold references at hp
  cases hl : lookedUp env key
  case error e => simp [hl, bind, Except.bind] at hp
  case ok q => exact h q hl

theorem references_eq (hl : lookedUp env key = .ok (size, digestInfos, trees)) {files : List (List κ)}
    (hm : trees.mapM (treeFiles env) = .ok files) : references env key = .ok (size, digestInfos ++ files.flatten) := by
  simp [references, hl, hm, bind, Except.bind, pure, Except.pure]

theorem references_ne_of_treeFiles (hl : lookedUp env key = .ok (size, digestInfos, trees)) {t : κ}
    (ht : t ∈ trees) (hf : ∀ files, treeFiles env t ≠ .ok files) : ∀ p, references env key ≠ .ok p := by
  intro p hp
  cases hm : trees.mapM (treeFiles env)
  case error e => simp [references, hl, hm, bind, Except.bind] at hp
  case ok files =>
    obtain ⟨fs, -, hfs⟩ := Except.exists_of_mapM_eq_ok hm ht
    exact hf fs hfs

end References

/-! ## What each step changes -/

-- The digests the checker has taken to `has_with_results`, with their indexes.
def inFlight : Checker κ → List (κ × Nat)
  | .checking digests indexes => digests.zip indexes
  | _ => []

namespace State

variable {s : State κ} {i j size : Nat} {digestInfos : List κ}

section NotifyOne

variable (s : State κ)

@[simp] theorem notifyOne_results : s.notifyOne.results = s.results := by unfold notifyOne; split <;> rfl
@[simp] theorem notifyOne_digestsToCheck : s.notifyOne.digestsToCheck = s.digestsToCheck := by
  unfold notifyOne; split <;> rfl
@[simp] theorem notifyOne_digestsToCheckIdxs : s.notifyOne.digestsToCheckIdxs = s.digestsToCheckIdxs := by
  unfold notifyOne; split <;> rfl
@[simp] theorem notifyOne_done : s.notifyOne.done = s.done := by unfold notifyOne; split <;> rfl
@[simp] theorem notifyOne_futures : s.notifyOne.futures = s.futures := by unfold notifyOne; split <;> rfl
@[simp] theorem notifyOne_outcome : s.notifyOne.outcome = s.outcome := by unfold notifyOne; split <;> rfl
@[simp] theorem notifyOne_pushed : s.notifyOne.pushed = s.pushed := by unfold notifyOne; split <;> rfl
@[simp] theorem notifyOne_checked : s.notifyOne.checked = s.checked := by unfold notifyOne; split <;> rfl
@[simp] theorem inFlight_notifyOne : inFlight s.notifyOne.checker = inFlight s.checker := by
  unfold notifyOne; split <;> simp_all [inFlight]

theorem notifyOne_awake : s.notifyOne.checker = .woken ∨ (s.notifyOne.checker ≠ .waiting ∧ s.notifyOne.permit = true) := by
  unfold notifyOne
  split
  case h_1 => exact .inl rfl
  case h_2 hw => exact .inr ⟨hw, rfl⟩

end NotifyOne

theorem setSize_eq : s.setSize i size digestInfos = { s with results := s.results.set i (some size) }.extendDigests i digestInfos := by
  unfold setSize extendDigests
  cases h : s.digestsToCheck.isEmpty
  case false => rfl
  case true => rw [List.isEmpty_iff.mp h]; rfl

section Frame

-- Key future `j` sees the same in `s` and `s'`.
structure Agrees (s s' : State κ) (j : Nat) : Prop where
  future : s'.futures[j]? = s.futures[j]?
  result : s'.results[j]? = s.results[j]?
  pushed : ∀ d, (d, j) ∈ s'.pushed ↔ (d, j) ∈ s.pushed
  checked : ∀ d, (d, j) ∈ s'.checked ↔ (d, j) ∈ s.checked

theorem Agrees.trans {s₁ s₂ s₃ : State κ} (h₁ : Agrees s₁ s₂ j) (h₂ : Agrees s₂ s₃ j) : Agrees s₁ s₃ j where
  future := h₂.future.trans h₁.future
  result := h₂.result.trans h₁.result
  pushed d := (h₂.pushed d).trans (h₁.pushed d)
  checked d := (h₂.checked d).trans (h₁.checked d)

theorem Agrees.of_eq {s' : State κ} (hf : s'.futures = s.futures) (hr : s'.results = s.results)
    (hp : s'.pushed = s.pushed) (hc : s'.checked = s.checked) : Agrees s s' j :=
  ⟨by rw [hf], by rw [hr], by simp [hp], by simp [hc]⟩

theorem agrees_notifyOne : Agrees s s.notifyOne j :=
  .of_eq (notifyOne_futures s) (notifyOne_results s) (notifyOne_pushed s) (notifyOne_checked s)

theorem mem_map_pair_iff {d : κ} : (d, j) ∈ digestInfos.map (·, i) ↔ d ∈ digestInfos ∧ j = i := by
  simp [eq_comm]

theorem agrees_extendDigests (hj : j ≠ i) : Agrees s (s.extendDigests i digestInfos) j where
  future := by simp [extendDigests]
  result := by simp [extendDigests]
  pushed d := by simp [extendDigests, mem_map_pair_iff, hj]
  checked d := by simp [extendDigests]

theorem agrees_setSize (hj : j ≠ i) : Agrees s (s.setSize i size digestInfos) j := by
  rw [setSize_eq]
  have hr : Agrees s { s with results := s.results.set i (some size) } j :=
    ⟨rfl, List.getElem?_set_ne (Ne.symm hj), fun _ => .rfl, fun _ => .rfl⟩
  exact hr.trans (agrees_extendDigests hj)

theorem agrees_complete (hj : j ≠ i) (result : Except Error Unit) : Agrees s (s.complete i result) j := by
  unfold complete
  split
  case h_1 => exact ⟨List.getElem?_set_ne (Ne.symm hj), rfl, fun _ => .rfl, fun _ => .rfl⟩
  case h_2 => exact ⟨List.getElem?_set_ne (Ne.symm hj), List.getElem?_set_ne (Ne.symm hj), fun _ => .rfl, fun _ => .rfl⟩

theorem agrees_awaitTrees (hj : j ≠ i) (pending : List κ) : Agrees s (s.awaitTrees i pending) j := by
  unfold awaitTrees
  split
  case isTrue => exact agrees_complete hj _
  case isFalse => exact ⟨List.getElem?_set_ne (Ne.symm hj), rfl, fun _ => .rfl, fun _ => .rfl⟩

end Frame

section Steps

theorem awaitTrees_nil : s.awaitTrees i [] = s.complete i (.ok ()) := rfl

theorem lookup_cases (key : κ) :
    (∃ e, (∀ p, lookedUp env key ≠ .ok p) ∧ s.lookup env i key = s.complete i (.error e)) ∨
    (∃ size digestInfos e, (∀ p, lookedUp env key ≠ .ok p) ∧
      s.lookup env i key = (s.setSize i size digestInfos).complete i (.error e)) ∨
    (∃ size digestInfos trees, lookedUp env key = .ok (size, digestInfos, trees) ∧
      s.lookup env i key = (s.setSize i size digestInfos).awaitTrees i trees) := by
  unfold lookup
  cases ha : env.getActionResult key
  case error e => exact .inl ⟨_, by simp [lookedUp, ha, bind, Except.bind], rfl⟩
  case ok a =>
    obtain ⟨actionResult, size⟩ := a
    dsimp only
    cases hg : getDigestsAndOutputDirs env actionResult
    case error e => exact .inl ⟨_, by simp [lookedUp, ha, hg, bind, Except.bind], rfl⟩
    case ok g =>
      obtain ⟨digestInfos, outputDirectories⟩ := g
      dsimp only
      by_cases he : outputDirectories.isEmpty
      case pos =>
        have ht : treeDigests env outputDirectories = .ok [] := by
          rw [List.isEmpty_iff.mp he]; rfl
        refine .inr (.inr ⟨size, digestInfos, [], ?_, ?_⟩)
        · simp [lookedUp, ha, hg, ht, bind, Except.bind, pure, Except.pure]
        · simp only [he, if_true, awaitTrees_nil]
      case neg =>
        simp only [he]
        cases ht : treeDigests env outputDirectories
        case error e =>
          exact .inr (.inl ⟨size, digestInfos, _, by simp [lookedUp, ha, hg, ht, bind, Except.bind], rfl⟩)
        case ok trees =>
          exact .inr (.inr ⟨size, digestInfos, trees,
            by simp [lookedUp, ha, hg, ht, bind, Except.bind, pure, Except.pure], rfl⟩)

theorem treeArrives_cases (pending : List κ) :
    (pending[j]? = none ∧ s.treeArrives env i pending j = s) ∨
    (∃ t e, pending[j]? = some t ∧ (∀ files, treeFiles env t ≠ .ok files) ∧
      s.treeArrives env i pending j = s.complete i (.error e)) ∨
    (∃ t files, pending[j]? = some t ∧ treeFiles env t = .ok files ∧
      s.treeArrives env i pending j = (s.extendDigests i files).awaitTrees i (pending.eraseIdx j)) := by
  unfold treeArrives
  cases hp : pending[j]?
  case none => exact .inl ⟨rfl, rfl⟩
  case some t =>
    dsimp only
    cases hf : treeFiles env t
    case error e => exact .inr (.inl ⟨t, _, rfl, by simp [hf], rfl⟩)
    case ok files => exact .inr (.inr ⟨t, files, rfl, hf, rfl⟩)

theorem awaitTrees_eq (pending : List κ) :
    ∃ future, s.awaitTrees i pending = { s with futures := s.futures.set i future } := by
  unfold awaitTrees
  split
  case isTrue => exact ⟨_, rfl⟩
  case isFalse => exact ⟨_, rfl⟩

theorem notifyOne_of_ne (hw : s.checker ≠ .waiting) : s.notifyOne = { s with permit := true } := by
  unfold notifyOne
  split
  case h_1 h => exact absurd h hw
  case h_2 => rfl

theorem takeDigests_cases (hw : s.checker ≠ .waiting) (hl : s.digestsToCheckIdxs.length = s.digestsToCheck.length) :
    (s.done = true ∧ s.digestsToCheck = [] ∧ s.takeDigests = { s with outcome := some (.returned (.ok ())) }) ∨
    (¬(s.done = true ∧ s.digestsToCheck = []) ∧
      s.takeDigests = { s with
        checker := .checking s.digestsToCheck s.digestsToCheckIdxs
        digestsToCheck := []
        digestsToCheckIdxs := []
        permit := s.done || s.permit }) := by
  unfold takeDigests
  cases hd : s.done
  case false => exact .inr ⟨fun ⟨h, _⟩ => Bool.false_ne_true (hd ▸ h), by simp [hl, hd]⟩
  case true =>
    cases hq : s.digestsToCheck
    case nil => exact .inl ⟨rfl, rfl, by simp [hq, checkerEnds, hd]; rfl⟩
    case cons d ds =>
      have hl' : s.digestsToCheckIdxs.length = ds.length + 1 := by simpa [hq] using hl
      refine .inr ⟨by simp, ?_⟩
      simp [notifyOne_of_ne hw, hq, hl', hd]

end Steps

section Answer

variable {env} {digests : List κ} {indexes : List Nat}

theorem mem_missedIndexes : j ∈ missedIndexes env digests indexes ↔
    ∃ d, (d, j) ∈ digests.zip indexes ∧ env.casHas d = none := by
  unfold missedIndexes
  rw [List.zip_map_left, List.mem_filterMap]
  constructor
  case mp =>
    rintro ⟨⟨r, index⟩, hm, hr⟩
    obtain ⟨⟨d, index'⟩, hd, he⟩ := List.mem_map.mp hm
    cases he
    cases hc : env.casHas d
    case none => simp only [hc, Option.elim, Option.some.injEq] at hr; exact ⟨d, hr ▸ hd, hc⟩
    case some n => simp [hc, Option.elim] at hr
  case mpr =>
    rintro ⟨d, hd, hc⟩
    exact ⟨(env.casHas d, j), List.mem_map.mpr ⟨(d, j), hd, rfl⟩, by simp [hc, Option.elim]⟩

theorem getElem?_foldl_set_none_of_not_mem {l : List Nat} (h : j ∉ l) (rs : List (Option Nat)) :
    (l.foldl (fun results index => results.set index none) rs)[j]? = rs[j]? := by
  induction l generalizing rs with
  | nil => rfl
  | cons index l ih =>
    rw [List.foldl_cons, ih (fun hj => h (List.mem_cons_of_mem _ hj)),
      List.getElem?_set_ne (fun he => by subst he; exact h (List.mem_cons_self ..))]

theorem getElem?_foldl_set_none_of_mem {l : List Nat} (h : j ∈ l) (rs : List (Option Nat)) (hj : j < rs.length) :
    (l.foldl (fun results index => results.set index none) rs)[j]? = some none := by
  induction l generalizing rs with
  | nil => cases h
  | cons index l ih =>
    rw [List.foldl_cons]
    by_cases hl : j ∈ l
    case pos => exact ih hl _ (by simpa using hj)
    case neg =>
      have he : index = j := by
        rcases List.mem_cons.mp h with he | he
        case inl => exact he.symm
        case inr => exact absurd he hl
      rw [getElem?_foldl_set_none_of_not_mem hl, he, List.getElem?_set_self hj]

theorem answer_result_of_missed (hc : s.checker = .checking digests indexes)
    (hm : ∃ d, (d, j) ∈ digests.zip indexes ∧ env.casHas d = none) (hj : j < s.results.length) :
    (s.answer env).results[j]? = some none := by
  simp only [answer, hc]
  exact getElem?_foldl_set_none_of_mem (mem_missedIndexes.mpr hm) _ hj

theorem answer_result_of_present (hc : s.checker = .checking digests indexes)
    (hp : ∀ d, (d, j) ∈ digests.zip indexes → (env.casHas d).isSome) :
    (s.answer env).results[j]? = s.results[j]? := by
  simp only [answer, hc]
  refine getElem?_foldl_set_none_of_not_mem (fun hm => ?_) _
  obtain ⟨d, hd, hn⟩ := mem_missedIndexes.mp hm
  simpa [hn] using hp d hd

end Answer

end State

/-! ## What each key's future has done -/

-- Key future `i` looked its entry up, of size `size` with digests `digestInfos` and Trees `trees`,
-- and waits for the Trees `pending`: it queued the entry's digests and those of the files of each
-- Tree no longer pending, and nothing else, and its result is unset exactly when one of these
-- was answered missing.
structure Looking (s : State κ) (i size : Nat) (digestInfos trees pending : List κ) : Prop where
  pending_sub : ∀ t ∈ pending, t ∈ trees
  pushed_digestInfos : ∀ d ∈ digestInfos, (d, i) ∈ s.pushed
  pushed_trees : ∀ t ∈ trees, t ∉ pending → ∃ files, treeFiles env t = .ok files ∧ ∀ d ∈ files, (d, i) ∈ s.pushed
  pushed_only : ∀ d, (d, i) ∈ s.pushed →
    d ∈ digestInfos ∨ ∃ t ∈ trees, ∃ files, treeFiles env t = .ok files ∧ d ∈ files
  present : (∀ d, (d, i) ∈ s.checked → (env.casHas d).isSome) → s.results[i]? = some (some size)
  missed : (∃ d, (d, i) ∈ s.checked ∧ env.casHas d = none) → s.results[i]? = some none

-- Key future `i` of key `key`, in the phase `future`.
inductive KeyInv (s : State κ) (key : κ) (i : Nat) : Option (KeyFuture κ) → Prop
  | lookup : (∀ d, (d, i) ∉ s.pushed) → KeyInv s key i (some (.lookup key))
  | trees {size digestInfos trees pending} : lookedUp env key = .ok (size, digestInfos, trees) →
      Looking env s i size digestInfos trees pending → KeyInv s key i (some (.trees pending))
  | completed {size digestInfos trees} : lookedUp env key = .ok (size, digestInfos, trees) →
      Looking env s i size digestInfos trees [] → KeyInv s key i (some (.completed (.ok ())))
  | failed {e} : (∀ p, references env key ≠ .ok p) → s.results[i]? = some none →
      KeyInv s key i (some (.completed (.error e)))

-- Every digest queued was answered, is with the checker, or is still queued, in this order.
structure Accounts (s : State κ) : Prop where
  idxs_length : s.digestsToCheckIdxs.length = s.digestsToCheck.length
  pushed_eq : s.pushed = s.checked ++ inFlight s.checker ++ s.digestsToCheck.zip s.digestsToCheckIdxs

section KeyInv

variable {env} {s s' : State κ} {key : κ} {i j size : Nat} {digestInfos trees pending : List κ}

theorem Looking.frame (h : Looking env s i size digestInfos trees pending)
    (hr : s'.results[i]? = s.results[i]?) (hp : ∀ d, (d, i) ∈ s'.pushed ↔ (d, i) ∈ s.pushed)
    (hc : ∀ d, (d, i) ∈ s'.checked ↔ (d, i) ∈ s.checked) : Looking env s' i size digestInfos trees pending where
  pending_sub := h.pending_sub
  pushed_digestInfos d hd := (hp d).mpr (h.pushed_digestInfos d hd)
  pushed_trees t ht hn := by
    obtain ⟨files, hf, hfs⟩ := h.pushed_trees t ht hn
    exact ⟨files, hf, fun d hd => (hp d).mpr (hfs d hd)⟩
  pushed_only d hd := h.pushed_only d ((hp d).mp hd)
  present hall := hr ▸ h.present fun d hd => hall d ((hc d).mpr hd)
  missed := fun ⟨d, hd, hm⟩ => hr ▸ h.missed ⟨d, (hc d).mp hd, hm⟩

theorem KeyInv.agrees {future : Option (KeyFuture κ)} (h : KeyInv env s key j future)
    (ha : State.Agrees s s' j) : KeyInv env s' key j future := by
  cases h with
  | lookup hp => exact .lookup fun d hd => hp d ((ha.pushed d).mp hd)
  | trees hl hk => exact .trees hl (hk.frame ha.result ha.pushed ha.checked)
  | completed hl hk => exact .completed hl (hk.frame ha.result ha.pushed ha.checked)
  | failed hr hn => exact .failed hr (ha.result ▸ hn)

theorem Looking.start (hp : ∀ d, (d, i) ∉ s.pushed) (hs : Accounts s) (hi : i < s.results.length) :
    Looking env (s.setSize i size digestInfos) i size digestInfos trees trees where
  pending_sub _ ht := ht
  pushed_digestInfos d hd := by simp [State.setSize, hd]
  pushed_trees _ ht hn := absurd ht hn
  pushed_only d hd := by
    simp only [State.setSize, State.notifyOne_pushed, List.mem_append, State.mem_map_pair_iff] at hd
    rcases hd with hd | ⟨hd, -⟩
    case inl => exact absurd hd (hp d)
    case inr => exact .inl hd
  present _ := by simp [State.setSize, hi]
  missed := fun ⟨d, hd, _⟩ => by
    simp only [State.setSize, State.notifyOne_checked] at hd
    exact absurd (hs.pushed_eq ▸ List.mem_append_left _ (List.mem_append_left _ hd)) (hp d)

theorem mem_eraseIdx_of_ne {l : List κ} {x t : κ} (hm : x ∈ l) (ht : l[j]? = some t) (hne : x ≠ t) :
    x ∈ l.eraseIdx j := by
  obtain ⟨k, hk⟩ := List.mem_iff_getElem?.mp hm
  refine List.mem_eraseIdx_iff_getElem?.mpr ⟨k, fun he => hne ?_, hk⟩
  rw [he, ht] at hk
  exact (Option.some.inj hk).symm

theorem Looking.arrive (h : Looking env s i size digestInfos trees pending) {t : κ} {files : List κ}
    (hp : pending[j]? = some t) (hf : treeFiles env t = .ok files) :
    Looking env (s.extendDigests i files) i size digestInfos trees (pending.eraseIdx j) where
  pending_sub t' ht' := h.pending_sub t' (List.mem_of_mem_eraseIdx ht')
  pushed_digestInfos d hd := by simp [State.extendDigests, h.pushed_digestInfos d hd]
  pushed_trees t' ht' hn := by
    by_cases hm : t' ∈ pending
    case pos =>
      have he : t' = t := Classical.byContradiction fun hne => hn (mem_eraseIdx_of_ne hm hp hne)
      subst he
      exact ⟨files, hf, fun d hd => by simp [State.extendDigests, hd]⟩
    case neg =>
      obtain ⟨fs, hfs, hpushed⟩ := h.pushed_trees t' ht' hm
      exact ⟨fs, hfs, fun d hd => by simp [State.extendDigests, hpushed d hd]⟩
  pushed_only d hd := by
    simp only [State.extendDigests, State.notifyOne_pushed, List.mem_append, State.mem_map_pair_iff] at hd
    rcases hd with hd | ⟨hd, -⟩
    case inl => exact h.pushed_only d hd
    case inr => exact .inr ⟨t, h.pending_sub t (List.mem_of_getElem? hp), files, hf, hd⟩
  present hall := by simpa [State.extendDigests] using h.present (by simpa [State.extendDigests] using hall)
  missed hm := by simpa [State.extendDigests] using h.missed (by simpa [State.extendDigests] using hm)

theorem KeyInv.awaitTrees (hl : lookedUp env key = .ok (size, digestInfos, trees))
    (h : Looking env s i size digestInfos trees pending) (hf : i < s.futures.length) :
    KeyInv env (s.awaitTrees i pending) key i (s.awaitTrees i pending).futures[i]? := by
  unfold State.awaitTrees
  split
  case isTrue he =>
    rw [List.isEmpty_iff.mp he] at h
    have hk : Looking env (s.complete i (.ok ())) i size digestInfos trees [] :=
      h.frame rfl (fun _ => .rfl) (fun _ => .rfl)
    simpa [State.complete, hf] using KeyInv.completed hl hk
  case isFalse =>
    have hk : Looking env { s with futures := s.futures.set i (.trees pending) } i size digestInfos trees pending :=
      h.frame rfl (fun _ => .rfl) (fun _ => .rfl)
    simpa [hf] using KeyInv.trees hl hk

theorem KeyInv.complete_error {e : Error} (hr : ∀ p, references env key ≠ .ok p) (hi : i < s.results.length)
    (hf : i < s.futures.length) :
    KeyInv env (s.complete i (.error e)) key i (s.complete i (.error e)).futures[i]? := by
  simpa [State.complete, hf] using KeyInv.failed (s := s.complete i (.error e)) (e := e) hr (by simp [State.complete, hi])

section Answer

variable {digests : List κ} {indexes : List Nat}

theorem Looking.answer (h : Looking env s i size digestInfos trees pending)
    (hc : s.checker = .checking digests indexes) (hi : i < s.results.length) :
    Looking env (s.answer env) i size digestInfos trees pending := by
  have hp : ∀ d, (d, i) ∈ (s.answer env).pushed ↔ (d, i) ∈ s.pushed := by simp [State.answer, hc]
  have hchk : ∀ d, (d, i) ∈ (s.answer env).checked ↔ (d, i) ∈ s.checked ∨ (d, i) ∈ digests.zip indexes := by
    simp [State.answer, hc]
  refine ⟨h.pending_sub, fun d hd => (hp d).mpr (h.pushed_digestInfos d hd), fun t ht hn => ?_,
    fun d hd => h.pushed_only d ((hp d).mp hd), fun hall => ?_, fun hm => ?_⟩
  · obtain ⟨files, hf, hfs⟩ := h.pushed_trees t ht hn
    exact ⟨files, hf, fun d hd => (hp d).mpr (hfs d hd)⟩
  · rw [State.answer_result_of_present hc fun d hd => hall d ((hchk d).mpr (.inr hd))]
    exact h.present fun d hd => hall d ((hchk d).mpr (.inl hd))
  · by_cases hb : ∃ d, (d, i) ∈ digests.zip indexes ∧ env.casHas d = none
    case pos => exact State.answer_result_of_missed hc hb hi
    case neg =>
      have hpres : ∀ d, (d, i) ∈ digests.zip indexes → (env.casHas d).isSome := fun d hd =>
        Option.isSome_iff_ne_none.mpr fun hn => hb ⟨d, hd, hn⟩
      obtain ⟨d, hd, hn⟩ := hm
      rcases (hchk d).mp hd with hd | hd
      case inl => rw [State.answer_result_of_present hc hpres]; exact h.missed ⟨d, hd, hn⟩
      case inr => exact absurd ⟨d, hd, hn⟩ hb

theorem KeyInv.answer {future : Option (KeyFuture κ)} (h : KeyInv env s key i future)
    (hc : s.checker = .checking digests indexes) (hi : i < s.results.length) :
    KeyInv env (s.answer env) key i future := by
  cases h with
  | lookup hp => exact .lookup fun d hd => hp d (by simpa [State.answer, hc] using hd)
  | trees hl hk => exact .trees hl (hk.answer hc hi)
  | completed hl hk => exact .completed hl (hk.answer hc hi)
  | failed hr hn =>
    refine .failed hr ?_
    by_cases hb : ∃ d, (d, i) ∈ digests.zip indexes ∧ env.casHas d = none
    case pos => exact State.answer_result_of_missed hc hb hi
    case neg =>
      rw [State.answer_result_of_present hc fun d hd =>
        Option.isSome_iff_ne_none.mpr fun hm => hb ⟨d, hd, hm⟩]
      exact hn

end Answer

theorem Looking.complete_iff (h : Looking env s i size digestInfos trees [])
    (hl : lookedUp env key = .ok (size, digestInfos, trees)) {size' : Nat} :
    Complete env key size' ↔ size' = size ∧ ∀ d, (d, i) ∈ s.pushed → (env.casHas d).isSome := by
  obtain ⟨files, hm⟩ := Except.mapM_eq_ok_of_forall fun t ht =>
    (h.pushed_trees t ht List.not_mem_nil).imp fun _ hf => hf.1
  have hmem : ∀ d, d ∈ digestInfos ++ files.flatten ↔ (d, i) ∈ s.pushed := by
    intro d
    constructor
    case mp =>
      intro hd
      rcases List.mem_append.mp hd with hd | hd
      case inl => exact h.pushed_digestInfos d hd
      case inr =>
        obtain ⟨fs, hfs, hd⟩ := List.mem_flatten.mp hd
        obtain ⟨t, ht, htf⟩ := Except.exists_of_mem_mapM_eq_ok hm hfs
        obtain ⟨fs', htf', hpushed⟩ := h.pushed_trees t ht List.not_mem_nil
        rw [htf] at htf'
        cases htf'
        exact hpushed d hd
    case mpr =>
      intro hd
      rcases h.pushed_only d hd with hd | ⟨t, ht, fs, htf, hd⟩
      case inl => exact List.mem_append_left _ hd
      case inr =>
        obtain ⟨fs', hfs', htf'⟩ := Except.exists_of_mapM_eq_ok hm ht
        rw [htf] at htf'
        cases htf'
        exact List.mem_append_right _ (List.mem_flatten.mpr ⟨fs, hfs', hd⟩)
  rw [Complete, references_eq hl hm]
  constructor
  case mp =>
    rintro ⟨digests, he, hall⟩
    cases he
    exact ⟨rfl, fun d hd => hall d ((hmem d).mpr hd)⟩
  case mpr =>
    rintro ⟨rfl, hall⟩
    exact ⟨_, rfl, fun d hd => hall d ((hmem d).mp hd)⟩

end KeyInv

section Accounts

variable {s s' : State κ} {i size : Nat} {digestInfos : List κ}

theorem zip_replicate_length {α β : Type} (l : List α) (b : β) : l.zip (List.replicate l.length b) = l.map (·, b) := by
  induction l with
  | nil => rfl
  | cons a l ih => simp [List.replicate_succ, ih]

namespace Accounts

theorem checked_sub (h : Accounts s) {x : κ × Nat} (hx : x ∈ s.checked) : x ∈ s.pushed := by
  rw [h.pushed_eq]; simp [hx]

theorem inFlight_sub (h : Accounts s) {x : κ × Nat} (hx : x ∈ inFlight s.checker) : x ∈ s.pushed := by
  rw [h.pushed_eq]; simp [hx]

theorem of_eq (h : Accounts s) (hd : s'.digestsToCheck = s.digestsToCheck)
    (hi : s'.digestsToCheckIdxs = s.digestsToCheckIdxs) (hp : s'.pushed = s.pushed) (hc : s'.checked = s.checked)
    (hf : inFlight s'.checker = inFlight s.checker) : Accounts s' :=
  ⟨by rw [hd, hi, h.idxs_length], by rw [hp, hc, hf, hd, hi, h.pushed_eq]⟩

theorem extendDigests (h : Accounts s) : Accounts (s.extendDigests i digestInfos) where
  idxs_length := by simp [State.extendDigests, h.idxs_length]
  pushed_eq := by
    simp [State.extendDigests, h.pushed_eq, List.zip_append h.idxs_length.symm, zip_replicate_length]

theorem setSize (h : Accounts s) : Accounts (s.setSize i size digestInfos) := by
  rw [State.setSize_eq]
  exact Accounts.extendDigests (h.of_eq rfl rfl rfl rfl rfl)

end Accounts

end Accounts

/-! ## The invariant of every run -/

structure Inv (keys : List κ) (s : State κ) : Prop where
  accounts : Accounts s
  futures_length : s.futures.length = keys.length
  results_length : s.results.length = keys.length
  keys : ∀ i (hi : i < keys.length), KeyInv env s keys[i] i s.futures[i]?
  done : s.done = true → ∀ f ∈ s.futures, f.isCompleted = true
  returned_ok : s.outcome = some (.returned (.ok ())) →
    s.done = true ∧ s.digestsToCheck = [] ∧ inFlight s.checker = []
  not_panicked : ∀ msg, s.outcome ≠ some (.panicked msg)

section Inv

variable {env} {keys : List κ} {s s' : State κ} {i j : Nat} {key : κ}

theorem init_inv (keys : List κ) {results : List (Option Nat)} (hlen : results.length = keys.length) :
    Inv env keys (State.init keys results) where
  accounts := ⟨rfl, rfl⟩
  futures_length := by simp [State.init]
  results_length := hlen
  keys i hi := by
    have hk : KeyInv env (State.init keys results) keys[i] i (some (.lookup keys[i])) := .lookup fun _ h => by cases h
    simpa [State.init, hi] using hk
  done h := by cases h
  returned_ok h := by cases h
  not_panicked _ h := by cases h

theorem Inv.index_lt (h : Inv env keys s) {future : KeyFuture κ} (hf : s.futures[i]? = some future) :
    i < keys.length :=
  h.futures_length ▸ (List.getElem?_eq_some_iff.mp hf).1

theorem Inv.not_done (h : Inv env keys s) {future : KeyFuture κ} (hf : s.futures[i]? = some future)
    (hc : future.isCompleted = false) : s.done = false := by
  cases hd : s.done
  case false => rfl
  case true => simp [h.done hd future (List.mem_of_getElem? hf)] at hc

theorem Inv.keyStep (h : Inv env keys s) (hnd : s.done = false) (hacc : Accounts s')
    (hfl : s'.futures.length = s.futures.length) (hrl : s'.results.length = s.results.length)
    (hi : i < keys.length) (hk : KeyInv env s' keys[i] i s'.futures[i]?)
    (hag : ∀ j, j ≠ i → State.Agrees s s' j) (hd : s'.done = s.done) (ho : s'.outcome = s.outcome) :
    Inv env keys s' where
  accounts := hacc
  futures_length := hfl.trans h.futures_length
  results_length := hrl.trans h.results_length
  keys j hj := by
    by_cases he : j = i
    case pos => subst he; exact hk
    case neg => rw [(hag j he).future]; exact (h.keys j hj).agrees (hag j he)
  done hd' := absurd (hd ▸ hd') (by simp [hnd])
  returned_ok hr := absurd (h.returned_ok (ho ▸ hr)).1 (by simp [hnd])
  not_panicked msg := ho ▸ h.not_panicked msg

theorem Inv.lookup (h : Inv env keys s) (hf : s.futures[i]? = some (.lookup key)) :
    Inv env keys (s.lookup env i key) := by
  have hi := h.index_lt hf
  have hnd := h.not_done hf rfl
  have hfl : i < s.futures.length := h.futures_length ▸ hi
  have hrl : i < s.results.length := h.results_length ▸ hi
  have hk := h.keys i hi
  rw [hf] at hk
  cases hk with
  | lookup hp =>
    rcases State.lookup_cases env (s := s) (i := i) keys[i] with
      ⟨e, hr, heq⟩ | ⟨size, digestInfos, e, hr, heq⟩ | ⟨size, digestInfos, trees, hl, heq⟩
    case inl =>
      rw [heq]
      refine h.keyStep hnd (h.accounts.of_eq rfl rfl rfl rfl rfl) (by simp [State.complete])
        (by simp [State.complete]) hi (KeyInv.complete_error (references_ne_of_lookedUp hr) hrl hfl)
        (fun j hj => State.agrees_complete hj _) rfl rfl
    case inr.inl =>
      rw [heq]
      refine h.keyStep hnd (h.accounts.setSize.of_eq rfl rfl rfl rfl rfl) (by simp [State.complete, State.setSize])
        (by simp [State.complete, State.setSize]) hi
        (KeyInv.complete_error (references_ne_of_lookedUp hr) (by simpa [State.setSize] using hrl)
          (by simpa [State.setSize] using hfl))
        (fun j hj => (State.agrees_setSize hj).trans (State.agrees_complete hj _)) (by simp [State.complete, State.setSize])
        (by simp [State.complete, State.setSize])
    case inr.inr =>
      rw [heq]
      obtain ⟨future, hfut⟩ := State.awaitTrees_eq (s := s.setSize i size digestInfos) (i := i) trees
      have hs : Looking env (s.setSize i size digestInfos) i size digestInfos trees trees :=
        Looking.start hp h.accounts hrl
      have hk := KeyInv.awaitTrees hl hs (by simpa [State.setSize] using hfl)
      rw [hfut] at hk ⊢
      refine h.keyStep hnd (h.accounts.setSize.of_eq rfl rfl rfl rfl rfl) (by simp [State.setSize])
        (by simp [State.setSize]) hi hk
        (fun j hj => hfut ▸ (State.agrees_setSize hj).trans (State.agrees_awaitTrees hj trees)) (by simp [State.setSize])
        (by simp [State.setSize])

theorem Inv.treeArrives (h : Inv env keys s) {pending : List κ} (hf : s.futures[i]? = some (.trees pending)) :
    Inv env keys (s.treeArrives env i pending j) := by
  have hi := h.index_lt hf
  have hnd := h.not_done hf rfl
  have hfl : i < s.futures.length := h.futures_length ▸ hi
  have hrl : i < s.results.length := h.results_length ▸ hi
  have hk := h.keys i hi
  rw [hf] at hk
  cases hk with
  | trees hl hlook =>
    rcases State.treeArrives_cases env (s := s) (i := i) (j := j) pending with
      ⟨-, heq⟩ | ⟨t, e, ht, hfe, heq⟩ | ⟨t, files, ht, hff, heq⟩
    case inl => rw [heq]; exact h
    case inr.inl =>
      rw [heq]
      have hr := references_ne_of_treeFiles hl (hlook.pending_sub t (List.mem_of_getElem? ht)) hfe
      exact h.keyStep hnd (h.accounts.of_eq rfl rfl rfl rfl rfl) (by simp [State.complete])
        (by simp [State.complete]) hi (KeyInv.complete_error hr hrl hfl)
        (fun j hj => State.agrees_complete hj _) rfl rfl
    case inr.inr =>
      rw [heq]
      obtain ⟨future, hfut⟩ := State.awaitTrees_eq (s := s.extendDigests i files) (i := i) (pending.eraseIdx j)
      have hk := KeyInv.awaitTrees hl (hlook.arrive ht hff) (by simpa [State.extendDigests] using hfl)
      rw [hfut] at hk ⊢
      exact h.keyStep hnd (h.accounts.extendDigests.of_eq rfl rfl rfl rfl rfl) (by simp [State.extendDigests])
        (by simp [State.extendDigests]) hi hk
        (fun j hj => hfut ▸ (State.agrees_extendDigests hj).trans (State.agrees_awaitTrees hj _))
        (by simp [State.extendDigests]) (by simp [State.extendDigests])

theorem Inv.frame (h : Inv env keys s) (hacc : Accounts s') (hf : s'.futures = s.futures)
    (hr : s'.results = s.results) (hp : s'.pushed = s.pushed) (hc : s'.checked = s.checked)
    (hdone : s'.done = true → ∀ f ∈ s.futures, f.isCompleted = true)
    (hok : s'.outcome = some (.returned (.ok ())) → s'.done = true ∧ s'.digestsToCheck = [] ∧ inFlight s'.checker = [])
    (hpanic : ∀ msg, s'.outcome ≠ some (.panicked msg)) : Inv env keys s' where
  accounts := hacc
  futures_length := hf ▸ h.futures_length
  results_length := hr ▸ h.results_length
  keys j hj := by rw [hf]; exact (h.keys j hj).agrees (.of_eq hf hr hp hc)
  done hd := hf ▸ hdone hd
  returned_ok := hok
  not_panicked := hpanic

theorem Inv.of_eq (h : Inv env keys s) (hf : s'.futures = s.futures) (hr : s'.results = s.results)
    (hp : s'.pushed = s.pushed) (hc : s'.checked = s.checked) (hd : s'.done = s.done) (ho : s'.outcome = s.outcome)
    (hq : s'.digestsToCheck = s.digestsToCheck) (hi : s'.digestsToCheckIdxs = s.digestsToCheckIdxs)
    (hfl : inFlight s'.checker = inFlight s.checker) : Inv env keys s' :=
  h.frame (h.accounts.of_eq hq hi hp hc hfl) hf hr hp hc (fun hd' => h.done (hd ▸ hd'))
    (fun ho' => by rw [hd, hq, hfl]; exact h.returned_ok (ho ▸ ho')) (fun msg => ho ▸ h.not_panicked msg)

theorem Inv.takeDigests (h : Inv env keys s) (hc : s.checker = .idle ∨ s.checker = .woken) :
    Inv env keys s.takeDigests := by
  have hw : s.checker ≠ .waiting := by rcases hc with hc | hc <;> rw [hc] <;> simp
  have hfl : inFlight s.checker = [] := by rcases hc with hc | hc <;> rw [hc] <;> rfl
  rcases State.takeDigests_cases hw h.accounts.idxs_length with ⟨hd, hq, heq⟩ | ⟨-, heq⟩
  case inl =>
    rw [heq]
    exact h.frame (h.accounts.of_eq rfl rfl rfl rfl rfl) rfl rfl rfl rfl h.done (fun _ => ⟨hd, hq, hfl⟩)
      (fun _ h => by cases h)
  case inr =>
    rw [heq]
    refine h.frame ⟨rfl, ?_⟩ rfl rfl rfl rfl h.done (fun ho => ?_) h.not_panicked
    · show s.pushed = s.checked ++ inFlight (.checking s.digestsToCheck s.digestsToCheckIdxs) ++ ([] : List κ).zip []
      rw [h.accounts.pushed_eq, hfl]
      simp [inFlight]
    · obtain ⟨hd, hq, -⟩ := h.returned_ok ho
      simp [hd, hq, inFlight]

theorem Inv.poll (h : Inv env keys s) : Inv env keys s.poll := by
  unfold State.poll
  split
  case h_1 hc =>
    split
    case isTrue =>
      have h' : Inv env keys { s with permit := false } := h.of_eq rfl rfl rfl rfl rfl rfl rfl rfl rfl
      exact h'.takeDigests (.inl hc)
    case isFalse => exact h.of_eq rfl rfl rfl rfl rfl rfl rfl rfl (by simp [hc, inFlight])
  case h_2 hc => exact h.takeDigests (.inr hc)
  case h_3 => exact h

theorem Inv.finish (h : Inv env keys s) : Inv env keys s.finish := by
  unfold State.finish
  split
  case isTrue hc =>
    have hall : ∀ f ∈ s.futures, f.isCompleted = true := by simpa using ((Bool.and_eq_true _ _).mp hc).1
    have hnd : s.done = false := by simpa using ((Bool.and_eq_true _ _).mp hc).2
    refine h.frame (h.accounts.of_eq (by simp) (by simp) (by simp) (by simp) (by simp)) (by simp) (by simp)
      (by simp) (by simp) (fun _ => hall) (fun ho => ?_) (fun msg => by simpa using h.not_panicked msg)
    · simp only [State.notifyOne_outcome] at ho
      exact absurd (h.returned_ok ho).1 (by simp [hnd])
  case isFalse => exact h

theorem length_foldl_set_none (l : List Nat) (rs : List (Option Nat)) :
    (l.foldl (fun results index => results.set index none) rs).length = rs.length := by
  induction l generalizing rs with
  | nil => rfl
  | cons index l ih => rw [List.foldl_cons, ih, List.length_set]

theorem Inv.answer (h : Inv env keys s) : Inv env keys (s.answer env) := by
  unfold State.answer
  split
  case h_1 digests indexes hc =>
    have hacc : Accounts (s.answer env) := ⟨by simpa [State.answer, hc] using h.accounts.idxs_length, by
      simpa [State.answer, hc, inFlight] using h.accounts.pushed_eq⟩
    simp only [State.answer, hc] at hacc
    refine ⟨hacc, h.futures_length, by rw [length_foldl_set_none]; exact h.results_length, fun j hj => ?_,
      h.done, fun ho => ?_, h.not_panicked⟩
    · have hk := (h.keys j hj).answer hc (h.results_length ▸ hj)
      simpa [State.answer, hc] using hk
    · obtain ⟨hd, hq, -⟩ := h.returned_ok ho
      exact ⟨hd, hq, rfl⟩
  case h_2 => exact h

theorem Inv.fail (h : Inv env keys s) (e : Error) : Inv env keys (s.fail e) := by
  unfold State.fail
  split
  case h_1 =>
    unfold State.checkerEnds
    split <;> exact h.frame (h.accounts.of_eq rfl rfl rfl rfl rfl) rfl rfl rfl rfl h.done
      (fun ho => by simp [Except.mapError] at ho) (fun _ ho => by simp at ho)
  case h_2 => exact h

theorem Inv.step (h : Inv env keys s) (e : Event) : Inv env keys (s.step env e) := by
  unfold State.step
  split
  case isTrue => exact h
  case isFalse =>
    split
    case h_1 =>
      split
      case h_1 key hf => exact h.lookup hf
      case h_2 => exact h
    case h_2 =>
      split
      case h_1 pending hf => exact h.treeArrives hf
      case h_2 => exact h
    case h_3 => exact h.finish
    case h_4 => exact h.poll
    case h_5 => exact h.answer
    case h_6 e => exact h.fail e

theorem Inv.result_iff_complete (h : Inv env keys s) (hd : s.done = true) (hpc : s.checked = s.pushed)
    (hi : i < keys.length) (size : Nat) : s.results[i]? = some (some size) ↔ Complete env keys[i] size := by
  have hk := h.keys i hi
  generalize hf : s.futures[i]? = future at hk
  cases hk with
  | lookup _ => exact absurd (h.done hd _ (List.mem_of_getElem? hf)) (by simp [KeyFuture.isCompleted])
  | trees _ _ => exact absurd (h.done hd _ (List.mem_of_getElem? hf)) (by simp [KeyFuture.isCompleted])
  | completed hl hlook =>
    rw [hlook.complete_iff hl]
    by_cases hall : ∀ d, (d, i) ∈ s.pushed → (env.casHas d).isSome
    case pos =>
      rw [hlook.present (hpc ▸ hall), Option.some.injEq, Option.some.injEq]
      exact ⟨fun he => ⟨he.symm, hall⟩, fun ⟨he, _⟩ => he.symm⟩
    case neg =>
      obtain ⟨d, hd, hn⟩ : ∃ d, (d, i) ∈ s.pushed ∧ env.casHas d = none := by
        by_contra hne
        exact hall fun d hd => Option.isSome_iff_ne_none.mpr fun hn => hne ⟨d, hd, hn⟩
      rw [hlook.missed ⟨d, hpc ▸ hd, hn⟩]
      simp [hall]
  | failed hr hn =>
    rw [hn]
    simp only [Option.some.injEq, reduceCtorEq, false_iff]
    exact fun ⟨digests, he, _⟩ => hr _ he

end Inv

/-! ## No lost wake-up -/

-- The checker sleeps through no work: while the call runs with digests queued or `done` set, the
-- checker has been woken, or it is not the waiter and a permit is stored for it.
def Awake (s : State κ) : Prop :=
  s.outcome = none → (s.digestsToCheck ≠ [] ∨ s.done = true) →
    s.checker = .woken ∨ (s.checker ≠ .waiting ∧ s.permit = true)

section Awake

variable {env} {s s' : State κ} {i j : Nat}

theorem awake_notifyOne (s : State κ) : Awake s.notifyOne := fun _ _ => State.notifyOne_awake s

theorem Awake.of_eq (h : Awake s) (ho : s'.outcome = s.outcome) (hq : s'.digestsToCheck = s.digestsToCheck)
    (hd : s'.done = s.done) (hc : s'.checker = s.checker) (hp : s'.permit = s.permit) : Awake s' := by
  intro ho' hw
  rw [hc, hp]
  exact h (ho ▸ ho') (hq ▸ hd ▸ hw)

theorem Awake.complete (h : Awake s) (result : Except Error Unit) : Awake (s.complete i result) := by
  cases result <;> exact h.of_eq rfl rfl rfl rfl rfl

theorem Awake.awaitTrees (h : Awake s) (pending : List κ) : Awake (s.awaitTrees i pending) := by
  obtain ⟨_, hf⟩ := State.awaitTrees_eq (s := s) (i := i) pending
  rw [hf]
  exact h.of_eq rfl rfl rfl rfl rfl

theorem Awake.lookup (h : Awake s) (key : κ) : Awake (s.lookup env i key) := by
  rcases State.lookup_cases env (s := s) (i := i) key with ⟨_, _, heq⟩ | ⟨_, _, _, _, heq⟩ | ⟨_, _, _, _, heq⟩
  case inl => rw [heq]; exact h.complete _
  case inr.inl => rw [heq, State.setSize]; exact (awake_notifyOne _).complete _
  case inr.inr => rw [heq, State.setSize]; exact (awake_notifyOne _).awaitTrees _

theorem Awake.treeArrives (h : Awake s) (pending : List κ) : Awake (s.treeArrives env i pending j) := by
  rcases State.treeArrives_cases env (s := s) (i := i) (j := j) pending with ⟨-, heq⟩ | ⟨_, _, _, _, heq⟩ | ⟨_, _, _, _, heq⟩
  case inl => rw [heq]; exact h
  case inr.inl => rw [heq]; exact h.complete _
  case inr.inr => rw [heq, State.extendDigests]; exact (awake_notifyOne _).awaitTrees _

theorem awake_takeDigests (hw : s.checker ≠ .waiting) (hl : s.digestsToCheckIdxs.length = s.digestsToCheck.length) :
    Awake s.takeDigests := by
  rcases State.takeDigests_cases hw hl with ⟨-, -, heq⟩ | ⟨-, heq⟩
  case inl => rw [heq]; intro ho; cases ho
  case inr =>
    rw [heq]
    rintro - (hq | hd)
    case inl => exact absurd rfl hq
    case inr => exact .inr ⟨by simp, by simp only at hd; simp [hd]⟩

theorem Awake.poll (h : Awake s) (hacc : Accounts s) : Awake s.poll := by
  unfold State.poll
  split
  case h_1 hc =>
    split
    case isTrue => exact awake_takeDigests (by simp [hc]) hacc.idxs_length
    case isFalse hp =>
      intro ho hw
      rcases h ho hw with hw' | ⟨-, hp'⟩
      case inl => simp [hc] at hw'
      case inr => exact absurd hp' hp
  case h_2 hc => exact awake_takeDigests (by simp [hc]) hacc.idxs_length
  case h_3 => exact h

theorem Awake.answer (h : Awake s) : Awake (s.answer env) := by
  unfold State.answer
  split
  case h_1 digests indexes hc =>
    intro ho hw
    rcases h ho hw with hw' | ⟨-, hp⟩
    case inl => simp [hc] at hw'
    case inr => exact .inr ⟨by simp, hp⟩
  case h_2 => exact h

theorem Awake.step (h : Awake s) (hacc : Accounts s) (e : Event) : Awake (s.step env e) := by
  unfold State.step
  split
  case isTrue => exact h
  case isFalse =>
    split
    case h_1 =>
      split
      case h_1 key _ => exact h.lookup key
      case h_2 => exact h
    case h_2 =>
      split
      case h_1 pending _ => exact h.treeArrives pending
      case h_2 => exact h
    case h_3 =>
      unfold State.finish
      split
      case isTrue => exact awake_notifyOne _
      case isFalse => exact h
    case h_4 => exact h.poll hacc
    case h_5 => exact h.answer
    case h_6 e =>
      unfold State.fail
      split
      case h_1 => unfold State.checkerEnds; split <;> (intro ho; cases ho)
      case h_2 => exact h

end Awake

theorem run_inv (keys : List κ) {results : List (Option Nat)} (hlen : results.length = keys.length)
    (events : List Event) : Inv env keys (run env keys results events) :=
  EStateM.fold_inv (State.step env) (fun _ e hs => hs.step e) events _ (init_inv keys hlen)

theorem run_awake (keys : List κ) {results : List (Option Nat)} (hlen : results.length = keys.length)
    (events : List Event) : Awake (run env keys results events) :=
  (EStateM.fold_inv (I := fun s => Inv env keys s ∧ Awake s) (State.step env)
    (fun _ e hs => ⟨hs.1.step e, hs.2.step hs.1.accounts e⟩) events _
    ⟨init_inv keys hlen, fun _ hw => by simp [State.init] at hw⟩).2

theorem inner_has_with_results_complete (keys : List κ) (results : List (Option Nat))
    (hlen : results.length = keys.length) (events : List Event)
    (hok : (run env keys results events).outcome = some (.returned (.ok ()))) :
    (∀ i (hi : i < keys.length) size,
      (run env keys results events).results[i]? = some (some size) ↔ Complete env keys[i] size) ∧
    (∀ i (hi : i < keys.length),
      (run env keys results events).results[i]? = some none ↔ ∀ size, ¬Complete env keys[i] size) ∧
    (run env keys results events).checked = (run env keys results events).pushed := by
  have h := run_inv env keys hlen events
  obtain ⟨hd, hq, hfl⟩ := h.returned_ok hok
  have hpc : (run env keys results events).checked = (run env keys results events).pushed := by
    rw [h.accounts.pushed_eq, hfl, hq]
    simp
  have hiff := fun i hi => h.result_iff_complete hd hpc (i := i) hi
  refine ⟨hiff, fun i hi => ?_, hpc⟩
  -- the result is set, so it is `none` exactly when it is the size of no complete entry
  have hi' : i < (run env keys results events).results.length := h.results_length ▸ hi
  obtain ⟨r, hr⟩ : ∃ r, (run env keys results events).results[i]? = some r := ⟨_, List.getElem?_eq_getElem hi'⟩
  rw [hr]
  cases r with
  | none => simp only [true_iff]; exact fun size hc => by simpa [hr] using (hiff i hi size).mpr hc
  | some size => simp only [Option.some.injEq, reduceCtorEq, false_iff, not_forall, not_not]; exact ⟨size, (hiff i hi size).mp hr⟩

-- Two keys: the first entry names a file and an output directory whose Tree arrives after the
-- first check, the second is missing. The checker meets the queued Tree files after `done`.
def twoKeyStores : Stores Nat Nat where
  tryFrom d := .ok d
  getActionResult key := if key = 0 then .ok (⟨[⟨some 10⟩], [⟨some 20⟩], none, none⟩, 7) else .error (Error.new .notFound "")
  getTree t := if t = 20 then .ok ⟨some ⟨[⟨some 30⟩]⟩, []⟩ else .error (Error.new .notFound "")
  casHas d := if d = 10 ∨ d = 30 then some 1 else none

def twoKeyEvents : List Event :=
  [.lookup 0, .lookup 1, .poll, .answer, .treeArrives 0 0, .finish, .poll, .answer, .poll]

theorem inner_has_with_results_complete_two_keys :
    ([none, none] : List (Option Nat)).length = [0, 1].length ∧
    (run twoKeyStores [0, 1] [none, none] twoKeyEvents).outcome = some (.returned (.ok ())) ∧
    ((∀ i (hi : i < [0, 1].length) size,
      (run twoKeyStores [0, 1] [none, none] twoKeyEvents).results[i]? = some (some size) ↔
        Complete twoKeyStores [0, 1][i] size) ∧
    (∀ i (hi : i < [0, 1].length),
      (run twoKeyStores [0, 1] [none, none] twoKeyEvents).results[i]? = some none ↔
        ∀ size, ¬Complete twoKeyStores [0, 1][i] size) ∧
    (run twoKeyStores [0, 1] [none, none] twoKeyEvents).checked =
      (run twoKeyStores [0, 1] [none, none] twoKeyEvents).pushed) :=
  have hok : (run twoKeyStores [0, 1] [none, none] twoKeyEvents).outcome = some (.returned (.ok ())) := by
    decide +kernel
  ⟨rfl, hok, inner_has_with_results_complete twoKeyStores [0, 1] [none, none] rfl twoKeyEvents hok⟩

end CompletenessCheckingStore

end NativeLink
