import Mathlib

-- Invariants of programs in `EStateM ε σ`, a state monad whose error result keeps the state: the
-- model of a method that runs under a lock and may panic, after which the lock is released and the
-- state stays as the panic left it. `Ends I bad r` says that the run `r` stops, by returning or by
-- raising, in a state satisfying `I`, and raises nothing `bad`. `Preserves I bad x` says this of
-- every run of `x` from a state satisfying `I`. `Post Q E r` is the finer form with the value: a
-- call's specification relates what it returns to the state it started from. Runs of a step
-- function are folds, and `fold_inv` is the induction rule for them.

namespace EStateM

variable {ε σ α β : Type} {I J : σ → Prop} {bad : ε → Prop}

def Ends (I : σ → Prop) (bad : ε → Prop) : Result ε σ α → Prop
  | .ok _ s      => I s
  | .error e s   => I s ∧ ¬bad e

def Preserves (I : σ → Prop) (bad : ε → Prop) (x : EStateM ε σ α) : Prop :=
  ∀ s, I s → Ends I bad (x.run s)

-- The state a run stops in, whether it returned or raised.
def Result.state : Result ε σ α → σ
  | .ok _ s    => s
  | .error _ s => s

@[simp] theorem run_getThe (s : σ) : (getThe σ : EStateM ε σ σ).run s = .ok s s :=
  rfl

@[simp] theorem ends_ok {a : α} {s : σ} : Ends (α := α) I bad (.ok a s) ↔ I s :=
  Iff.rfl

@[simp] theorem ends_error {e : ε} {s : σ} : Ends (α := α) I bad (.error e s) ↔ I s ∧ ¬bad e :=
  Iff.rfl

@[simp] theorem Result.state_ok {a : α} {s : σ} : (Result.ok a s : Result ε σ α).state = s :=
  rfl

@[simp] theorem Result.state_error {e : ε} {s : σ} : (Result.error e s : Result ε σ α).state = s :=
  rfl

theorem state_run_bind_pure {x : EStateM ε σ α} {b : β} {s : σ} :
    ((x >>= fun _ => pure b).run s).state = (x.run s).state := by
  rw [run_bind]
  cases x.run s <;> rfl

theorem state_run_map {x : EStateM ε σ α} {f : α → β} {s : σ} : ((f <$> x).run s).state = (x.run s).state := by
  show (EStateM.map f x s).state = (x s).state
  simp only [EStateM.map]
  cases x s <;> rfl

theorem Ends.state {r : Result ε σ α} : Ends I bad r → I r.state := by
  cases r <;> simp_all

theorem Ends.intro {r : Result ε σ α} (hI : I r.state) (hbad : ∀ e s, r = .error e s → ¬bad e) :
    Ends I bad r := by
  cases r
  case ok => exact hI
  case error e s => exact ⟨hI, hbad e s rfl⟩

theorem Ends.mono (hIJ : ∀ s, I s → J s) {r : Result ε σ α} : Ends I bad r → Ends J bad r := by
  cases r <;> simp_all

theorem run_bind_of_ok {x : EStateM ε σ α} {f : α → EStateM ε σ β} {s s' : σ} {a : α}
    (hx : x.run s = .ok a s') : (x >>= f).run s = (f a).run s' := by
  rw [run_bind, hx]

theorem Ends.bind {x : EStateM ε σ α} {f : α → EStateM ε σ β} {s : σ}
    (hx : Ends J bad (x.run s)) (hJ : ∀ s, J s → I s)
    (hf : ∀ a s', x.run s = .ok a s' → Ends I bad ((f a).run s')) :
    Ends I bad ((x >>= f).run s) := by
  rw [run_bind]
  cases h : x.run s
  case ok a s' => exact hf a s' h
  case error e s' =>
    rw [h] at hx
    exact ⟨hJ _ hx.1, hx.2⟩

theorem Ends.bind_preserves {x : EStateM ε σ α} {f : α → EStateM ε σ β} {s : σ}
    (hx : Ends I bad (x.run s)) (hf : ∀ a, Preserves I bad (f a)) : Ends I bad ((x >>= f).run s) :=
  Ends.bind hx (fun _ h => h) fun a s' h => hf a s' (by simpa [h] using hx)

theorem Preserves.bind {x : EStateM ε σ α} {f : α → EStateM ε σ β}
    (hx : Preserves I bad x) (hf : ∀ a, Preserves I bad (f a)) : Preserves I bad (x >>= f) :=
  fun s hs => (hx s hs).bind_preserves hf

theorem Preserves.pure (a : α) : Preserves I bad (pure a : EStateM ε σ α) :=
  fun _ hs => hs

theorem Preserves.throw {e : ε} (h : ¬bad e) : Preserves I bad (throw e : EStateM ε σ α) :=
  fun _ hs => ⟨hs, h⟩

theorem Preserves.getThe_bind {f : σ → EStateM ε σ α} (hf : ∀ s, I s → Ends I bad ((f s).run s)) :
    Preserves I bad (getThe σ >>= f) :=
  fun s hs => hf s hs

theorem Preserves.set {s' : σ} (h : I s') : Preserves I bad (set s' : EStateM ε σ PUnit) :=
  fun _ _ => h

theorem Preserves.modify {f : σ → σ} (h : ∀ s, I s → I (f s)) :
    Preserves I bad (modify f : EStateM ε σ PUnit) :=
  fun s hs => h s hs

theorem Preserves.ite {c : Prop} [Decidable c] {x y : EStateM ε σ α}
    (hx : c → Preserves I bad x) (hy : ¬c → Preserves I bad y) : Preserves I bad (if c then x else y) := by
  split
  case isTrue h => exact hx h
  case isFalse h => exact hy h

theorem Preserves.map {x : EStateM ε σ α} (f : α → β) (hx : Preserves I bad x) :
    Preserves I bad (f <$> x) := by
  intro s hs
  have h := hx s hs
  show Ends I bad (EStateM.map f x s)
  simp only [EStateM.map]
  cases hr : x s
  case ok a s' => simpa [run, hr] using h
  case error e s' => simpa [run, hr] using h

theorem Preserves.discard {x : EStateM ε σ α} (hx : Preserves I bad x) : Preserves I bad (discard x) :=
  Preserves.map _ hx

theorem Preserves.adaptExcept {x : EStateM ε σ α} {f : ε → ε} (hx : Preserves I bad x)
    (hf : ∀ e, ¬bad e → ¬bad (f e)) : Preserves I bad (x.adaptExcept f) := by
  intro s hs
  have h := hx s hs
  rw [run_adaptExcept]
  cases hr : x.run s
  case ok a s' =>
    rw [hr] at h
    exact h
  case error e s' =>
    rw [hr] at h
    exact ⟨h.1, hf e h.2⟩

theorem Preserves.foldlM {f : β → α → EStateM ε σ β} :
    ∀ (l : List α) (b : β), (∀ b, ∀ a ∈ l, Preserves I bad (f b a)) → Preserves I bad (l.foldlM f b)
  | [], b, _ => Preserves.pure b
  | a :: l, b, hf => by
    rw [List.foldlM_cons]
    refine (hf b a List.mem_cons_self).bind fun b' => Preserves.foldlM l b' fun b'' a' ha' => ?_
    exact hf b'' a' (List.mem_cons_of_mem a ha')

theorem Preserves.forM {f : α → EStateM ε σ PUnit} :
    ∀ (l : List α), (∀ a ∈ l, Preserves I bad (f a)) → Preserves I bad (l.forM f)
  | [], _ => Preserves.pure _
  | a :: l, hf =>
    (hf a List.mem_cons_self).bind fun _ => Preserves.forM l fun a' ha' => hf a' (List.mem_cons_of_mem a ha')

theorem Preserves.ofExcept {r : Except ε α} (h : ∀ e, r = .error e → ¬bad e) :
    Preserves I bad (MonadExcept.ofExcept r : EStateM ε σ α) := by
  cases r
  case error e => exact Preserves.throw (h e rfl)
  case ok a => exact Preserves.pure a

theorem Preserves.ofExcept_bind {r : Except ε α} {f : α → EStateM ε σ β} (he : ∀ e, r = .error e → ¬bad e)
    (hf : ∀ a, r = .ok a → Preserves I bad (f a)) : Preserves I bad (MonadExcept.ofExcept r >>= f) := by
  intro s hs
  cases r
  case error e => exact ⟨hs, he e rfl⟩
  case ok a => exact hf a rfl s hs

-- `Post Q E r`: the run `r` returned a value and a state satisfying `Q`, or stopped with an error
-- and a state satisfying `E`. A call's specification is a `Post` of its run from a given state.
def Post (Q : α → σ → Prop) (E : ε → σ → Prop) : Result ε σ α → Prop
  | .ok a s    => Q a s
  | .error e s => E e s

section Post

variable {Q Q' : α → σ → Prop} {R : β → σ → Prop} {E E' : ε → σ → Prop}

@[simp] theorem post_ok {a : α} {s : σ} : Post Q E (.ok a s) ↔ Q a s :=
  Iff.rfl

@[simp] theorem post_error {e : ε} {s : σ} : Post Q E (.error e s : Result ε σ α) ↔ E e s :=
  Iff.rfl

theorem Post.mono {r : Result ε σ α} (hQ : ∀ a s, Q a s → Q' a s) (hE : ∀ e s, E e s → E' e s)
    (h : Post Q E r) : Post Q' E' r := by
  cases r
  case ok a s => exact hQ a s h
  case error e s => exact hE e s h

theorem Post.bind {x : EStateM ε σ α} {f : α → EStateM ε σ β} {s : σ} (hx : Post Q E (x.run s))
    (hf : ∀ a s', Q a s' → Post R E ((f a).run s')) : Post R E ((x >>= f).run s) := by
  rw [run_bind]
  cases h : x.run s
  case ok a s' =>
    rw [h] at hx
    exact hf a s' hx
  case error e s' =>
    rw [h] at hx
    exact hx

theorem Post.map {x : EStateM ε σ α} {f : α → β} {s : σ} (hx : Post Q E (x.run s)) :
    Post (fun b s' => ∃ a, f a = b ∧ Q a s') E ((f <$> x).run s) := by
  show Post _ E (EStateM.map f x s)
  simp only [EStateM.map]
  cases h : x s
  case ok a s' =>
    rw [run, h] at hx
    exact ⟨a, rfl, hx⟩
  case error e s' =>
    rw [run, h] at hx
    exact hx

theorem Post.exists_ok {r : Result ε σ α} (h : Post Q (fun _ _ => False) r) : ∃ a s, r = .ok a s ∧ Q a s := by
  cases r
  case ok a s => exact ⟨a, s, rfl, h⟩
  case error => exact h.elim

theorem Post.adaptExcept {x : EStateM ε σ α} {f : ε → ε} {s : σ} (hx : Post Q E (x.run s))
    (hf : ∀ e s', E e s' → E (f e) s') : Post Q E ((x.adaptExcept f).run s) := by
  rw [run_adaptExcept]
  cases h : x.run s
  case ok a s' =>
    rw [h] at hx
    exact hx
  case error e s' =>
    rw [h] at hx
    exact hf e s' hx

end Post

-- A program on a part of the state, run on the whole: `view` reads the part, `update` puts it back.
def focus {τ : Type} (view : σ → τ) (update : σ → τ → σ) (x : EStateM ε τ α) : EStateM ε σ α := fun s =>
  match x (view s) with
  | .ok a t => .ok a (update s t)
  | .error e t => .error e (update s t)

section Focus

variable {τ : Type} {view : σ → τ} {update : σ → τ → σ} {x : EStateM ε τ α} {s : σ} {t : τ}

theorem run_focus_ok {a : α} (h : x.run (view s) = .ok a t) : (focus view update x).run s = .ok a (update s t) := by
  simp only [focus, run] at h ⊢
  rw [h]

theorem run_focus_error {e : ε} (h : x.run (view s) = .error e t) :
    (focus view update x).run s = .error e (update s t) := by
  simp only [focus, run] at h ⊢
  rw [h]

end Focus

theorem fold_inv {γ : Type} (step : σ → γ → σ) (hstep : ∀ s c, I s → I (step s c)) :
    ∀ (cs : List γ) (s : σ), I s → I (cs.foldl step s)
  | [], _, hs      => hs
  | c :: cs, s, hs => fold_inv step hstep cs (step s c) (hstep s c hs)

end EStateM

namespace Except

variable {ε ε' α β : Type}

theorem eq_ok_of_mapError {f : ε → ε'} {r : Except ε α} {a : α} (h : r.mapError f = .ok a) : r = .ok a := by
  cases r
  case error e => cases h
  case ok a' => cases h; rfl

section MapM

-- `mapM` in `Except` succeeds exactly when the function does on every element, in order.
variable {f : α → Except ε β}

theorem mapM_cons_eq_ok {a : α} {l : List α} {bs : List β} :
    (a :: l).mapM f = .ok bs ↔ ∃ b bs', f a = .ok b ∧ l.mapM f = .ok bs' ∧ bs = b :: bs' := by
  rw [List.mapM_cons]
  cases f a <;> cases l.mapM f <;> simp [bind, Except.bind, pure, Except.pure, eq_comm]

theorem exists_of_mapM_eq_ok : ∀ {l : List α} {bs : List β} {a : α},
    l.mapM f = .ok bs → a ∈ l → ∃ b ∈ bs, f a = .ok b
  | a' :: l, bs, a, h, ha => by
    obtain ⟨b, bs', hb, hbs', rfl⟩ := mapM_cons_eq_ok.mp h
    rcases List.mem_cons.mp ha with rfl | ha
    case inl => exact ⟨b, List.mem_cons_self .., hb⟩
    case inr =>
      obtain ⟨b', hb', hf⟩ := exists_of_mapM_eq_ok hbs' ha
      exact ⟨b', List.mem_cons_of_mem _ hb', hf⟩

theorem exists_of_mem_mapM_eq_ok : ∀ {l : List α} {bs : List β} {b : β},
    l.mapM f = .ok bs → b ∈ bs → ∃ a ∈ l, f a = .ok b
  | [], bs, b, h, hb => by simp [pure, Except.pure] at h; subst h; cases hb
  | a :: l, bs, b, h, hb => by
    obtain ⟨b', bs', hb', hbs', rfl⟩ := mapM_cons_eq_ok.mp h
    rcases List.mem_cons.mp hb with rfl | hb
    case inl => exact ⟨a, List.mem_cons_self .., hb'⟩
    case inr =>
      obtain ⟨a', ha', hf⟩ := exists_of_mem_mapM_eq_ok hbs' hb
      exact ⟨a', List.mem_cons_of_mem _ ha', hf⟩

theorem mapM_eq_ok_of_forall : ∀ {l : List α}, (∀ a ∈ l, ∃ b, f a = .ok b) → ∃ bs, l.mapM f = .ok bs
  | [], _ => ⟨[], rfl⟩
  | a :: l, h => by
    obtain ⟨b, hb⟩ := h a (List.mem_cons_self ..)
    obtain ⟨bs, hbs⟩ := mapM_eq_ok_of_forall fun a' ha' => h a' (List.mem_cons_of_mem _ ha')
    exact ⟨b :: bs, mapM_cons_eq_ok.mpr ⟨b, bs, hb, hbs, rfl⟩⟩

end MapM

end Except
