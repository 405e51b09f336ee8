import Mathlib.Order.Defs.Unbundled

/-! Computations over a state that may stop with an error, and the rules that bound what a run of
one may do to the state. An error keeps what was written before it, as a method on `&mut self` that
leaves through `?` does. -/

namespace Stateful

/-- A computation that reads and writes a state `σ` and returns an `α` or stops with an `ε`. -/
def Action (σ ε α : Type) : Type := σ → Except ε α × σ

namespace Action

variable {σ τ ε ε' α β : Type}

/-- Run `x`, and the continuation on what it returned. An error of `x` ends the run. -/
def bind (x : Action σ ε α) (f : α → Action σ ε β) : Action σ ε β := fun s =>
  match x s with
  | (.ok a, s') => f a s'
  | (.error e, s') => (.error e, s')

instance : Monad (Action σ ε) where
  pure a := fun s => (.ok a, s)
  bind := bind

/-- Return a part of the state. -/
def read (f : σ → α) : Action σ ε α := fun s => (.ok (f s), s)

/-- Change the state. -/
def update (f : σ → σ) : Action σ ε Unit := fun s => (.ok (), f s)

/-- Stop with an error. -/
def fail (e : ε) : Action σ ε α := fun s => (.error e, s)

/-- Return a result that is already there, or stop with its error. -/
def lift (r : Except ε α) : Action σ ε α := fun s => (r, s)

/-- Run `x` and return how it ended, as a `match` on a call does. -/
def attempt (x : Action σ ε α) : Action σ ε' (Except ε α) := fun s => (.ok (x s).1, (x s).2)

/-- Run `x` on a part of the state, with its errors translated. -/
def focus (get : σ → τ) (put : τ → σ → σ) (wrap : ε → ε') (x : Action τ ε α) : Action σ ε' α :=
  fun s => ((x (get s)).1.mapError wrap, put (x (get s)).2 s)

@[simp] theorem pure_run (a : α) (s : σ) : (pure a : Action σ ε α) s = (.ok a, s) := rfl

@[simp] theorem read_run (f : σ → α) (s : σ) : (read f : Action σ ε α) s = (.ok (f s), s) := rfl

@[simp] theorem update_run (f : σ → σ) (s : σ) : (update f : Action σ ε Unit) s = (.ok (), f s) :=
  rfl

@[simp] theorem fail_run (e : ε) (s : σ) : (fail e : Action σ ε α) s = (.error e, s) := rfl

@[simp] theorem lift_run (r : Except ε α) (s : σ) : (lift r : Action σ ε α) s = (r, s) := rfl

@[simp] theorem attempt_run (x : Action σ ε α) (s : σ) :
    (attempt x : Action σ ε' (Except ε α)) s = (.ok (x s).1, (x s).2) := rfl

theorem bind_run (x : Action σ ε α) (f : α → Action σ ε β) (s : σ) :
    (x >>= f) s = match x s with
      | (.ok a, s') => f a s'
      | (.error e, s') => (.error e, s') := rfl

theorem bind_run_ok {x : Action σ ε α} {f : α → Action σ ε β} {s s' : σ} {a : α}
    (h : x s = (.ok a, s')) : (x >>= f) s = f a s' := by
  rw [bind_run, h]

theorem bind_run_error {x : Action σ ε α} {f : α → Action σ ε β} {s s' : σ} {e : ε}
    (h : x s = (.error e, s')) : (x >>= f) s = (.error e, s') := by
  rw [bind_run, h]

@[simp] theorem read_bind (f : σ → α) (k : α → Action σ ε β) (s : σ) :
    (read f >>= k) s = k (f s) s := rfl

@[simp] theorem update_bind (f : σ → σ) (k : Unit → Action σ ε β) (s : σ) :
    (update f >>= k) s = k () (f s) := rfl

@[simp] theorem fail_bind (e : ε) (k : α → Action σ ε β) (s : σ) :
    ((fail e : Action σ ε α) >>= k) s = (.error e, s) := rfl

@[simp] theorem attempt_bind (x : Action σ ε α) (k : Except ε α → Action σ ε' β) (s : σ) :
    (attempt x >>= k) s = k (x s).1 (x s).2 := rfl

@[simp] theorem pure_bind' (a : α) (k : α → Action σ ε β) (s : σ) :
    ((pure a : Action σ ε α) >>= k) s = k a s := rfl

theorem bind_bind {γ : Type} (x : Action σ ε α) (f : α → Action σ ε β) (g : β → Action σ ε γ) :
    (x >>= f >>= g) = x >>= fun a => f a >>= g := by
  funext s
  simp only [bind_run]
  rcases x s with ⟨_ | a, s'⟩ <;> rfl

/-- What is made of a result does not change the state that a run leaves. -/
theorem bind_pure_snd (x : Action σ ε α) (g : α → β) (s : σ) :
    ((x >>= fun a => pure (g a)) s).2 = (x s).2 := by
  rcases hx : x s with ⟨_ | a, s'⟩
  · rw [bind_run_error hx]
  · rw [bind_run_ok hx]
    rfl

/-- A run of a sequence that returned came from a first part that returned. -/
theorem bind_ok {x : Action σ ε α} {f : α → Action σ ε β} {s s' : σ} {b : β}
    (h : (x >>= f) s = (.ok b, s')) : ∃ a t, x s = (.ok a, t) ∧ f a t = (.ok b, s') := by
  rw [bind_run] at h
  split at h
  · next a t hx => exact ⟨a, t, hx, h⟩
  · cases h

/-- A run of a sequence that failed did so in the first part or after it. -/
theorem bind_error {x : Action σ ε α} {f : α → Action σ ε β} {s s' : σ} {e : ε}
    (h : (x >>= f) s = (.error e, s')) :
    x s = (.error e, s') ∨ ∃ a t, x s = (.ok a, t) ∧ f a t = (.error e, s') := by
  rw [bind_run] at h
  split at h
  · next a t hx => exact .inr ⟨a, t, hx, h⟩
  · next e' t hx => cases h; exact .inl hx

theorem run_ok {x : Action σ ε α} {s : σ} (h : (x s).1.isOk = true) :
    ∃ a, x s = (.ok a, (x s).2) := by
  rcases hx : x s with ⟨_ | a, s'⟩
  · rw [hx] at h; cases h
  · exact ⟨a, rfl⟩

theorem run_error {x : Action σ ε α} {s : σ} (h : (x s).1.isOk = false) :
    ∃ e, x s = (.error e, (x s).2) := by
  rcases hx : x s with ⟨e | _, s'⟩
  · exact ⟨e, rfl⟩
  · rw [hx] at h; cases h

/-! ### What a run may do to the state -/

/-- Every run of `x`, returned or failed, leaves a state related to the one it began in. -/
def Within (R : σ → σ → Prop) (x : Action σ ε α) : Prop := ∀ s, R s (x s).2

/-- Every run of `x` keeps `I`. -/
def Keeps (I : σ → Prop) (x : Action σ ε α) : Prop := Within (fun s s' => I s → I s') x

instance (I : σ → Prop) : IsPreorder σ (fun s s' => I s → I s') where
  refl _ h := h
  trans _ _ _ h₁ h₂ h := h₂ (h₁ h)

section Within

variable {R : σ → σ → Prop}

theorem Within.run {x : Action σ ε α} {s s' : σ} {r : Except ε α} (h : Within R x)
    (hrun : x s = (r, s')) : R s s' := by
  have hs := h s
  rwa [hrun] at hs

theorem Within.mono {R' : σ → σ → Prop} {x : Action σ ε α} (h : Within R x)
    (hR : ∀ s s', R s s' → R' s s') : Within R' x := fun s => hR _ _ (h s)

theorem Within.update {f : σ → σ} (h : ∀ s, R s (f s)) :
    Within R (Action.update f : Action σ ε Unit) := h

theorem Within.attempt {x : Action σ ε α} (h : Within R x) :
    Within R (Action.attempt x : Action σ ε' (Except ε α)) := h

theorem Within.ite {c : Prop} [Decidable c] {x y : Action σ ε α} (hx : Within R x)
    (hy : Within R y) : Within R (if c then x else y) := by
  split
  · exact hx
  · exact hy

variable [IsPreorder σ R]

theorem Within.pure (a : α) : Within R (Pure.pure a : Action σ ε α) := fun s => refl_of R s

theorem Within.read (f : σ → α) : Within R (Action.read f : Action σ ε α) := fun s => refl_of R s

theorem Within.fail (e : ε) : Within R (Action.fail e : Action σ ε α) := fun s => refl_of R s

theorem Within.lift (r : Except ε α) : Within R (Action.lift r : Action σ ε α) :=
  fun s => refl_of R s

/-- One run of a sequence, where the second part is only known from the states the first leaves. -/
theorem Within.bind_at {x : Action σ ε α} {f : α → Action σ ε β} {s : σ} (hx : R s (x s).2)
    (hf : ∀ a s', x s = (.ok a, s') → R s' (f a s').2) : R s ((x >>= f) s).2 := by
  rcases hrun : x s with ⟨e | a, s'⟩
  · rw [hrun] at hx
    rw [bind_run_error hrun]
    exact hx
  · rw [hrun] at hx
    rw [bind_run_ok hrun]
    exact trans_of R hx (hf a s' hrun)

theorem Within.bind {x : Action σ ε α} {f : α → Action σ ε β} (hx : Within R x)
    (hf : ∀ a, Within R (f a)) : Within R (x >>= f) :=
  fun s => Within.bind_at (hx s) fun a s' _ => hf a s'

end Within

/-! ### What a run returns -/

/-- From a state with `I` every run of `x` leaves one, and what it returns has `Q`. -/
def Yields (I : σ → Prop) (Q : α → Prop) (x : Action σ ε α) : Prop :=
  ∀ s, I s → I (x s).2 ∧ ∀ a, (x s).1 = .ok a → Q a

section Yields

variable {I : σ → Prop} {Q : α → Prop} {Q' : β → Prop}

theorem Keeps.yields {x : Action σ ε α} (h : Keeps I x) : Yields I (fun _ => True) x :=
  fun s hs => ⟨h s hs, fun _ _ => trivial⟩

theorem Yields.keeps {x : Action σ ε α} (h : Yields I Q x) : Keeps I x := fun s hs => (h s hs).1

theorem Yields.pure {a : α} (h : Q a) : Yields I Q (Pure.pure a : Action σ ε α) :=
  fun _ hs => ⟨hs, fun _ ha => (by cases ha; exact h)⟩

theorem Yields.fail (e : ε) : Yields I Q (Action.fail e : Action σ ε α) :=
  fun _ hs => ⟨hs, nofun⟩

theorem Yields.lift {r : Except ε α} (h : ∀ a, r = .ok a → Q a) :
    Yields I Q (Action.lift r : Action σ ε α) := fun _ hs => ⟨hs, h⟩

theorem Yields.read {f : σ → α} (h : ∀ s, I s → Q (f s)) :
    Yields I Q (Action.read f : Action σ ε α) :=
  fun s hs => ⟨hs, fun _ ha => (by cases ha; exact h s hs)⟩

theorem Yields.attempt {x : Action σ ε α} (h : Yields I Q x) :
    Yields I (fun r => ∀ a, r = .ok a → Q a)
      (Action.attempt x : Action σ ε' (Except ε α)) :=
  fun s hs => ⟨(h s hs).1, fun _ hr => (by cases hr; exact (h s hs).2)⟩

theorem Yields.ite {c : Prop} [Decidable c] {x y : Action σ ε α} (hx : Yields I Q x)
    (hy : Yields I Q y) : Yields I Q (if c then x else y) := by
  split
  · exact hx
  · exact hy

theorem Yields.bind {x : Action σ ε α} {f : α → Action σ ε β} (hx : Yields I Q x)
    (hf : ∀ a, Q a → Yields I Q' (f a)) : Yields I Q' (x >>= f) := fun s hs => by
  obtain ⟨hleft, hreturned⟩ := hx s hs
  rcases hrun : x s with ⟨e | a, s'⟩
  · rw [hrun] at hleft
    rw [bind_run_error hrun]
    exact ⟨hleft, nofun⟩
  · rw [hrun] at hleft hreturned
    rw [bind_run_ok hrun]
    exact hf a (hreturned a rfl) s' hleft

end Yields

end Action

end Stateful
