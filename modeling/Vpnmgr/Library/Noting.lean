import Vpnmgr.Library.Action

/-! Computations that keep notes beside their state. Without the notes they do what the computations
they are made of do, so what the notes say is said of these. -/

namespace Stateful

/-- A computation over a state `σ` that keeps notes of what it went through, the latest first. -/
abbrev Noting (ν σ ε α : Type) : Type := Action (σ × List ν) ε α

namespace Noting

open Action

variable {ν σ ε ε' α β γ δ : Type}

/-- A computation that notes nothing. -/
def quiet (x : Action σ ε α) : Noting ν σ ε α := focus Prod.fst (fun s p => (s, p.2)) id x

def note (n : ν) : Noting ν σ ε Unit := update fun p => (p.1, n :: p.2)

theorem quiet_run (x : Action σ ε α) (p : σ × List ν) :
    quiet x p = ((x p.1).1, ((x p.1).2, p.2)) := by
  rw [quiet, focus]
  cases (x p.1).1 <;> rfl

theorem quiet_bind_ok {x : Action σ ε α} {k : α → Noting ν σ ε β} {p : σ × List ν} {a : α} {s : σ}
    (h : x p.1 = (.ok a, s)) : (quiet x >>= k) p = k a (s, p.2) :=
  bind_run_ok (by rw [quiet_run, h])

theorem quiet_bind_error {x : Action σ ε α} {k : α → Noting ν σ ε β} {p : σ × List ν} {e : ε} {s : σ}
    (h : x p.1 = (.error e, s)) : (quiet x >>= k) p = (.error e, (s, p.2)) :=
  bind_run_error (by rw [quiet_run, h])

/-- Without its notes, a run of `x'` is one of `x`, with `f` made of what is returned. -/
def Erases (f : α → β) (x' : Noting ν σ ε α) (x : Action σ ε β) : Prop :=
  ∀ p, x p.1 = ((x' p).1.map f, (x' p).2.1)

section Erases

variable {f : α → β} {g : γ → δ} {x' : Noting ν σ ε α} {x : Action σ ε β}

theorem Erases.quiet (x : Action σ ε α) : Erases id (Noting.quiet x : Noting ν σ ε α) x := fun p => by
  rw [quiet_run]
  cases h : (x p.1).1 <;> exact Prod.ext h rfl

theorem Erases.pure (f : α → β) (a : α) :
    Erases f (Pure.pure a : Noting ν σ ε α) (Pure.pure (f a)) := fun _ => rfl

theorem Erases.bind {k' : α → Noting ν σ ε γ} {k : β → Action σ ε δ} (hx : Erases f x' x)
    (hk : ∀ a, Erases g (k' a) (k (f a))) : Erases g (x' >>= k') (x >>= k) := by
  intro p
  have hrun := hx p
  rcases h : x' p with ⟨e | a, p'⟩
  · rw [h] at hrun
    rw [bind_run_error h, bind_run_error hrun]
    rfl
  · rw [h] at hrun
    rw [bind_run_ok h, bind_run_ok hrun]
    exact hk a p'

/-- What only makes something of a result adds nothing to it. -/
theorem Erases.bind_pure {h : γ → β} {k' : α → Noting ν σ ε γ} (hx : Erases f x' x)
    (hk : ∀ a, Erases h (k' a) (Pure.pure (f a))) : Erases h (x' >>= k') x := by
  intro p
  have hrun := hx p
  rcases hp : x' p with ⟨e | a, p'⟩
  · rw [hp] at hrun
    rw [bind_run_error hp, hrun]
    rfl
  · rw [hp] at hrun
    rw [bind_run_ok hp, hrun]
    exact hk a p'

theorem Erases.read_bind {k' : α → Noting ν σ ε γ} {y : Action σ ε δ} (r : σ → α)
    (hk : ∀ a, Erases g (k' a) y) : Erases g (Noting.quiet (read r) >>= k') y :=
  fun p => hk (r p.1) p

theorem Erases.note_bind {k' : Unit → Noting ν σ ε γ} {y : Action σ ε δ} (n : ν)
    (hk : Erases g (k' ()) y) : Erases g (note n >>= k') y := fun p => hk (p.1, n :: p.2)

theorem Erases.attempt (hx : Erases f x' x) :
    Erases (Except.map f) (Action.attempt x' : Noting ν σ ε' (Except ε α)) (Action.attempt x) :=
  fun p => by
    rw [attempt_run, attempt_run, hx p]
    rfl

theorem Erases.ite {c : Prop} [Decidable c] {y' : Noting ν σ ε α} {y : Action σ ε β}
    (hx : Erases f x' x) (hy : Erases f y' y) :
    Erases f (if c then x' else y') (if c then x else y) := by
  split
  · exact hx
  · exact hy

theorem Erases.lift (r : Except ε α) (f : α → β) :
    Erases f (Action.lift r : Noting ν σ ε α) (Action.lift (r.map f)) := fun _ => rfl

/-- The state a run leaves, its notes aside. -/
theorem Erases.state (h : Erases f x' x) (p : σ × List ν) : (x p.1).2 = (x' p).2.1 := by
  rw [h p]

end Erases

/-- The states are related, and nothing is noted. -/
def Quietly (R : σ → σ → Prop) (p p' : σ × List ν) : Prop := R p.1 p'.1 ∧ p'.2 = p.2

instance (R : σ → σ → Prop) [IsPreorder σ R] : IsPreorder (σ × List ν) (Quietly R) where
  refl p := ⟨refl_of R p.1, rfl⟩
  trans _ _ _ h₁ h₂ := ⟨trans_of R h₁.1 h₂.1, h₂.2.trans h₁.2⟩

theorem quiet_within {R : σ → σ → Prop} {x : Action σ ε α} (h : Within R x) :
    Within (Quietly R) (quiet x : Noting ν σ ε α) := fun p => by
  rw [quiet_run]
  exact ⟨h p.1, rfl⟩

end Noting

end Stateful
