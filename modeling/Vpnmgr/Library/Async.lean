import Vpnmgr.Library.Action

/-! Computations that wait now and then and may be abandoned where they wait. The states in which one
waits are listed beside what it does when it is left to finish. -/

namespace Stateful

/-- What a computation does when it is left to finish, and the states in which it waits on the way. -/
def Async (σ ε α : Type) : Type := σ → (Except ε α × σ) × List σ

namespace Async

variable {σ ε ε' α β : Type}

/-- The computation left to finish. -/
def finish (x : Async σ ε α) : Action σ ε α := fun s => (x s).1

/-- The states in which it waits. -/
def waits (x : Async σ ε α) (s : σ) : List σ := (x s).2

def bind (x : Async σ ε α) (f : α → Async σ ε β) : Async σ ε β := fun s =>
  match x s with
  | ((.ok a, s'), waits) => ((f a s').1, waits ++ (f a s').2)
  | ((.error e, s'), waits) => ((.error e, s'), waits)

/-- An action that runs without waiting. -/
def sync (x : Action σ ε α) : Async σ ε α := fun s => (x s, [])

/-- An action that is waited for: until it answers, the state is the one it was asked in. -/
def await (x : Action σ ε α) : Async σ ε α := fun s => (x s, [s])

instance : Monad (Async σ ε) where
  pure a := sync (pure a)
  bind := bind

/-- Run `x` and return how it ended. -/
def attempt (x : Async σ ε α) : Async σ ε' (Except ε α) := fun s =>
  ((.ok (x s).1.1, (x s).1.2), (x s).2)

@[simp] theorem finish_pure (a : α) : (pure a : Async σ ε α).finish = pure a := rfl

@[simp] theorem finish_sync (x : Action σ ε α) : (sync x).finish = x := rfl

@[simp] theorem finish_await (x : Action σ ε α) : (await x).finish = x := rfl

@[simp] theorem finish_attempt (x : Async σ ε α) :
    (attempt x : Async σ ε' (Except ε α)).finish = Action.attempt x.finish := rfl

@[simp] theorem finish_bind (x : Async σ ε α) (f : α → Async σ ε β) :
    (x >>= f).finish = x.finish >>= fun a => (f a).finish := by
  funext s
  rcases h : x s with ⟨⟨_ | a, s'⟩, waits⟩
  · have hx : x.finish s = _ := congrArg Prod.fst h
    rw [Action.bind_run_error hx]
    simp [finish, Bind.bind, bind, h]
  · have hx : x.finish s = _ := congrArg Prod.fst h
    rw [Action.bind_run_ok hx]
    simp [finish, Bind.bind, bind, h]

@[simp] theorem finish_ite (c : Prop) [Decidable c] (x y : Async σ ε α) :
    (if c then x else y).finish = if c then x.finish else y.finish := by
  split <;> rfl

theorem waits_sync_bind (x : Action σ ε α) (f : α → Async σ ε β) (s : σ) :
    (sync x >>= f).waits s = match x s with
      | (.ok a, s') => (f a).waits s'
      | (.error _, _) => [] := by
  rcases h : x s with ⟨_ | a, s'⟩ <;> simp [waits, Bind.bind, bind, sync, h]

/-! ### Where it may be abandoned -/

/-- Every state in which `x` waits is related to the one it began in. -/
def WaitsIn (R : σ → σ → Prop) (x : Async σ ε α) : Prop := ∀ s, ∀ s' ∈ x.waits s, R s s'

section WaitsIn

variable {R : σ → σ → Prop}

theorem WaitsIn.mono {R' : σ → σ → Prop} {x : Async σ ε α} (h : WaitsIn R x)
    (hR : ∀ s s', R s s' → R' s s') : WaitsIn R' x := fun s s' hs => hR s s' (h s s' hs)

theorem WaitsIn.sync (x : Action σ ε α) : WaitsIn R (sync x) :=
  fun _ _ h => by cases h

theorem WaitsIn.pure (a : α) : WaitsIn R (Pure.pure a : Async σ ε α) := WaitsIn.sync _

theorem WaitsIn.attempt {x : Async σ ε α} (h : WaitsIn R x) :
    WaitsIn R (Async.attempt x : Async σ ε' (Except ε α)) := h

theorem WaitsIn.ite {c : Prop} [Decidable c] {x y : Async σ ε α} (hx : WaitsIn R x)
    (hy : WaitsIn R y) : WaitsIn R (if c then x else y) := by
  split
  · exact hx
  · exact hy

variable [IsPreorder σ R]

theorem WaitsIn.await (x : Action σ ε α) : WaitsIn R (await x) := fun s s' h => by
  rw [List.mem_singleton.mp h]
  exact refl_of R s

/-- A sequence waits where its first part does, or where the rest does after it. -/
theorem WaitsIn.bind {x : Async σ ε α} {f : α → Async σ ε β} (hx : WaitsIn R x)
    (hfinish : Action.Within R x.finish) (hf : ∀ a, WaitsIn R (f a)) : WaitsIn R (x >>= f) := by
  intro s s' h
  rcases hrun : x s with ⟨⟨_ | a, t⟩, waits⟩
  · have hwaits : (x >>= f).waits s = x.waits s := by
      simp [Async.waits, Bind.bind, Async.bind, hrun]
    exact hx s s' (hwaits ▸ h)
  · have hwaits : (x >>= f).waits s = x.waits s ++ (f a).waits t := by
      simp [Async.waits, Bind.bind, Async.bind, hrun]
    rw [hwaits, List.mem_append] at h
    rcases h with h | h
    · exact hx s s' h
    · have ht : R s t := hfinish.run (congrArg Prod.fst hrun)
      exact trans_of R ht (hf a t s' h)

theorem WaitsIn.sync_bind {x : Action σ ε α} {f : α → Async σ ε β} (hx : Action.Within R x)
    (hf : ∀ a, WaitsIn R (f a)) : WaitsIn R (Async.sync x >>= f) :=
  WaitsIn.bind (WaitsIn.sync x) hx hf

theorem WaitsIn.await_bind {x : Action σ ε α} {f : α → Async σ ε β} (hx : Action.Within R x)
    (hf : ∀ a, WaitsIn R (f a)) : WaitsIn R (Async.await x >>= f) :=
  WaitsIn.bind (WaitsIn.await x) hx hf

omit [IsPreorder σ R] in
/-- A sequence whose rest does not wait waits where its first part does. -/
theorem WaitsIn.bind_still {x : Async σ ε α} {f : α → Async σ ε β} (hx : WaitsIn R x)
    (hf : ∀ a s, (f a).waits s = []) : WaitsIn R (x >>= f) := by
  intro s s' h
  rcases hrun : x s with ⟨⟨_ | a, t⟩, waits⟩
  · have hwaits : (x >>= f).waits s = x.waits s := by
      simp [Async.waits, Bind.bind, Async.bind, hrun]
    exact hx s s' (hwaits ▸ h)
  · have hwaits : (x >>= f).waits s = x.waits s ++ (f a).waits t := by
      simp [Async.waits, Bind.bind, Async.bind, hrun]
    rw [hwaits, hf, List.append_nil] at h
    exact hx s s' h

end WaitsIn

end Async

end Stateful
