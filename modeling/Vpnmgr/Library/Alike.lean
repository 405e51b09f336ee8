import Mathlib.Data.List.Basic
import Mathlib.Data.List.Forall2

/-! Two computations that may fail, side by side: both give results that a relation holds of, or
both fail with errors that another holds of. -/

namespace Fallible

variable {ε δ α β α' β' σ τ : Type}

/-- The computations succeed or fail together, with results or errors that are related. -/
inductive Alike (E : ε → δ → Prop) (R : α → β → Prop) : Except ε α → Except δ β → Prop where
  | ok {a : α} {b : β} : R a b → Alike E R (.ok a) (.ok b)
  | error {e : ε} {d : δ} : E e d → Alike E R (.error e) (.error d)

namespace Alike

variable {E : ε → δ → Prop} {R : α → β → Prop} {S : α' → β' → Prop} {x : Except ε α}
  {y : Except δ β}

theorem bind {f : α → Except ε α'} {g : β → Except δ β'} (h : Alike E R x y)
    (hnext : ∀ a b, R a b → Alike E S (f a) (g b)) : Alike E S (x >>= f) (y >>= g) := by
  cases h with
  | ok hab => exact hnext _ _ hab
  | error he => exact .error he

theorem map {f : α → α'} {g : β → β'} (h : Alike E R x y) (hmap : ∀ a b, R a b → S (f a) (g b)) :
    Alike E S (x.map f) (y.map g) := by
  cases h with
  | ok hab => exact .ok (hmap _ _ hab)
  | error he => exact .error he

theorem mapError {ε' δ' : Type} {E' : ε' → δ' → Prop} {f : ε → ε'} {g : δ → δ'} (h : Alike E R x y)
    (hmap : ∀ e d, E e d → E' (f e) (g d)) : Alike E' R (x.mapError f) (y.mapError g) := by
  cases h with
  | ok hab => exact .ok hab
  | error he => exact .error (hmap _ _ he)

/-- A computation is like itself where the relations hold of what it gives. -/
theorem self {E : ε → ε → Prop} {R : α → α → Prop} (x : Except ε α) (hE : ∀ e, E e e)
    (hR : ∀ a, R a a) : Alike E R x x := by
  cases x with
  | ok a => exact .ok (hR a)
  | error e => exact .error (hE e)

/-- Loops whose turns are alike are alike. -/
theorem foldlM {A : σ → τ → Prop} {l : List α} {l' : List β} {f : σ → α → Except ε σ}
    {g : τ → β → Except δ τ} (hl : List.Forall₂ R l l')
    (hturn : ∀ s t a b, A s t → R a b → Alike E A (f s a) (g t b)) {s : σ} {t : τ} (h : A s t) :
    Alike E A (l.foldlM f s) (l'.foldlM g t) := by
  induction hl generalizing s t with
  | nil => exact .ok h
  | cons hab _ ih =>
    rw [List.foldlM_cons, List.foldlM_cons]
    exact (hturn _ _ _ _ h hab).bind fun _ _ hnext => ih hnext

theorem mapM {l : List α} {l' : List β} {f : α → Except ε α'} {g : β → Except δ β'}
    (hl : List.Forall₂ R l l') (heach : ∀ a b, R a b → Alike E S (f a) (g b)) :
    Alike E (List.Forall₂ S) (l.mapM f) (l'.mapM g) := by
  induction hl with
  | nil => exact .ok .nil
  | cons hab _ ih =>
    rw [List.mapM_cons, List.mapM_cons]
    exact (heach _ _ hab).bind fun _ _ hhead => ih.bind fun _ _ htail => .ok (.cons hhead htail)

end Alike

end Fallible
