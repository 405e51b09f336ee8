import Mathlib.Logic.Relation
import Mathlib.Order.Monotone.Basic
import Mathlib.Order.Nat

/-! Runs of a machine whose steps are labelled and may be restricted, the rule that carries an
invariant along a run, and the rule that a quantity which only falls never comes back. -/

namespace Stateful

variable {σ α κ : Type}

/-- One step of the machine, by a label that `allowed` admits in the state before it. -/
def Moves (step : σ → α → σ) (allowed : σ → α → Prop) (s s' : σ) : Prop :=
  ∃ a, allowed s a ∧ s' = step s a

/-- Some run of admitted steps, possibly none, leads from the first state to the second. -/
def Reaches (step : σ → α → σ) (allowed : σ → α → Prop) : σ → σ → Prop :=
  Relation.ReflTransGen (Moves step allowed)

namespace Reaches

variable {step : σ → α → σ} {allowed : σ → α → Prop} {s s' : σ}

theorem here : Reaches step allowed s s := .refl

theorem next {a : α} (h : Reaches step allowed s s') (ha : allowed s' a) :
    Reaches step allowed s (step s' a) := h.tail ⟨a, ha, rfl⟩

/-- What every admitted step keeps, every run keeps. -/
theorem keeps {I : σ → Prop} (hstep : ∀ s a, allowed s a → I s → I (step s a))
    (h : Reaches step allowed s s') (hs : I s) : I s' := by
  induction h with
  | refl => exact hs
  | tail _ hmove ih =>
    obtain ⟨a, ha, rfl⟩ := hmove
    exact hstep _ a ha ih

end Reaches

/-- A sequence whose every change of key lowers the key's height comes back to no key it left. -/
theorem never_returns {f : ℕ → σ} {key : σ → κ} {height : κ → ℕ}
    (hfall : ∀ i, key (f (i + 1)) = key (f i) ∨ height (key (f (i + 1))) < height (key (f i)))
    {i j : ℕ} (hchange : key (f (i + 1)) ≠ key (f i)) (hij : i < j) : key (f j) ≠ key (f i) := by
  have hanti : Antitone fun n => height (key (f n)) := by
    refine antitone_nat_of_succ_le fun n => ?_
    rcases hfall n with h | h
    · rw [h]
    · exact h.le
  have hdrop := (hfall i).resolve_left hchange
  have hlow : height (key (f j)) ≤ height (key (f (i + 1))) := hanti hij
  intro heq
  rw [heq] at hlow
  omega

end Stateful
