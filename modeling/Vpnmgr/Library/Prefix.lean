import Mathlib.Data.List.Basic

/-! Words that agree on their first bits: what shifting and masking say of them. -/

namespace Prefix

variable {w : Nat}

/-- Two words agree on their first `n` bits. -/
def Agree (n : Nat) (a b : BitVec w) : Prop := ∀ i < n, a.getMsbD i = b.getMsbD i

instance (n : Nat) (a b : BitVec w) : Decidable (Agree n a b) :=
  inferInstanceAs (Decidable (∀ i < n, _))

theorem agree_zero (a b : BitVec w) : Agree 0 a b := fun _ hi => absurd hi (Nat.not_lt_zero _)

/-- Of two words with different first bits, one agrees with any other on the first. -/
theorem agree_one_or {a b : BitVec w} (h : a.getMsbD 0 ≠ b.getMsbD 0) (c : BitVec w) :
    Agree 1 a c ∨ Agree 1 b c := by
  have hfirst {x : BitVec w} (hx : x.getMsbD 0 = c.getMsbD 0) : Agree 1 x c := by
    intro i hi
    rw [Nat.lt_one_iff.mp hi, hx]
  by_cases ha : a.getMsbD 0 = c.getMsbD 0
  · exact .inl (hfirst ha)
  · refine .inr (hfirst ?_)
    rw [Bool.eq_not_of_ne ha] at h
    simpa using h.symm

/-- Shifting the rest of the words away compares their first bits. -/
theorem agree_iff_shift {n : Nat} (hn : n ≤ w) (a b : BitVec w) :
    Agree n a b ↔ a >>> (w - n) = b >>> (w - n) := by
  constructor
  · intro h
    apply BitVec.eq_of_getMsbD_eq
    intro i hi
    rw [BitVec.getMsbD_ushiftRight, BitVec.getMsbD_ushiftRight]
    by_cases hlow : i < w - n
    · simp [hlow]
    · rw [h (i - (w - n)) (by omega)]
  · intro h i hi
    have hbit := congrArg (fun x : BitVec w => x.getMsbD (i + (w - n))) h
    simp only [BitVec.getMsbD_ushiftRight] at hbit
    rw [show i + (w - n) - (w - n) = i by omega] at hbit
    simpa [show i + (w - n) < w by omega, show ¬i + (w - n) < w - n by omega] using hbit

/-- A left shift that does not reach the width. -/
def checkedShl (a : BitVec w) (n : Nat) : Option (BitVec w) :=
  if n < w then some (a <<< n) else none

/-- The mask of the first `n` bits. -/
def mask (w n : Nat) : Option (BitVec w) :=
  if n = 0 then some 0 else checkedShl (BitVec.allOnes w) (w - n)

theorem mask_isSome {n : Nat} (hn : n ≤ w) : ∃ m, mask w n = some m ∧
    ∀ i < w, m.getMsbD i = decide (i < n) := by
  unfold mask
  by_cases hzero : n = 0
  · refine ⟨0, if_pos hzero, fun i _ => ?_⟩
    simp [hzero]
  · refine ⟨BitVec.allOnes w <<< (w - n), ?_, fun i hi => ?_⟩
    · rw [if_neg hzero, checkedShl, if_pos (by omega)]
    · rw [BitVec.getMsbD_shiftLeft, BitVec.getMsbD_allOnes]
      exact decide_eq_decide.mpr (by omega)

/-- Words are equal under the mask of their first bits exactly when they agree on those. -/
theorem and_mask_eq_iff {n : Nat} (hn : n ≤ w) {m a b : BitVec w}
    (hm : ∀ i < w, m.getMsbD i = decide (i < n)) : a &&& m = b &&& m ↔ Agree n a b := by
  constructor
  · intro h i hi
    have hbit := congrArg (fun x : BitVec w => x.getMsbD i) h
    simpa [hm i (by omega), hi] using hbit
  · intro h
    apply BitVec.eq_of_getMsbD_eq
    intro i hi
    rw [BitVec.getMsbD_and, BitVec.getMsbD_and, hm i hi]
    by_cases hlow : i < n
    · rw [h i hlow]
    · simp [hlow]

end Prefix
