import Mathlib.Data.List.Induction
import Mathlib.Order.Lattice

/-! The scan of a list that keeps the first item with the least key. Items without a key do not
count. -/

namespace Least

variable {α κ : Type} [LinearOrder κ] {key : α → Option κ} {l : List α} {m : α} {k : κ}

/-- The best so far, after one more item. -/
def keep (key : α → Option κ) (best : Option (α × κ)) (x : α) : Option (α × κ) :=
  match key x, best with
  | none, _ => best
  | some k, none => some (x, k)
  | some k, some (m, least) => if k < least then some (x, k) else some (m, least)

/-- `m` has the key `k`, every key before it is higher, and none after it is lower. -/
def IsFirst (key : α → Option κ) (l : List α) (m : α) (k : κ) : Prop :=
  ∃ before after, l = before ++ m :: after ∧ key m = some k ∧
    (∀ x ∈ before, ∀ k', key x = some k' → k < k') ∧ ∀ x ∈ after, ∀ k', key x = some k' → k ≤ k'

theorem IsFirst.mem (h : IsFirst key l m k) : m ∈ l := by
  obtain ⟨before, after, rfl, -⟩ := h
  exact List.mem_append_right _ List.mem_cons_self

theorem IsFirst.key_eq (h : IsFirst key l m k) : key m = some k := by
  obtain ⟨_, _, _, hm, _⟩ := h
  exact hm

/-- No key of the list is lower than that of the first least. -/
theorem IsFirst.le (h : IsFirst key l m k) {x : α} {k' : κ} (hx : x ∈ l) (hk : key x = some k') :
    k ≤ k' := by
  obtain ⟨before, after, rfl, hm, hbefore, hafter⟩ := h
  rcases List.mem_append.mp hx with hx | hx
  · exact (hbefore x hx k' hk).le
  · rcases List.mem_cons.mp hx with rfl | hx
    · exact le_of_eq (Option.some.inj (hm.symm.trans hk))
    · exact hafter x hx k' hk

/-- What the scan says of the items it has seen. -/
def Scanned (key : α → Option κ) (l : List α) : Option (α × κ) → Prop
  | none => ∀ x ∈ l, key x = none
  | some (m, k) => IsFirst key l m k

theorem Scanned.step {best : Option (α × κ)} (h : Scanned key l best) (x : α) :
    Scanned key (l ++ [x]) (keep key best x) := by
  cases hx : key x with
  | none =>
    have hkeep : keep key best x = best := by simp only [keep, hx]
    rw [hkeep]
    cases best with
    | none =>
      intro y hy
      rcases List.mem_append.mp hy with hy | hy
      · exact h y hy
      · rwa [List.mem_singleton.mp hy]
    | some best =>
      obtain ⟨before, after, rfl, hm, hbefore, hafter⟩ := h
      refine ⟨before, after ++ [x], by simp, hm, hbefore, fun y hy k' hk' => ?_⟩
      rcases List.mem_append.mp hy with hy | hy
      · exact hafter y hy k' hk'
      · rw [List.mem_singleton.mp hy, hx] at hk'
        cases hk'
  | some k =>
    cases best with
    | none =>
      have hkeep : keep key none x = some (x, k) := by simp only [keep, hx]
      rw [hkeep]
      refine ⟨l, [], rfl, hx, fun y hy k' hk' => ?_, fun y hy => absurd hy List.not_mem_nil⟩
      rw [h y hy] at hk'
      cases hk'
    | some best =>
      obtain ⟨m, least⟩ := best
      have hkeep : keep key (some (m, least)) x =
          if k < least then some (x, k) else some (m, least) := by simp only [keep, hx]
      have hfirst : IsFirst key l m least := h
      rw [hkeep]
      split
      · next hlt =>
        exact ⟨l, [], rfl, hx, fun y hy k' hk' => hlt.trans_le (hfirst.le hy hk'),
          fun y hy => absurd hy List.not_mem_nil⟩
      · next hle =>
        obtain ⟨before, after, rfl, hm, hbefore, hafter⟩ := hfirst
        refine ⟨before, after ++ [x], by simp, hm, hbefore, fun y hy k' hk' => ?_⟩
        rcases List.mem_append.mp hy with hy | hy
        · exact hafter y hy k' hk'
        · rw [List.mem_singleton.mp hy, hx] at hk'
          cases hk'
          exact not_lt.mp hle

/-- The scan keeps the first least, and nothing only where no item has a key. -/
theorem scanned_foldl (key : α → Option κ) (l : List α) :
    Scanned key l (l.foldl (keep key) none) := by
  induction l using List.reverseRecOn with
  | nil => exact fun x hx => absurd hx List.not_mem_nil
  | append_singleton l x ih =>
    rw [List.foldl_append]
    exact ih.step x

end Least
