import Mathlib.Logic.Function.Basic
import Mathlib.Data.List.Basic
import Mathlib.Algebra.BigOperators.Group.List.Basic
import Mathlib.Algebra.Ring.Nat

/-! One loop that keeps a running value for each of many owners, and what it leaves at one of
them. -/

namespace Scatter

variable {ι α β : Type} [DecidableEq ι]

/-- Fold each item into the value of its own owner. -/
def scatter (owner : α → ι) (keep : β → α → β) (start : ι → β) (items : List α) : ι → β :=
  items.foldl (fun at_ x => Function.update at_ (owner x) (keep (at_ (owner x)) x)) start

/-- The value an owner ends with is the fold of its own items alone, in their order. -/
theorem scatter_apply (owner : α → ι) (keep : β → α → β) (start : ι → β) (items : List α) (i : ι) :
    scatter owner keep start items i =
      (items.filter fun x => owner x = i).foldl keep (start i) := by
  induction items generalizing start with
  | nil => rfl
  | cons x items ih =>
    have hstep : scatter owner keep start (x :: items) =
        scatter owner keep (Function.update start (owner x) (keep (start (owner x)) x)) items := rfl
    rw [hstep, ih]
    by_cases hx : owner x = i
    · subst hx; simp
    · simp [hx, Function.update_of_ne (Ne.symm hx)]

/-- Over items laid out owner by owner, each filter gives back the owner's own row. -/
theorem filter_rows {γ : Type} (owner : α → ℕ) (row : γ → ℕ → List α)
    (hrow : ∀ c n, ∀ x ∈ row c n, owner x = n) (cs : List γ) (n i : ℕ) :
    ((cs.zipIdx n).flatMap fun c => row c.1 c.2).filter (fun x => owner x = i) =
      if n ≤ i then (cs[i - n]?.map fun c => row c i).getD [] else [] := by
  have whole : ∀ c, (row c i).filter (fun x => owner x = i) = row c i := fun c =>
    List.filter_eq_self.mpr fun x hx => by simpa using hrow c i x hx
  have none_of : ∀ c m, m ≠ i → (row c m).filter (fun x => owner x = i) = [] := fun c m hm =>
    List.filter_eq_nil_iff.mpr fun x hx => by simpa [hrow c m x hx] using hm
  induction cs generalizing n with
  | nil => simp
  | cons c cs ih =>
    rw [List.zipIdx_cons, List.flatMap_cons, List.filter_append, ih]
    rcases Nat.lt_trichotomy n i with hlt | rfl | hgt
    · rw [none_of c n (by omega), if_pos (by omega), if_pos (by omega)]
      rw [show i - n = (i - (n + 1)) + 1 by omega, List.getElem?_cons_succ, List.nil_append]
    · rw [whole, if_neg (by omega), if_pos (Nat.le_refl _)]
      simp
    · rw [none_of c n (by omega), if_neg (by omega), if_neg (by omega), List.nil_append]

/-- The items of a row come after those of the rows before it. -/
theorem getElem?_flatMap {γ : Type} (row : γ → List α) (width : γ → ℕ)
    (hwidth : ∀ c, (row c).length = width c) {cs : List γ} {c : γ} {i j : ℕ} (hc : cs[i]? = some c)
    (hj : j < (row c).length) :
    (cs.flatMap row)[((cs.take i).map width).sum + j]? = (row c)[j]? := by
  induction cs generalizing i with
  | nil => cases hc
  | cons b cs ih =>
    cases i with
    | zero =>
      cases hc
      rw [List.take_zero, List.map_nil, List.sum_nil, Nat.zero_add, List.flatMap_cons,
        List.getElem?_append_left hj]
    | succ i =>
      rw [List.take_succ_cons, List.map_cons, List.sum_cons, List.flatMap_cons,
        List.getElem?_append_right (by rw [hwidth]; omega), hwidth, Nat.add_assoc,
        Nat.add_sub_cancel_left]
      exact ih hc

/-- Every item is in some row. -/
theorem exists_row {γ : Type} (row : γ → List α) (width : γ → ℕ)
    (hwidth : ∀ c, (row c).length = width c) {cs : List γ} {n : ℕ}
    (hn : n < (cs.flatMap row).length) : ∃ i c j, cs[i]? = some c ∧ j < (row c).length ∧
      ((cs.take i).map width).sum + j = n := by
  induction cs generalizing n with
  | nil => cases hn
  | cons b cs ih =>
    by_cases hfirst : n < (row b).length
    · exact ⟨0, b, n, rfl, hfirst, by simp⟩
    · rw [List.flatMap_cons, List.length_append] at hn
      obtain ⟨i, c, j, hc, hj, hsum⟩ := ih (n := n - (row b).length) (by omega)
      refine ⟨i + 1, c, j, hc, hj, ?_⟩
      rw [List.take_succ_cons, List.map_cons, List.sum_cons, ← hwidth]
      omega

theorem zip_append_left {γ : Type} (as bs : List α) (rs : List γ) :
    (as ++ bs).zip rs = as.zip rs ++ bs.zip (rs.drop as.length) := by
  induction as generalizing rs with
  | nil => rfl
  | cons a as ih =>
    cases rs with
    | nil => simp
    | cons r rs => rw [List.cons_append, List.zip_cons_cons, ih]; rfl

/-- Where each item is paired with a result, an owner's row is paired with the results from the end
of the rows before it. -/
theorem filter_zip_rows {γ ρ : Type} (owner : α → ℕ) (row : γ → ℕ → List α) (width : γ → ℕ)
    (hrow : ∀ c n, ∀ x ∈ row c n, owner x = n) (hwidth : ∀ c n, (row c n).length = width c)
    (cs : List γ) (rs : List ρ) (n i : ℕ) :
    ((((cs.zipIdx n).flatMap fun c => row c.1 c.2).zip rs).filter fun x => owner x.1 = i) =
      if n ≤ i then (cs[i - n]?.map fun c =>
        (row c i).zip (rs.drop ((cs.take (i - n)).map width).sum)).getD [] else [] := by
  have hown : ∀ c m (rs : List ρ), ∀ x ∈ (row c m).zip rs, owner x.1 = m :=
    fun c m rs x hx => hrow c m _ (List.of_mem_zip hx).1
  have whole : ∀ c (rs : List ρ), (((row c i).zip rs).filter fun x => owner x.1 = i) =
      (row c i).zip rs := fun c rs =>
    List.filter_eq_self.mpr fun x hx => by simpa using hown c i rs x hx
  have none_of : ∀ c m (rs : List ρ), m ≠ i →
      (((row c m).zip rs).filter fun x => owner x.1 = i) = [] := fun c m rs hm =>
    List.filter_eq_nil_iff.mpr fun x hx => by simpa [hown c m rs x hx] using hm
  induction cs generalizing n rs with
  | nil => simp
  | cons c cs ih =>
    rw [List.zipIdx_cons, List.flatMap_cons, zip_append_left, List.filter_append, ih, hwidth]
    rcases Nat.lt_trichotomy n i with hlt | rfl | hgt
    · rw [none_of c n _ (by omega), if_pos (by omega), if_pos (by omega)]
      rw [show i - n = (i - (n + 1)) + 1 by omega, List.getElem?_cons_succ, List.nil_append,
        List.take_succ_cons, List.map_cons, List.sum_cons]
      simp only [List.drop_drop]
    · rw [whole, if_neg (by omega), if_pos (Nat.le_refl _)]
      simp
    · rw [none_of c n _ (by omega), if_neg (by omega), if_neg (by omega), List.nil_append]

end Scatter
