import Mathlib.Data.List.Sort

/-! The lower median of a list, which the order of the list does not matter for. -/

namespace Median

variable {α : Type} [LinearOrder α] {l l' : List α} {d e : α}

/-- The member with less than half of the list below it, and at least half no higher. -/
structure IsLower (l : List α) (d : α) : Prop where
  mem : d ∈ l
  below : 2 * l.countP (· < d) < l.length
  upTo : l.length ≤ 2 * l.countP (· ≤ d)

theorem IsLower.of_perm (h : IsLower l d) (hperm : l.Perm l') : IsLower l' d where
  mem := hperm.mem_iff.mp h.mem
  below := by rw [← hperm.countP_eq, ← hperm.length_eq]; exact h.below
  upTo := by rw [← hperm.countP_eq, ← hperm.length_eq]; exact h.upTo

theorem IsLower.le (hd : IsLower l d) (he : IsLower l e) : e ≤ d := by
  by_contra hlt
  rw [not_le] at hlt
  have hsub : l.countP (· ≤ d) ≤ l.countP (· < e) :=
    List.countP_mono_left fun x _ hx => by
      simp only [decide_eq_true_eq] at hx ⊢
      exact hx.trans_lt hlt
  have hupTo := hd.upTo
  have hbelow := he.below
  omega

/-- A list has one lower median. -/
theorem IsLower.unique (hd : IsLower l d) (he : IsLower l e) : d = e :=
  le_antisymm (he.le hd) (hd.le he)

/-- In a list in order it is the middle one, the lower one of two. -/
theorem isLower_of_sorted (hsorted : l.Pairwise (· ≤ ·)) (hd : l[(l.length - 1) / 2]? = some d) :
    IsLower l d := by
  obtain ⟨hlt, hget⟩ := List.getElem?_eq_some_iff.mp hd
  generalize hj : (l.length - 1) / 2 = j at hlt hget
  have hlater : ∀ x ∈ l.drop j, ¬x < d := by
    intro x hx
    rw [List.drop_eq_getElem_cons hlt, hget] at hx
    have hpairwise := hsorted.sublist (List.drop_sublist j l)
    rw [List.drop_eq_getElem_cons hlt, hget, List.pairwise_cons] at hpairwise
    rcases List.mem_cons.mp hx with rfl | hx
    · exact lt_irrefl x
    · exact not_lt.mpr (hpairwise.1 x hx)
  have hearlier : ∀ x ∈ l.take (j + 1), x ≤ d := by
    intro x hx
    have hpairwise := hsorted.sublist (List.take_sublist (j + 1) l)
    rw [List.take_succ_eq_append_getElem hlt, hget] at hx hpairwise
    rcases List.mem_append.mp hx with hx | hx
    · exact (List.pairwise_append.mp hpairwise).2.2 x hx d (List.mem_singleton.mpr rfl)
    · exact le_of_eq (List.mem_singleton.mp hx)
  refine ⟨hget ▸ List.getElem_mem hlt, ?_, ?_⟩
  · have hcount : l.countP (· < d) = (l.take j).countP (· < d) := by
      have hnone : (l.drop j).countP (· < d) = 0 :=
        List.countP_eq_zero.mpr fun x hx => by simpa using hlater x hx
      conv_lhs => rw [← List.take_append_drop j l, List.countP_append, hnone, Nat.add_zero]
    have hle := List.countP_le_length (p := (· < d)) (l := l.take j)
    rw [List.length_take] at hle
    omega
  · have hcount : (l.take (j + 1)).countP (· ≤ d) = j + 1 := by
      rw [List.countP_eq_length.mpr fun x hx => by simpa using hearlier x hx, List.length_take]
      omega
    have hle := (List.take_sublist (j + 1) l).countP_le (p := (· ≤ d))
    omega

theorem isLower_of_insertionSort
    (hd : (l.insertionSort (· ≤ ·))[(l.length - 1) / 2]? = some d) : IsLower l d := by
  have hperm := List.perm_insertionSort (· ≤ ·) l
  refine (isLower_of_sorted (List.pairwise_insertionSort (· ≤ ·) l) ?_).of_perm hperm
  rwa [hperm.length_eq]

end Median
