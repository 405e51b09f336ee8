import Mathlib.Data.List.Destutter
import Mathlib.Data.List.Sort

/-! Sorting by a key and then dropping what equals its neighbour: what is left, in which order, and
when each key is left once. Keeping of a list what has a key not seen before. -/

namespace Collapse

variable {α β : Type*}

section Sorting

variable [DecidableEq α] [LinearOrder β]

/-- A stable sort by a key, and what equals its neighbour dropped. -/
def collapse (key : α → β) (l : List α) : List α :=
  (l.insertionSort fun a b => key a ≤ key b).destutter (· ≠ ·)

theorem mem_destutter_ne {l : List α} {a : α} : a ∈ l.destutter (· ≠ ·) ↔ a ∈ l := by
  constructor
  · exact fun h => (List.destutter_sublist _ l).subset h
  · have hkept : ∀ (l : List α) (b : α), a = b ∨ a ∈ l → a ∈ l.destutter' (· ≠ ·) b := by
      intro l
      induction l with
      | nil =>
        rintro b (h | h)
        · rw [h]; exact List.mem_singleton_self b
        · cases h
      | cons c l ih =>
        intro b h
        by_cases hne : b ≠ c
        · rw [List.destutter'_cons_pos _ hne]
          rcases h with h | h
          · rw [h]; exact List.mem_cons_self
          · exact List.mem_cons_of_mem _ (ih c (List.mem_cons.mp h))
        · rw [List.destutter'_cons_neg _ hne]
          rw [not_not] at hne
          apply ih b
          rcases h with h | h
          · exact .inl h
          · rw [hne]; exact List.mem_cons.mp h
    cases l with
    | nil => exact id
    | cons b l =>
      intro h
      rw [List.destutter_cons']
      exact hkept l b (List.mem_cons.mp h)

theorem mem_collapse {key : α → β} {l : List α} {a : α} : a ∈ collapse key l ↔ a ∈ l := by
  rw [collapse, mem_destutter_ne, List.mem_insertionSort]

theorem collapse_sorted (key : α → β) (l : List α) :
    (collapse key l).Pairwise fun a b => key a ≤ key b := by
  have htotal : Std.Total fun a b : α => key a ≤ key b := ⟨fun a b => le_total _ _⟩
  have htrans : IsTrans α fun a b => key a ≤ key b := ⟨fun _ _ _ => le_trans⟩
  exact (List.pairwise_insertionSort _ l).sublist (List.destutter_sublist _ _)

/-- Each key is left once exactly if what shares a key is equal. -/
theorem collapse_nodup_iff (key : α → β) (l : List α) :
    ((collapse key l).map key).Nodup ↔ ∀ a ∈ l, ∀ b ∈ l, key a = key b → a = b := by
  rw [List.Nodup, List.pairwise_map]
  constructor
  · intro h a ha b hb hkey
    by_contra hne
    have hsymm : Std.Symm fun a b : α => key a ≠ key b := ⟨fun _ _ => Ne.symm⟩
    exact h.forall (mem_collapse.mpr ha) (mem_collapse.mpr hb) hne hkey
  · intro h
    -- Neighbours differ, so by the order their keys increase, and keys that increase are distinct.
    have hchain : (collapse key l).IsChain (· ≠ ·) := List.isChain_destutter _ _
    have hlt : (collapse key l).IsChain fun a b => key a < key b := by
      rw [List.isChain_iff_getElem] at hchain ⊢
      intro i hi
      have hle := List.pairwise_iff_getElem.mp (collapse_sorted key l) i (i + 1) (by omega) hi
        (by omega)
      refine lt_of_le_of_ne hle fun heq => hchain i hi ?_
      exact h _ (mem_collapse.mp (List.getElem_mem _)) _ (mem_collapse.mp (List.getElem_mem _)) heq
    have htrans : IsTrans α fun a b => key a < key b := ⟨fun _ _ _ => lt_trans⟩
    exact hlt.pairwise.imp fun hab => ne_of_lt hab

end Sorting

/-! ### Keys seen before -/

variable [DecidableEq β]

/-- One turn of a loop that keeps a value unless its key was seen. -/
def meet (key : α → β) (s : List β × List α) (a : α) : List β × List α :=
  if key a ∈ s.1 then s else (key a :: s.1, s.2 ++ [a])

/-- The loop keeps values of the list, no key twice, and for every value one of its key. -/
theorem foldl_meet (key : α → β) (l : List α) (s : List β × List α)
    (hs : ∀ k, k ∈ s.1 ↔ ∃ a ∈ s.2, key a = k) (hnodup : (s.2.map key).Nodup) :
    ((l.foldl (meet key) s).2.map key).Nodup ∧ (∀ a ∈ (l.foldl (meet key) s).2, a ∈ s.2 ∨ a ∈ l) ∧
      ∀ a ∈ s.2 ++ l, ∃ b ∈ (l.foldl (meet key) s).2, key b = key a := by
  induction l generalizing s with
  | nil => exact ⟨hnodup, fun a ha => .inl ha, fun a ha => ⟨a, by simpa using ha, rfl⟩⟩
  | cons a l ih =>
    rw [List.foldl_cons]
    by_cases hseen : key a ∈ s.1
    · have hmeet : meet key s a = s := if_pos hseen
      rw [hmeet]
      obtain ⟨hkeys, hfrom, hall⟩ := ih s hs hnodup
      refine ⟨hkeys, fun b hb => (hfrom b hb).imp_right (List.mem_cons_of_mem a), fun b hb => ?_⟩
      rcases List.mem_append.mp hb with hb | hb
      · exact hall b (List.mem_append_left _ hb)
      · rcases List.mem_cons.mp hb with rfl | hb
        · obtain ⟨c, hc, hkey⟩ := (hs _).mp hseen
          obtain ⟨d, hd, hsame⟩ := hall c (List.mem_append_left _ hc)
          exact ⟨d, hd, hsame.trans hkey⟩
        · exact hall b (List.mem_append_right _ hb)
    · have hmeet : meet key s a = (key a :: s.1, s.2 ++ [a]) := if_neg hseen
      rw [hmeet]
      have hfresh : ∀ b ∈ s.2, key b ≠ key a := fun b hb heq => hseen ((hs _).mpr ⟨b, hb, heq⟩)
      obtain ⟨hkeys, hfrom, hall⟩ := ih (key a :: s.1, s.2 ++ [a])
        (fun k => by simp [hs, or_comm, or_and_right, exists_or, eq_comm])
        (by
          rw [List.map_append, List.nodup_append]
          refine ⟨hnodup, List.nodup_singleton _, fun k hk k' hk' => ?_⟩
          obtain ⟨b, hb, rfl⟩ := List.mem_map.mp hk
          rw [List.map_singleton, List.mem_singleton] at hk'
          rw [hk']
          exact hfresh b hb)
      refine ⟨hkeys, fun b hb => ?_, fun b hb => hall b (by simpa using hb)⟩
      rcases hfrom b hb with hb | hb
      · rcases List.mem_append.mp hb with hb | hb
        · exact .inl hb
        · exact .inr (List.mem_singleton.mp hb ▸ List.mem_cons_self)
      · exact .inr (List.mem_cons_of_mem _ hb)

end Collapse
