import Mathlib.Data.List.Basic

/-! Erasing the first entry of a key from a list, for one key after another: which entries go, and
when those that have a property all stay. -/

namespace Strike

variable {α κ : Type*} [DecidableEq κ] (key : α → κ)

/-- Erase the first entry of each key in turn, where there is one. -/
def strike (keys : List κ) (l : List α) : List α :=
  keys.foldl (fun l k => l.eraseP fun a => key a = k) l

/-- The entries of a key, in order. -/
def entries (k : κ) (l : List α) : List α := l.filter fun a => key a = k

variable {key}

theorem strike_cons (k : κ) (keys : List κ) (l : List α) :
    strike key (k :: keys) l = strike key keys (l.eraseP fun a => key a = k) := rfl

theorem strike_sublist (keys : List κ) (l : List α) : (strike key keys l).Sublist l := by
  induction keys generalizing l with
  | nil => exact List.Sublist.refl l
  | cons k keys ih =>
    rw [strike_cons]
    exact (ih _).trans List.eraseP_sublist

theorem entries_cons_of_pos {k : κ} {a : α} (h : key a = k) (l : List α) :
    entries key k (a :: l) = a :: entries key k l := List.filter_cons_of_pos (by simpa using h)

theorem entries_cons_of_neg {k : κ} {a : α} (h : key a ≠ k) (l : List α) :
    entries key k (a :: l) = entries key k l := List.filter_cons_of_neg (by simpa using h)

/-- Erasing the first entry of a key takes it from the entries of that key, and no other's. -/
theorem entries_eraseP (k k' : κ) (l : List α) :
    entries key k' (l.eraseP fun a => key a = k) =
      if k = k' then (entries key k' l).tail else entries key k' l := by
  induction l with
  | nil => simp [entries]
  | cons a l ih =>
    by_cases ha : key a = k
    · rw [List.eraseP_cons_of_pos (by simpa using ha)]
      by_cases hk : k = k'
      · rw [if_pos hk, entries_cons_of_pos (ha.trans hk), List.tail_cons]
      · rw [if_neg hk, entries_cons_of_neg (ha ▸ hk)]
    · rw [List.eraseP_cons_of_neg (by simpa using ha)]
      by_cases hk : key a = k'
      · have hne : k ≠ k' := fun h => ha (hk.trans h.symm)
        rw [if_neg hne] at ih ⊢
        rw [entries_cons_of_pos hk, entries_cons_of_pos hk, ih]
      · rw [entries_cons_of_neg hk, entries_cons_of_neg hk, ih]

/-- Of each key's entries, the first are struck, as many as the key is named. -/
theorem entries_strike (keys : List κ) (k : κ) (l : List α) :
    entries key k (strike key keys l) = (entries key k l).drop (keys.count k) := by
  induction keys generalizing l with
  | nil => rfl
  | cons k' keys ih =>
    rw [strike_cons, ih, entries_eraseP, List.count_cons]
    by_cases hk : k' = k
    · rw [if_pos hk, ← List.drop_one, List.drop_drop]
      simp [hk, Nat.add_comm]
    · simp [hk]

variable {p : α → Bool}

/-- Erasing the first entry of a key spares what has the property if the entry has it not. -/
theorem filter_eraseP_iff (k : κ) (l : List α) :
    (l.eraseP fun a => key a = k).filter p = l.filter p ↔
      ∀ a ∈ (entries key k l).head?, p a = false := by
  induction l with
  | nil => simp [entries]
  | cons a l ih =>
    by_cases ha : key a = k
    · rw [List.eraseP_cons_of_pos (by simpa using ha), entries_cons_of_pos ha]
      cases hp : p a with
      | false => simp [hp]
      | true => simp [hp]
    · rw [List.eraseP_cons_of_neg (by simpa using ha), entries_cons_of_neg ha, ← ih]
      cases hp : p a with
      | false => simp [hp]
      | true => simp [hp]

/-- Striking spares what has a property exactly if none of the entries struck has it: for each key,
the first of its entries, as many as the key is named. -/
theorem filter_strike_iff (keys : List κ) (l : List α) :
    (strike key keys l).filter p = l.filter p ↔
      ∀ k, ∀ a ∈ (entries key k l).take (keys.count k), p a = false := by
  induction keys generalizing l with
  | nil => simp [strike]
  | cons k keys ih =>
    have hfirst := List.Sublist.filter p (List.eraseP_sublist (p := fun a => key a = k) (l := l))
    have hstruck : (strike key keys (l.eraseP fun a => key a = k)).Sublist _ := strike_sublist keys _
    have hrest := hstruck.filter p
    have hboth : (strike key (k :: keys) l).filter p = l.filter p ↔
        (l.eraseP fun a => key a = k).filter p = l.filter p ∧
          (strike key keys (l.eraseP fun a => key a = k)).filter p =
            (l.eraseP fun a => key a = k).filter p := by
      rw [strike_cons]
      constructor
      · intro h
        have hle : (l.filter p).Sublist ((l.eraseP fun a => key a = k).filter p) := h ▸ hrest
        have heq := hfirst.antisymm hle
        exact ⟨heq, h.trans heq.symm⟩
      · rintro ⟨h, h'⟩
        exact h'.trans h
    rw [hboth, filter_eraseP_iff, ih]
    have hnamed : ∀ k', (k :: keys).count k' = keys.count k' + if k = k' then 1 else 0 := by
      intro k'
      simp [List.count_cons]
    constructor
    · rintro ⟨hhead, hlater⟩ k' a ha
      rw [hnamed] at ha
      by_cases hk : k = k'
      · subst hk
        rw [if_pos rfl] at ha
        have htail := hlater k
        rw [entries_eraseP, if_pos rfl] at htail
        cases hentries : entries key k l with
        | nil => simp [hentries] at ha
        | cons b rest =>
          rw [hentries, List.take_succ_cons] at ha
          rcases List.mem_cons.mp ha with rfl | ha
          · exact hhead a (by rw [hentries]; rfl)
          · exact htail a (by rwa [hentries])
      · rw [if_neg hk] at ha
        have hsame := hlater k'
        rw [entries_eraseP, if_neg hk] at hsame
        exact hsame a ha
    · intro h
      constructor
      · intro a ha
        apply h k
        rw [hnamed, if_pos rfl]
        cases hentries : entries key k l with
        | nil => simp [hentries] at ha
        | cons b rest =>
          rw [hentries] at ha
          cases ha
          rw [List.take_succ_cons]
          exact List.mem_cons_self
      · intro k' a ha
        apply h k'
        rw [hnamed]
        rw [entries_eraseP] at ha
        by_cases hk : k = k'
        · rw [if_pos hk] at ha ⊢
          cases hentries : entries key k' l with
          | nil => simp [hentries] at ha
          | cons b rest =>
            rw [hentries] at ha
            rw [List.take_succ_cons]
            exact List.mem_cons_of_mem _ ha
        · rw [if_neg hk] at ha ⊢
          exact ha

/-- If what is struck lacks the property, and each key is named as often as it has entries without
the property, then just those with the property are left. -/
theorem strike_eq_filter {keys : List κ} {l : List α}
    (hspared : ∀ k, ∀ a ∈ (entries key k l).take (keys.count k), p a = false)
    (hcount : ∀ k, (entries key k l).countP (fun a => !p a) = keys.count k) :
    strike key keys l = l.filter p := by
  rw [← (filter_strike_iff keys l).mpr hspared, eq_comm, List.filter_eq_self]
  intro a ha
  have hleft : a ∈ entries key (key a) (strike key keys l) := List.mem_filter.mpr ⟨ha, by simp⟩
  rw [entries_strike] at hleft
  have hall := hcount (key a)
  have htaken := List.countP_eq_length.mpr fun b hb =>
    Bool.not_eq_true' (p b) ▸ hspared (key a) b hb
  rw [← List.take_append_drop (keys.count (key a)) (entries key (key a) l), List.countP_append,
    htaken, List.length_take] at hall
  have hfew : keys.count (key a) ≤ (entries key (key a) l).length := by
    rw [← hcount (key a)]
    exact List.countP_le_length
  have hnone : ((entries key (key a) l).drop (keys.count (key a))).countP (fun a => !p a) = 0 := by
    omega
  simpa using List.countP_eq_zero.mp hnone a hleft

end Strike
