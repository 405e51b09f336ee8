import Mathlib.Data.List.Basic

/-! A buffered reader over a source that delivers items in reads of any size, and reading from it up
to a delimiter within a limit. What is read does not depend on how the source splits the items. -/

namespace BufRead

variable {β : Type}

/-- The items buffered and the reads still to come, after which the source is at its end. Every read
delivers something: one that does not is the end of the source. -/
structure Reader (β : Type) where
  buffered : List β
  reads : List (List β)
  delivers : ∀ read ∈ reads, read ≠ []

variable [DecidableEq β]

/-- The items up to the first delimiter and with it, or all of them. -/
def through (delimiter : β) : List β → List β
  | [] => []
  | x :: xs => if x = delimiter then [x] else x :: through delimiter xs

theorem through_initial (d : β) (xs : List β) : through d xs <+: xs := by
  induction xs with
  | nil => exact List.prefix_refl []
  | cons x xs ih =>
    rw [through]
    split
    · exact (List.prefix_cons_inj x).mpr (List.nil_prefix)
    · exact (List.prefix_cons_inj x).mpr ih

theorem through_append_of_mem {d : β} {xs : List β} (h : d ∈ xs) (ys : List β) :
    through d (xs ++ ys) = through d xs := by
  induction xs with
  | nil => cases h
  | cons x xs ih =>
    rw [List.cons_append, through, through]
    by_cases hx : x = d
    · rw [if_pos hx, if_pos hx]
    · rw [if_neg hx, if_neg hx, ih ((List.mem_cons.mp h).resolve_left fun hd => hx hd.symm)]

theorem through_append_of_not_mem {d : β} {xs : List β} (h : d ∉ xs) (ys : List β) :
    through d (xs ++ ys) = xs ++ through d ys := by
  induction xs with
  | nil => rfl
  | cons x xs ih =>
    rw [List.mem_cons, not_or] at h
    rw [List.cons_append, through, if_neg (Ne.symm h.1), ih h.2, List.cons_append]

/-- The items begin with a line: up to the delimiter and with it, or all of them. -/
def IsLine (delimiter : β) (line rest : List β) : Prop :=
  ∃ body, delimiter ∉ body ∧ (line = body ++ [delimiter] ∨ line = body ∧ rest = [])

/-- From anywhere within a line, the rest of it is read up to its end. -/
theorem IsLine.through_drop {d : β} {line rest : List β} (h : IsLine d line rest) {n : Nat}
    (hn : n < line.length) : through d (line.drop n ++ rest) = line.drop n := by
  obtain ⟨body, hbody, rfl | ⟨rfl, rfl⟩⟩ := h
  · have hle : n ≤ body.length := by
      rw [List.length_append, List.length_singleton] at hn
      omega
    have hdrop : d ∉ body.drop n := fun hmem => hbody (List.mem_of_mem_drop hmem)
    rw [List.drop_append_of_le_length hle, List.append_assoc, through_append_of_not_mem hdrop,
      List.singleton_append, through, if_pos rfl]
  · have hdrop : d ∉ line.drop n := fun hmem => hbody (List.mem_of_mem_drop hmem)
    rw [through_append_of_not_mem hdrop, through, List.append_nil]

namespace Reader

/-- What is still to be read. -/
def rest (r : Reader β) : List β := r.buffered ++ r.reads.flatten

/-- Fill the buffer by one read, if it is empty. -/
def fill : Reader β → Reader β
  | ⟨[], read :: reads, h⟩ => ⟨read, reads, fun other hother => h other (List.mem_cons_of_mem _ hother)⟩
  | r => r

def consume (n : Nat) (r : Reader β) : Reader β := { r with buffered := r.buffered.drop n }

/-- Read up to the delimiter and with it, but no more than `limit` items. -/
def readUntil (delimiter : β) (limit : Nat) (r : Reader β) : List β × Reader β :=
  if _ : limit = 0 then ([], r)
  else
    let available := r.fill.buffered.take limit
    if _ : available = [] then ([], r.fill)
    else if delimiter ∈ available then
      let piece := through delimiter available
      (piece, r.fill.consume piece.length)
    else
      let (more, r) := readUntil delimiter (limit - available.length)
        (r.fill.consume available.length)
      (available ++ more, r)
termination_by limit
decreasing_by
  exact Nat.sub_lt (Nat.pos_of_ne_zero ‹_›) (List.length_pos_of_ne_nil ‹¬available = []›)

omit [DecidableEq β] in
theorem fill_rest (r : Reader β) : r.fill.rest = r.rest := by
  obtain ⟨buffered, reads, h⟩ := r
  cases buffered <;> cases reads <;> rfl

omit [DecidableEq β] in
/-- A filled buffer is empty only at the end. -/
theorem fill_nil {r : Reader β} (h : r.fill.buffered = []) : r.rest = [] := by
  obtain ⟨buffered, reads, hdelivers⟩ := r
  cases buffered with
  | cons x xs => cases h
  | nil =>
    cases reads with
    | nil => rfl
    | cons read reads => exact absurd h (hdelivers read List.mem_cons_self)

omit [DecidableEq β] in
theorem consume_rest {r : Reader β} {n : Nat} (h : n ≤ r.buffered.length) :
    (r.consume n).rest = r.rest.drop n := by
  rw [rest, rest, consume, List.drop_append_of_le_length h]

/-- A read up to a delimiter takes what there is up to it, as far as the limit allows, and leaves
the rest, however the source splits the items. -/
theorem readUntil_eq (d : β) (limit : Nat) (r : Reader β) :
    (r.readUntil d limit).1 = (through d r.rest).take limit ∧
      (r.readUntil d limit).2.rest = r.rest.drop ((through d r.rest).take limit).length := by
  induction limit using Nat.strongRecOn generalizing r with
  | ind limit ih =>
  rw [readUntil]
  by_cases hlimit : limit = 0
  · rw [dif_pos hlimit, hlimit]
    exact ⟨rfl, rfl⟩
  rw [dif_neg hlimit]
  have hrest : r.fill.rest = r.rest := fill_rest r
  have hnil : r.fill.buffered = [] → r.rest = [] := fill_nil
  generalize r.fill = filled at hrest hnil
  have htake : filled.buffered.take limit <+: r.rest := by
    rw [← hrest]
    exact (List.take_prefix _ _).trans (List.prefix_append _ _)
  have hle : (filled.buffered.take limit).length ≤ limit := List.length_take_le _ _
  have hbuffered : (filled.buffered.take limit).length ≤ filled.buffered.length :=
    List.length_take_le' _ _
  have hempty : filled.buffered.take limit = [] → r.rest = [] := fun hnone =>
    hnil ((List.take_eq_nil_iff.mp hnone).resolve_left hlimit)
  generalize filled.buffered.take limit = available at htake hle hbuffered hempty
  obtain ⟨more, hmore⟩ := htake
  dsimp only
  by_cases hnone : available = []
  · rw [dif_pos hnone, hempty hnone]
    exact ⟨by simp [through], by rw [hrest, hempty hnone, List.drop_nil]⟩
  rw [dif_neg hnone]
  by_cases hfound : d ∈ available
  · rw [if_pos hfound, ← hmore, through_append_of_mem hfound]
    have hpiece := (through_initial d available).length_le
    rw [List.take_of_length_le (Nat.le_trans hpiece hle)]
    refine ⟨rfl, ?_⟩
    rw [consume_rest (Nat.le_trans hpiece hbuffered), hrest, hmore]
  · rw [if_neg hfound]
    have hleft : (filled.consume available.length).rest = more := by
      rw [consume_rest hbuffered, hrest, ← hmore, List.drop_left]
    have hpos := List.length_pos_of_ne_nil hnone
    have hgoes := ih (limit - available.length) (by omega) (filled.consume available.length)
    rw [hleft] at hgoes
    obtain ⟨hpiece, hafter⟩ := hgoes
    rw [← hmore, through_append_of_not_mem hfound, List.take_append, List.take_of_length_le hle]
    refine ⟨congrArg (available ++ ·) hpiece, ?_⟩
    rw [List.length_append, List.drop_append, List.drop_eq_nil_of_le (Nat.le_add_right _ _),
      Nat.add_sub_cancel_left, List.nil_append]
    exact hafter

/-- Reading something leaves less. -/
theorem readUntil_shrinks {d : β} {limit : Nat} {r : Reader β} (h : (r.readUntil d limit).1 ≠ []) :
    (r.readUntil d limit).2.rest.length < r.rest.length := by
  obtain ⟨hpiece, hrest⟩ := readUntil_eq d limit r
  rw [hpiece] at h
  have hpos := List.length_pos_of_ne_nil h
  have hle : ((through d r.rest).take limit).length ≤ r.rest.length :=
    ((List.take_prefix _ _).trans (through_initial d r.rest)).length_le
  rw [hrest, List.length_drop]
  omega

end Reader

end BufRead
