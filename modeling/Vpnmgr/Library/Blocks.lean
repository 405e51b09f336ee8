import Mathlib.Algebra.BigOperators.Group.Finset.Basic
import Mathlib.Algebra.Order.BigOperators.Group.Finset
import Mathlib.Algebra.Ring.Nat
import Mathlib.Order.Interval.Finset.Nat

/-! Blocks of the numbers below a power of two: those with given leading bits. Two blocks are nested or
apart, so the outermost ones of a list count the numbers that the list covers. -/

namespace Blocks

/-- The numbers of `w` bits whose first `len` bits make up `index`. -/
structure Block (w : Nat) where
  len : Nat
  index : Nat
  fits : len ≤ w
  bound : index < 2 ^ len
  deriving DecidableEq

variable {w : Nat}

namespace Block

/-- How many numbers a block has. -/
def size (b : Block w) : Nat := 2 ^ (w - b.len)

def Has (b : Block w) (x : Nat) : Prop := x / b.size = b.index

instance (b : Block w) (x : Nat) : Decidable (b.Has x) := inferInstanceAs (Decidable (_ = _))

/-- Whether a block is part of a larger one. -/
def within (b c : Block w) : Bool :=
  decide (c.len < b.len) && b.index / 2 ^ (b.len - c.len) == c.index

/-- The numbers of a block. -/
def numbers (b : Block w) : Finset Nat := Finset.Ico (b.index * b.size) ((b.index + 1) * b.size)

theorem size_pos (b : Block w) : 0 < b.size := Nat.two_pow_pos _

theorem mem_numbers {b : Block w} {x : Nat} : x ∈ b.numbers ↔ b.Has x := by
  rw [numbers, Finset.mem_Ico, Has, Nat.div_eq_iff b.size_pos]
  have hnext : (b.index + 1) * b.size = b.index * b.size + b.size := Nat.succ_mul _ _
  have hpos := b.size_pos
  omega

theorem card_numbers (b : Block w) : b.numbers.card = b.size := by
  rw [numbers, Nat.card_Ico, Nat.succ_mul, Nat.add_sub_cancel_left]

theorem lt_of_has {b : Block w} {x : Nat} (h : b.Has x) : x < 2 ^ w := by
  have hx := (Finset.mem_Ico.mp (mem_numbers.mpr h)).2
  have hle : (b.index + 1) * b.size ≤ 2 ^ b.len * 2 ^ (w - b.len) :=
    Nat.mul_le_mul_right _ b.bound
  rw [← Nat.pow_add, Nat.add_sub_cancel' b.fits] at hle
  omega

/-- The leading bits of a number that a longer block has. -/
theorem Has.div {b : Block w} {x : Nat} (h : b.Has x) {c : Block w} (hle : c.len ≤ b.len) :
    x / c.size = b.index / 2 ^ (b.len - c.len) := by
  have hsize : c.size = b.size * 2 ^ (b.len - c.len) := by
    rw [size, size, ← Nat.pow_add]
    congr 1
    have hb := b.fits
    omega
  rw [hsize, ← Nat.div_div_eq_div_mul, h]

theorem has_of_within {b c : Block w} (h : b.within c = true) {x : Nat} (hx : b.Has x) :
    c.Has x := by
  rw [within, Bool.and_eq_true, decide_eq_true_iff, beq_iff_eq] at h
  exact (hx.div h.1.le).trans h.2

/-- Blocks that share a number are equal, or one is part of the other. -/
theorem eq_or_within {b c : Block w} {x : Nat} (hb : b.Has x) (hc : c.Has x) :
    b = c ∨ b.within c = true ∨ c.within b = true := by
  have hpart {b c : Block w} (hb : b.Has x) (hc : c.Has x) (hlt : c.len < b.len) :
      b.within c = true := by
    rw [within, Bool.and_eq_true, decide_eq_true_iff, beq_iff_eq]
    exact ⟨hlt, (hb.div hlt.le).symm.trans hc⟩
  rcases Nat.lt_trichotomy b.len c.len with hlt | heq | hlt
  · exact .inr (.inr (hpart hc hb hlt))
  · left
    obtain ⟨len, index, fits, bound⟩ := b
    obtain ⟨len', index', fits', bound'⟩ := c
    obtain rfl : len = len' := heq
    obtain rfl : index = index' := hb.symm.trans hc
    rfl
  · exact .inr (.inl (hpart hb hc hlt))

end Block

/-- The blocks of a list that are no part of another, each once. -/
def outermost (bs : List (Block w)) : List (Block w) := bs.dedup.filter fun b => !bs.any b.within

/-- How many numbers the outermost blocks of a list have together. -/
def extent (bs : List (Block w)) : Nat := ((outermost bs).map Block.size).sum

theorem mem_outermost {bs : List (Block w)} {b : Block w} :
    b ∈ outermost bs ↔ b ∈ bs ∧ ∀ c ∈ bs, b.within c = false := by
  simp [outermost]

/-- What a block of a list has, an outermost one has. -/
theorem exists_outermost {bs : List (Block w)} {x : Nat} {b : Block w} (hb : b ∈ bs) (hx : b.Has x) :
    ∃ c ∈ outermost bs, c.Has x := by
  induction hlen : b.len using Nat.strong_induction_on generalizing b with
  | _ n ih =>
    by_cases hout : ∀ c ∈ bs, b.within c = false
    · exact ⟨b, mem_outermost.mpr ⟨hb, hout⟩, hx⟩
    · obtain ⟨c, hc⟩ := not_forall.mp hout
      obtain ⟨hc, hwithin⟩ := Classical.not_imp.mp hc
      rw [Bool.not_eq_false] at hwithin
      have hlt : c.len < b.len := by
        rw [Block.within, Bool.and_eq_true, decide_eq_true_iff] at hwithin
        exact hwithin.1
      exact ih c.len (by omega) hc (Block.has_of_within hwithin hx) rfl

/-- The extent of a list counts the numbers that its blocks have. -/
theorem card_covered (bs : List (Block w)) :
    ((outermost bs).toFinset.biUnion Block.numbers).card = extent bs := by
  have hnodup : (outermost bs).Nodup := (List.nodup_dedup bs).filter _
  rw [Finset.card_biUnion]
  · rw [extent, ← List.sum_toFinset _ hnodup]
    exact Finset.sum_congr rfl fun b _ => b.card_numbers
  · intro b hb c hc hne
    apply Finset.disjoint_left.mpr
    intro x hxb hxc
    rw [Finset.mem_coe, List.mem_toFinset, mem_outermost] at hb hc
    rcases Block.eq_or_within (Block.mem_numbers.mp hxb) (Block.mem_numbers.mp hxc) with
      heq | hwithin | hwithin
    · exact hne heq
    · rw [hb.2 c hc.1] at hwithin
      cases hwithin
    · rw [hc.2 b hb.1] at hwithin
      cases hwithin

/-- A list of blocks leaves a number out exactly if its outermost blocks have fewer than all. -/
theorem exists_uncovered_iff (bs : List (Block w)) :
    (∃ x < 2 ^ w, ∀ b ∈ bs, ¬b.Has x) ↔ extent bs < 2 ^ w := by
  have hcovered : ∀ x, x ∈ (outermost bs).toFinset.biUnion Block.numbers ↔ ∃ b ∈ bs, b.Has x := by
    intro x
    simp only [Finset.mem_biUnion, List.mem_toFinset, Block.mem_numbers]
    constructor
    · rintro ⟨b, hb, hx⟩
      exact ⟨b, (mem_outermost.mp hb).1, hx⟩
    · rintro ⟨b, hb, hx⟩
      exact exists_outermost hb hx
  have hsub : (outermost bs).toFinset.biUnion Block.numbers ⊆ Finset.range (2 ^ w) := by
    intro x hx
    obtain ⟨b, _, hx⟩ := (hcovered x).mp hx
    exact Finset.mem_range.mpr (Block.lt_of_has hx)
  rw [← card_covered]
  constructor
  · rintro ⟨x, hlt, hout⟩
    have hproper : (outermost bs).toFinset.biUnion Block.numbers ⊂ Finset.range (2 ^ w) := by
      refine Finset.ssubset_iff_subset_ne.mpr ⟨hsub, fun heq => ?_⟩
      have hx : x ∈ (outermost bs).toFinset.biUnion Block.numbers :=
        heq ▸ Finset.mem_range.mpr hlt
      obtain ⟨b, hb, hx⟩ := (hcovered x).mp hx
      exact hout b hb hx
    have hcard := Finset.card_lt_card hproper
    rwa [Finset.card_range] at hcard
  · intro hlt
    by_contra hall
    have hevery : Finset.range (2 ^ w) ⊆ (outermost bs).toFinset.biUnion Block.numbers := by
      intro x hx
      by_contra hnot
      rw [hcovered] at hnot
      exact hall ⟨x, Finset.mem_range.mp hx, fun b hb hhas => hnot ⟨b, hb, hhas⟩⟩
    have hcard := Finset.card_le_card hevery
    rw [Finset.card_range] at hcard
    omega

end Blocks
