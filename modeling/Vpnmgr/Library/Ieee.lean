import Mathlib.Data.Rat.Floor
import Mathlib.Algebra.Order.Field.Rat
import Mathlib.Order.WithBot
import Mathlib.Tactic.Linarith

/-! The values of a binary floating-point format with IEEE comparison and arithmetic on the special
values. The finite values are the exact rationals, so nothing is rounded and there is one zero. -/

namespace Ieee

/-- A double: not a number, an infinity, or a finite value. -/
inductive F64 where
  | nan
  | negInf
  | posInf
  | finite (q : ℚ)
  deriving DecidableEq, Repr

namespace F64

instance : Inhabited F64 := ⟨finite 0⟩

instance (n : Nat) : OfNat F64 n := ⟨finite n⟩

instance : OfScientific F64 := ⟨fun m s e => finite (OfScientific.ofScientific m s e)⟩

/-- The double of a natural number. -/
def ofNat (n : Nat) : F64 := finite n

/-- `a < b`, false when either is not a number. -/
def lt : F64 → F64 → Bool
  | nan, _ | _, nan => false
  | finite a, finite b => a < b
  | negInf, negInf | posInf, _ | _, negInf => false
  | negInf, _ | _, posInf => true

/-- `a <= b`, false when either is not a number. -/
def le : F64 → F64 → Bool
  | nan, _ | _, nan => false
  | finite a, finite b => a ≤ b
  | negInf, _ | _, posInf => true
  | _, negInf | posInf, _ => false

instance : LT F64 := ⟨fun a b => lt a b = true⟩

instance : LE F64 := ⟨fun a b => le a b = true⟩

instance (a b : F64) : Decidable (a < b) := inferInstanceAs (Decidable (lt a b = true))

instance (a b : F64) : Decidable (a ≤ b) := inferInstanceAs (Decidable (le a b = true))

/-- `partial_cmp`: there is no order with what is not a number. -/
def partialCmp (a b : F64) : Option Ordering :=
  if a < b then some .lt
  else if b < a then some .gt
  else if a = nan ∨ b = nan then none else some .eq

/-- `partial_cmp`, with a pair that has no order taken as equal. -/
def compareOrEqual (a b : F64) : Ordering :=
  if a < b then .lt else if b < a then .gt else .eq

def neg : F64 → F64
  | nan => nan
  | negInf => posInf
  | posInf => negInf
  | finite a => finite (-a)

def add : F64 → F64 → F64
  | nan, _ | _, nan | posInf, negInf | negInf, posInf => nan
  | finite a, finite b => finite (a + b)
  | posInf, _ | _, posInf => posInf
  | negInf, _ | _, negInf => negInf

/-- The infinity with the sign of `q`, or no number at zero. -/
def infinityOf (q : ℚ) : F64 :=
  if 0 < q then posInf else if q < 0 then negInf else nan

def mul : F64 → F64 → F64
  | nan, _ | _, nan => nan
  | finite a, finite b => finite (a * b)
  | posInf, posInf | negInf, negInf => posInf
  | posInf, negInf | negInf, posInf => negInf
  | posInf, finite q | finite q, posInf => infinityOf q
  | negInf, finite q | finite q, negInf => infinityOf (-q)

/-- Division, by the one zero as by `+0.0`. -/
def div : F64 → F64 → F64
  | nan, _ | _, nan => nan
  | finite a, finite b => if b = 0 then infinityOf a else finite (a / b)
  | finite _, posInf | finite _, negInf => finite 0
  | posInf, finite b => if b < 0 then negInf else posInf
  | negInf, finite b => if b < 0 then posInf else negInf
  | posInf, posInf | posInf, negInf | negInf, posInf | negInf, negInf => nan

instance : Neg F64 := ⟨neg⟩
instance : Add F64 := ⟨add⟩
instance : Sub F64 := ⟨fun a b => add a (neg b)⟩
instance : Mul F64 := ⟨mul⟩
instance : Div F64 := ⟨div⟩

/-- `f64::max`: the number of the two when one is not a number. -/
def max (a b : F64) : F64 :=
  if a = nan then b else if b = nan then a else if a < b then b else a

/-- `f64::min`: the number of the two when one is not a number. -/
def min (a b : F64) : F64 :=
  if a = nan then b else if b = nan then a else if b < a then b else a

/-- `f64::clamp`, which lets a value that is not a number through. -/
def clamp (a low high : F64) : F64 :=
  if a < low then low else if high < a then high else a

/-- `f64::is_finite`. -/
def isFinite : F64 → Bool
  | finite _ => true
  | _ => false

/-- `f64::EPSILON`. -/
def epsilon : F64 := finite (1 / 2 ^ 52)

/-- The decimal digits of `n / 10 ^ digits`. -/
def decimal (n digits : Nat) : String :=
  if digits = 0 then toString n
  else
    let tail := toString (n % 10 ^ digits)
    s!"{n / 10 ^ digits}." ++ String.ofList (List.replicate (digits - tail.length) '0') ++ tail

/-- A non-negative rational rounded to an integer, a tie going to the even one. -/
def roundEven (q : ℚ) : Nat :=
  let low := q.floor.toNat
  let rest := q - low
  if rest < 1 / 2 then low
  else if 1 / 2 < rest then low + 1
  else if low % 2 = 0 then low else low + 1

/-- The text of a value with a fixed number of decimals, as the `.1` and `.0` formats give it. -/
def fixed (digits : Nat) : F64 → String
  | nan => "NaN"
  | negInf => "-inf"
  | posInf => "inf"
  | finite q =>
    let body := decimal (roundEven (|q| * 10 ^ digits)) digits
    if q < 0 then "-" ++ body else body

theorem compareOrEqual_eq (a b : F64) : a.compareOrEqual b = (a.partialCmp b).getD .eq := by
  unfold compareOrEqual partialCmp
  split_ifs <;> rfl

@[simp] theorem finite_lt {a b : ℚ} : finite a < finite b ↔ a < b := by
  simp [LT.lt, lt]

@[simp] theorem finite_le {a b : ℚ} : finite a ≤ finite b ↔ a ≤ b := by
  simp [LE.le, le]

/-! ### Finite values -/

theorem isFinite_iff {a : F64} : a.isFinite = true ↔ ∃ q : ℚ, a = finite q := by
  cases a <;> simp [isFinite]

@[simp] theorem finite_add (a b : ℚ) : finite a + finite b = finite (a + b) := rfl

@[simp] theorem finite_sub (a b : ℚ) : finite a - finite b = finite (a - b) :=
  congrArg finite (sub_eq_add_neg a b).symm

@[simp] theorem finite_mul (a b : ℚ) : finite a * finite b = finite (a * b) := rfl

theorem finite_div (a : ℚ) {b : ℚ} (h : b ≠ 0) : finite a / finite b = finite (a / b) :=
  if_neg h

theorem finite_max (a b : ℚ) : (finite a).max (finite b) = finite (Max.max a b) := by
  by_cases h : a < b
  · simp [max, h, h.le]
  · simp [max, h, not_lt.mp h]

theorem finite_min (a b : ℚ) : (finite a).min (finite b) = finite (Min.min a b) := by
  by_cases h : b < a
  · simp [min, h, h.le]
  · simp [min, h, not_lt.mp h]

theorem min_finite_comm (a : F64) (p q : ℚ) :
    (a.min (finite p)).min (finite q) = (a.min (finite q)).min (finite p) := by
  cases a with
  | nan =>
    change (finite p).min (finite q) = (finite q).min (finite p)
    rw [finite_min, finite_min, min_comm]
  | negInf => rfl
  | posInf =>
    change (finite p).min (finite q) = (finite q).min (finite p)
    rw [finite_min, finite_min, min_comm]
  | finite a => rw [finite_min, finite_min, finite_min, finite_min, min_right_comm]

/-- A number between zero and one. -/
def InUnit (a : F64) : Prop := ∃ q : ℚ, a = finite q ∧ 0 ≤ q ∧ q ≤ 1

theorem clamp_inUnit (q : ℚ) : ((finite q).clamp 0 1).InUnit := by
  change InUnit (if finite q < finite 0 then finite 0 else if finite 1 < finite q then finite 1
    else finite q)
  simp only [finite_lt]
  split_ifs with hlow hhigh
  · exact ⟨0, rfl, le_refl 0, zero_le_one⟩
  · exact ⟨1, rfl, zero_le_one, le_refl 1⟩
  · exact ⟨q, rfl, not_lt.mp hlow, not_lt.mp hhigh⟩

theorem clamp_mono {p q : ℚ} (h : p ≤ q) : (finite p).clamp 0 1 ≤ (finite q).clamp 0 1 := by
  change (if finite p < finite 0 then finite 0 else if finite 1 < finite p then finite 1
    else finite p) ≤ if finite q < finite 0 then finite 0 else if finite 1 < finite q then finite 1
    else finite q
  simp only [finite_lt]
  split_ifs <;> rw [finite_le] <;> linarith

theorem partialCmp_inUnit {a b : F64} (ha : a.InUnit) (hb : b.InUnit) :
    (a.partialCmp b).isSome := by
  obtain ⟨p, rfl, _⟩ := ha
  obtain ⟨q, rfl, _⟩ := hb
  unfold partialCmp
  split_ifs with _ _ hnan
  · rfl
  · rfl
  · rcases hnan with h | h <;> cases h
  · rfl

/-- The rational a finite value is. -/
def toRat : F64 → ℚ
  | finite q => q
  | _ => 0

theorem compareOrEqual_finite (p q : ℚ) : (finite p).compareOrEqual (finite q) = compare p q := by
  unfold compareOrEqual
  simp only [finite_lt]
  split_ifs with hlt hgt
  · exact (compare_lt_iff_lt.mpr hlt).symm
  · exact (compare_gt_iff_gt.mpr hgt).symm
  · exact (compare_eq_iff_eq.mpr (le_antisymm (not_lt.mp hgt) (not_lt.mp hlt))).symm

/-! ### The order of the numbers -/

/-- The place of a value in the order; what is not a number has none of its own. -/
def place : F64 → WithBot (WithTop ℚ)
  | nan | negInf => ⊥
  | posInf => ((⊤ : WithTop ℚ) : WithBot (WithTop ℚ))
  | finite q => ((q : WithTop ℚ) : WithBot (WithTop ℚ))

theorem lt_iff_place {a b : F64} (ha : a ≠ nan) (hb : b ≠ nan) : a < b ↔ a.place < b.place := by
  have htop (q : ℚ) : ((q : WithTop ℚ) : WithBot (WithTop ℚ)) < ((⊤ : WithTop ℚ) : _) :=
    WithBot.coe_lt_coe.mpr (WithTop.coe_lt_top q)
  change lt a b = true ↔ _
  cases a <;> cases b <;>
    first
      | exact absurd rfl ha
      | exact absurd rfl hb
      | exact iff_of_true rfl (htop _)
      | simp [place, lt]

theorem le_iff_place {a b : F64} (ha : a ≠ nan) (hb : b ≠ nan) : a ≤ b ↔ a.place ≤ b.place := by
  change le a b = true ↔ _
  cases a <;> cases b <;>
    first | exact absurd rfl ha | exact absurd rfl hb | simp [place, le]

/-! ### What a comparison with zero lets through -/

/-- Not a number, or above every number. -/
def Top (a : F64) : Prop := a = nan ∨ a = posInf

/-- Where minus infinity passes a test and no `Top` value does, what fails it is `Top` or a number
that fails it. -/
theorem not_test_iff {R : F64 → Prop} {p : ℚ → Prop} (hnan : ¬R nan) (hpos : ¬R posInf)
    (hneg : R negInf) (hfinite : ∀ q, ¬R (finite q) ↔ p q) (a : F64) :
    ¬R a ↔ a.Top ∨ ∃ q : ℚ, a = finite q ∧ p q := by
  constructor
  · intro h
    cases a with
    | nan => exact .inl (.inl rfl)
    | negInf => exact absurd hneg h
    | posInf => exact .inl (.inr rfl)
    | finite q => exact .inr ⟨q, rfl, (hfinite q).mp h⟩
  · rintro ((rfl | rfl) | ⟨q, rfl, hq⟩)
    · exact hnan
    · exact hpos
    · exact (hfinite q).mpr hq

theorem not_le_zero {a : F64} : ¬a ≤ 0 ↔ a.Top ∨ ∃ q : ℚ, a = finite q ∧ 0 < q :=
  not_test_iff (R := (· ≤ 0)) (fun h => (by cases h)) (fun h => (by cases h)) rfl
    (fun _ => finite_le.not.trans not_le) a

theorem not_lt_zero {a : F64} : ¬a < 0 ↔ a.Top ∨ ∃ q : ℚ, a = finite q ∧ 0 ≤ q :=
  not_test_iff (R := (· < 0)) (fun h => (by cases h)) (fun h => (by cases h)) rfl
    (fun _ => finite_lt.not.trans not_lt) a

/-- A product of two such values is one. -/
theorem not_le_zero_mul {a b : F64} (ha : ¬a ≤ 0) (hb : ¬b ≤ 0) : ¬a * b ≤ 0 := by
  have hinf {q : ℚ} (hq : 0 < q) : infinityOf q = posInf := if_pos hq
  rw [not_le_zero] at ha hb ⊢
  rcases ha with (rfl | rfl) | ⟨p, rfl, hp⟩ <;> rcases hb with (rfl | rfl) | ⟨q, rfl, hq⟩
  · exact .inl (.inl rfl)
  · exact .inl (.inl rfl)
  · exact .inl (.inl rfl)
  · exact .inl (.inl rfl)
  · exact .inl (.inr rfl)
  · exact .inl (.inr (hinf hq))
  · exact .inl (.inl rfl)
  · exact .inl (.inr (hinf hp))
  · exact .inr ⟨p * q, rfl, mul_pos hp hq⟩

theorem max_one {a : F64} (h : ¬a ≤ 0) : a.max 1 = posInf ∨ ∃ q : ℚ, a.max 1 = finite q ∧ 1 ≤ q := by
  rcases not_le_zero.mp h with (rfl | rfl) | ⟨p, rfl, _⟩
  · exact .inr ⟨1, rfl, le_refl 1⟩
  · exact .inl rfl
  · exact .inr ⟨Max.max p 1, finite_max p 1, le_max_right p 1⟩

/-! ### What is not a number, or above every number, stays so -/

theorem Top.ne_negInf {a : F64} (h : a.Top) : a ≠ negInf := by
  rcases h with rfl | rfl <;> exact fun h => (by cases h)

theorem Top.mul_inUnit {a b : F64} (ha : a.Top) (hb : b.InUnit) : (a * b).Top := by
  obtain ⟨q, rfl, hq, _⟩ := hb
  rcases ha with rfl | rfl
  · exact .inl rfl
  · rcases hq.eq_or_lt with rfl | hq
    · exact .inl (by decide)
    · exact .inr (if_pos hq)

theorem Top.add_left {a b : F64} (ha : a.Top) (hb : b ≠ negInf) : (a + b).Top := by
  rcases ha with rfl | rfl
  · exact .inl rfl
  · cases b with
    | nan => exact .inl rfl
    | negInf => exact absurd rfl hb
    | posInf => exact .inr rfl
    | finite q => exact .inr rfl

theorem Top.add_right {a b : F64} (hb : b.Top) (ha : a ≠ negInf) : (a + b).Top := by
  rcases hb with rfl | rfl
  · cases a <;> exact .inl rfl
  · cases a with
    | nan => exact .inl rfl
    | negInf => exact absurd rfl ha
    | posInf => exact .inr rfl
    | finite q => exact .inr rfl

theorem add_ne_negInf {a b : F64} (ha : a ≠ negInf) (hb : b ≠ negInf) : a + b ≠ negInf := by
  cases a with
  | nan => exact fun h => (by cases h)
  | negInf => exact absurd rfl ha
  | posInf => exact (Top.add_left (.inr rfl) hb).ne_negInf
  | finite q =>
    cases b with
    | negInf => exact absurd rfl hb
    | _ => exact fun h => (by cases h)

/-- The product of a weight and a part of a score. -/
theorem mul_inUnit_ne_negInf {a b : F64} (ha : ¬a < 0) (hb : b.InUnit) : a * b ≠ negInf := by
  rcases not_lt_zero.mp ha with h | ⟨p, rfl, _⟩
  · exact (h.mul_inUnit hb).ne_negInf
  · obtain ⟨q, rfl, _⟩ := hb
    exact fun h => (by cases h)

theorem Top.div {a b : F64} (ha : a.Top) (hb : b.Top) : a / b = nan := by
  rcases ha with rfl | rfl <;> rcases hb with rfl | rfl <;> rfl

end F64

/-- A natural logarithm: strictly increasing where it is defined, and zero at one. -/
structure Logarithm where
  /-- The logarithm of a positive rational. -/
  at_ : ℚ → ℚ
  one : at_ 1 = 0
  increasing : ∀ a b, 0 < a → a < b → at_ a < at_ b

/-- `f64::ln` for a logarithm of the positive rationals. -/
def Logarithm.ln (log : Logarithm) : F64 → F64
  | .nan | .negInf => .nan
  | .posInf => .posInf
  | .finite q => if 0 < q then .finite (log.at_ q) else if q = 0 then .negInf else .nan

theorem Logarithm.ln_finite (log : Logarithm) {q : ℚ} (h : 0 < q) :
    log.ln (.finite q) = .finite (log.at_ q) := if_pos h

theorem Logarithm.mono (log : Logarithm) {p q : ℚ} (hp : 0 < p) (h : p ≤ q) :
    log.at_ p ≤ log.at_ q := by
  rcases h.eq_or_lt with rfl | hlt
  · exact le_refl _
  · exact (log.increasing p q hp hlt).le

theorem Logarithm.pos (log : Logarithm) {q : ℚ} (h : 1 < q) : 0 < log.at_ q :=
  log.one.symm.trans_lt (log.increasing 1 q one_pos h)

end Ieee
