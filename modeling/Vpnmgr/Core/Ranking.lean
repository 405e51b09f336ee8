import Vpnmgr.Core.Score
import Mathlib.Order.Compare
import Mathlib.Tactic.Positivity

/-! The ranking as an order. Every part of a score lies between zero and one, so that scores can be
compared, and the three-level comparison is a total order of servers with distinct names. -/

namespace Vpnmgr

open Ieee F64

/-! ### The parts of a score -/

theorem fastestOf_cases (measured : List Measured) :
    fastestOf measured = posInf ∨ ∃ q : ℚ, fastestOf measured = finite q := by
  have hfold : ∀ (times : List Duration) (best : F64), (best = posInf ∨ ∃ q : ℚ, best = finite q) →
      times.foldl (fun best d => best.min (micros d)) best = posInf ∨
        ∃ q : ℚ, times.foldl (fun best d => best.min (micros d)) best = finite q := by
    intro times
    induction times with
    | nil => exact fun _ h => h
    | cons d times ih =>
      intro best hbest
      refine ih _ ?_
      rcases hbest with rfl | ⟨p, rfl⟩
      · exact .inr ⟨_, rfl⟩
      · exact .inr ⟨_, finite_min p _⟩
  exact hfold _ _ (.inl rfl)

theorem rttScore_inUnit (log : Logarithm) (measured : List Measured) (rtt : Duration) :
    (rttScore log (fastestOf measured) (micros rtt)).InUnit := by
  unfold rttScore
  split_ifs with hsmall
  · exact ⟨1, rfl, zero_le_one, le_refl 1⟩
  · rw [not_or] at hsmall
    have hratio : ∃ r : ℚ, (micros rtt / fastestOf measured).max 1 = finite r ∧ 1 ≤ r := by
      obtain ⟨us, hus⟩ : ∃ us : ℚ, micros rtt = finite us := ⟨_, rfl⟩
      rw [hus]
      rcases fastestOf_cases measured with hfast | ⟨q, hfast⟩
      · rw [hfast]
        exact ⟨Max.max 0 1, finite_max 0 1, le_max_right _ _⟩
      · have hq : q ≠ 0 := by
          rintro rfl
          exact hsmall.2 (by rw [hfast]; decide +kernel)
        rw [hfast, finite_div us hq]
        exact ⟨Max.max (us / q) 1, finite_max _ 1, le_max_right _ _⟩
    obtain ⟨r, hr, hle⟩ := hratio
    have hfloor : log.ln rttRatioFloor = finite (log.at_ 20) := log.ln_finite (by norm_num)
    have hpos : 0 < log.at_ 20 := log.pos (by norm_num)
    rw [hr, log.ln_finite (by linarith), hfloor, finite_div _ hpos.ne']
    change ((finite 1 - finite (log.at_ r / log.at_ 20)).clamp 0 1).InUnit
    rw [finite_sub]
    exact clamp_inUnit _

/-- The ratio under the logarithm of the headroom. -/
theorem headroom_ratio {target : F64} (hpos : 0 < target) : ∃ slope : ℚ, 0 ≤ slope ∧
    ∀ headroom : Nat, 1 + F64.ofNat headroom / target = finite (1 + headroom * slope) := by
  cases target with
  | nan => cases hpos
  | negInf => cases hpos
  | posInf =>
    refine ⟨0, le_refl 0, fun headroom => ?_⟩
    rw [mul_zero]
    rfl
  | finite t =>
    have ht : 0 < t := finite_lt.mp hpos
    refine ⟨t⁻¹, inv_nonneg.mpr ht.le, fun headroom => ?_⟩
    rw [F64.ofNat, finite_div _ ht.ne', ← div_eq_mul_inv]
    rfl

/-- More headroom gives no lower a score, and every such score is between zero and one. -/
theorem headroomScore_pos (log : Logarithm) {target : F64} (hpos : 0 < target) :
    (∀ headroom, (headroomScore log headroom target).InUnit) ∧ ∀ headroom headroom' : Nat,
      headroom' ≤ headroom →
        headroomScore log headroom' target ≤ headroomScore log headroom target := by
  have hnot : ¬target ≤ 0 := by
    cases target with
    | nan => cases hpos
    | negInf => cases hpos
    | posInf => exact fun h => (by cases h)
    | finite t => exact fun h => absurd (finite_le.mp h) (not_le.mpr (finite_lt.mp hpos))
  obtain ⟨slope, hslope, hratio⟩ := headroom_ratio hpos
  have htwo : log.ln 2 = finite (log.at_ 2) := log.ln_finite (by norm_num)
  have hlog : 0 < log.at_ 2 := log.pos (by norm_num)
  have harg : ∀ headroom : Nat, 0 < 1 + (headroom : ℚ) * slope := fun _ => by positivity
  have hscore : ∀ headroom : Nat, headroomScore log headroom target =
      (finite (log.at_ (1 + headroom * slope) / log.at_ 2)).clamp 0 1 := by
    intro headroom
    rw [headroomScore, if_neg hnot, hratio, log.ln_finite (harg headroom), htwo,
      finite_div _ hlog.ne']
  refine ⟨fun headroom => ?_, fun headroom headroom' hle => ?_⟩
  · rw [hscore]
    exact clamp_inUnit _
  · rw [hscore, hscore]
    refine clamp_mono (div_le_div_of_nonneg_right (log.mono (harg headroom') ?_) hlog.le)
    have hcast : (headroom' : ℚ) ≤ headroom := Nat.cast_le.mpr hle
    have := mul_le_mul_of_nonneg_right hcast hslope
    linarith

theorem headroomScore_inUnit (log : Logarithm) (headroom : Nat) {target : F64} (h : target ≠ nan) :
    (headroomScore log headroom target).InUnit := by
  by_cases hpos : 0 < target
  · exact (headroomScore_pos log hpos).1 headroom
  · have hle : target ≤ 0 := by
      cases target with
      | nan => exact absurd rfl h
      | negInf => rfl
      | posInf => exact absurd rfl hpos
      | finite t => exact finite_le.mpr (not_lt.mp fun h => hpos (finite_lt.mpr h))
    rw [headroomScore, if_pos hle]
    exact ⟨1, rfl, zero_le_one, le_refl 1⟩

/-- The load that does not count: a hundred per cent of it at most. -/
theorem loadScore_eq (s : Server) :
    1 - s.loadFraction = finite (1 - Min.min (s.load : ℚ) 100 / 100) := by
  have hmin : (F64.ofNat s.load).min 100 = finite (Min.min (s.load : ℚ) 100) := finite_min _ 100
  have hhundred : (100 : F64) = finite 100 := rfl
  rw [Server.loadFraction, hmin, hhundred, finite_div _ (by norm_num)]
  exact finite_sub _ _

theorem loadScore_inUnit (s : Server) : (1 - s.loadFraction).InUnit := by
  refine ⟨_, loadScore_eq s, ?_, ?_⟩
  · have := min_le_right (s.load : ℚ) 100
    linarith
  · have : 0 ≤ Min.min (s.load : ℚ) 100 := by positivity
    linarith

theorem average_inUnit {a b c : ℚ} (ha : 0 ≤ a) (hb : 0 ≤ b) (hc : 0 ≤ c) (hsum : 0 < a + b + c)
    {x y z : F64} (hx : x.InUnit) (hy : y.InUnit) (hz : z.InUnit) :
    ((finite a * x + finite b * y + finite c * z) / (finite a + finite b + finite c)).InUnit := by
  obtain ⟨x, rfl, hx0, hx1⟩ := hx
  obtain ⟨y, rfl, hy0, hy1⟩ := hy
  obtain ⟨z, rfl, hz0, hz1⟩ := hz
  simp only [finite_mul, finite_add]
  rw [finite_div _ hsum.ne']
  refine ⟨_, rfl, by positivity, ?_⟩
  rw [div_le_one hsum]
  have hax := mul_le_mul_of_nonneg_left hx1 ha
  have hby := mul_le_mul_of_nonneg_left hy1 hb
  have hcz := mul_le_mul_of_nonneg_left hz1 hc
  linarith

/-! ### The scores of one ranking -/

/-- The weights are numbers, none below zero and their sum above it. -/
def Weights.Positive (w : Weights) : Prop :=
  ∃ a b c : ℚ, w = ⟨finite a, finite b, finite c⟩ ∧ 0 ≤ a ∧ 0 ≤ b ∧ 0 ≤ c ∧ 0 < a + b + c

/-- All weights times the same factor. -/
def Weights.scale (k : ℚ) (w : Weights) : Weights :=
  ⟨finite k * w.rtt, finite k * w.load, finite k * w.headroom⟩

/-- The servers that answered, each with its score. -/
def Scoring.scoredOf (scoring : Scoring) (log : Logarithm) (fastest : F64)
    (measured : List Measured) : List Scored :=
  measured.filterMap fun m => m.rtt.map (scoring.scored log fastest m)

/-- What a ranked server was measured at. -/
def Scored.measurement (s : Scored) : Measured := ⟨s.server, s.endpoint, s.entry, some s.rtt⟩

section Parts

variable {scoring : Scoring} (hweights : scoring.weights.Positive) (log : Logarithm)
  (measured : List Measured) (m : Measured) (rtt : Duration)

include hweights

theorem scored_inUnit (htarget : scoring.headroomTargetMbps ≠ nan) :
    (scoring.scored log (fastestOf measured) m rtt).score.InUnit := by
  obtain ⟨a, b, c, hw, ha, hb, hc, hsum⟩ := hweights
  simp only [Scoring.scored, hw]
  exact average_inUnit ha hb hc hsum (rttScore_inUnit log measured rtt) (loadScore_inUnit m.server)
    (headroomScore_inUnit log _ htarget)

/-- A common factor of the weights cancels. -/
theorem scored_scale (htarget : scoring.headroomTargetMbps ≠ nan) {k : ℚ} (hk : 0 < k) :
    { scoring with weights := scoring.weights.scale k }.scored log (fastestOf measured) m rtt =
      scoring.scored log (fastestOf measured) m rtt := by
  obtain ⟨a, b, c, hw, ha, hb, hc, hsum⟩ := hweights
  obtain ⟨x, hx, -⟩ := rttScore_inUnit log measured rtt
  obtain ⟨y, hy, -⟩ := loadScore_inUnit m.server
  obtain ⟨z, hz, -⟩ := headroomScore_inUnit log m.server.headroomMbps htarget
  have hscaled : k * a + k * b + k * c = k * (a + b + c) := by ring
  simp only [Scoring.scored, Weights.scale, hw, hx, hy, hz, finite_mul, finite_add]
  rw [finite_div _ hsum.ne', finite_div _ (by rw [hscaled]; positivity), hscaled,
    show k * a * x + k * b * y + k * c * z = k * (a * x + b * y + c * z) by ring,
    mul_div_mul_left _ _ hk.ne']

end Parts

theorem scoredOf_measurement (scoring : Scoring) (log : Logarithm) (fastest : F64)
    (measured : List Measured) :
    (scoring.scoredOf log fastest measured).map Scored.measurement =
      measured.filter (·.rtt.isSome) := by
  induction measured with
  | nil => rfl
  | cons m measured ih =>
    obtain ⟨server, endpoint, entry, rtt⟩ := m
    cases rtt with
    | none => exact ih
    | some rtt => exact congrArg (_ :: ·) ih

/-! ### The order -/

/-- The order of a ranking, for scores that are numbers. -/
def Scored.order : Scored → Scored → Ordering :=
  compareLex (compareLex (compareOn fun s => OrderDual.toDual s.score.toRat) (compareOn Scored.rtt))
    (compareOn fun s => s.server.name)

instance : Std.TransCmp Scored.order := by
  unfold Scored.order
  infer_instance

theorem Scored.order_swap (a b : Scored) : b.order a = (a.order b).swap := Std.OrientedCmp.eq_swap

/-- `a` does not come after `b`. -/
def Scored.Le (a b : Scored) : Prop := (a.order b).isLE = true

instance : DecidableRel Scored.Le := fun a b => inferInstanceAs (Decidable ((a.order b).isLE = true))

instance : IsTrans Scored Scored.Le := ⟨fun _ _ _ => Std.TransCmp.isLE_trans⟩

instance : Std.Total Scored.Le := ⟨fun a b => by
  unfold Scored.Le
  rw [Scored.order_swap a b]
  cases a.order b <;> simp⟩

/-- Numbers are compared as the sort compares them. -/
theorem Scored.before_iff {a b : Scored} (ha : a.score.InUnit) (hb : b.score.InUnit) :
    a.before b = true ↔ a.Le b := by
  obtain ⟨p, hp, -⟩ := ha
  obtain ⟨q, hq, -⟩ := hb
  have hscore : compareOn (fun s => OrderDual.toDual s.score.toRat) a b =
      b.score.compareOrEqual a.score := by
    rw [compareOn, hp, hq, compareOrEqual_finite]
    rfl
  rw [Scored.before, Scored.Le, Scored.order, compareLex, compareLex, hscore, compareOn, compareOn]
  generalize ((b.score.compareOrEqual a.score).then (compare a.rtt b.rtt)).then
    (compare a.server.name b.server.name) = o
  cases o <;> simp

/-- With scores that are numbers the ranking is in order. -/
theorem sorted_of_inUnit {scored : List Scored} (h : ∀ s ∈ scored, s.score.InUnit) :
    (scored.insertionSort fun a b => a.before b).Pairwise Scored.Le := by
  have hsame : scored.insertionSort (fun a b => a.before b) = scored.insertionSort Scored.Le := by
    have hmap := List.map_insertionSort (fun a b : Scored => a.before b = true) Scored.Le id scored
      fun a ha b hb => Scored.before_iff (h a ha) (h b hb)
    rwa [List.map_id, List.map_id] at hmap
  rw [hsame]
  exact List.pairwise_insertionSort _ _

/-- Servers with distinct names have one order. -/
theorem order_unique {l l' : List Scored} (hl : l.Pairwise Scored.Le) (hl' : l'.Pairwise Scored.Le)
    (hperm : l.Perm l') (hnames : (l.map fun s => s.server.name).Nodup) : l = l' := by
  refine hperm.eq_of_pairwise (fun a b ha hb hab hba => ?_) hl hl'
  have heq : a.order b = .eq := by
    unfold Scored.Le at hab hba
    rw [Scored.order_swap a b] at hba
    generalize a.order b = o at hab hba
    cases o with
    | lt => cases hba
    | eq => rfl
    | gt => cases hab
  have hname : a.server.name = b.server.name := by
    rw [Scored.order, compareLex, Ordering.then_eq_eq] at heq
    exact Std.LawfulEqCmp.eq_of_compare heq.2
  exact List.inj_on_of_nodup_map hnames ha (hperm.mem_iff.mpr hb) hname

/-! ### The fastest -/

/-- The milliseconds of a duration. -/
def millis (d : Duration) : ℚ := d / 1000000000 * 1000

theorem millis_eq (d : Duration) : d.asSecsF64 * 1000 = .finite (millis d) := rfl

theorem millis_le {d e : Duration} : millis d ≤ millis e ↔ d ≤ e := by
  unfold millis
  rw [mul_le_mul_iff_left₀ (by norm_num), div_le_div_iff_of_pos_right (by norm_num), Nat.cast_le]

/-- A time in microseconds. -/
def microseconds (d : Duration) : ℚ := d / 1000000000 * 1000000

theorem micros_eq (d : Duration) : micros d = finite (microseconds d) := rfl

theorem microseconds_mono {d d' : Duration} (h : d ≤ d') : microseconds d ≤ microseconds d' := by
  have hcast : (d : ℚ) ≤ d' := Nat.cast_le.mpr h
  unfold microseconds
  linarith

theorem fastestOf_perm {measured measured' : List Measured} (h : measured.Perm measured') :
    fastestOf measured = fastestOf measured' :=
  (h.filterMap Measured.rtt).foldl_eq' (fun _ _ _ _ best => min_finite_comm best _ _) posInf

theorem fastestOf_concat (measured : List Measured) {m : Measured} {d : Duration}
    (hd : m.rtt = some d) :
    fastestOf (measured ++ [m]) = (fastestOf measured).min (finite (microseconds d)) := by
  rw [fastestOf, List.filterMap_append, List.foldl_append, ← fastestOf]
  simp only [List.filterMap_cons, hd, List.filterMap_nil, List.foldl_cons, List.foldl_nil]
  rfl

/-- No time is below the fastest. -/
theorem fastestOf_le {measured : List Measured} {m : Measured} {d : Duration} (hm : m ∈ measured)
    (hd : m.rtt = some d) : ∃ q, fastestOf measured = finite q ∧ q ≤ microseconds d := by
  obtain ⟨before, after, rfl⟩ := List.append_of_mem hm
  have hperm : (before ++ m :: after).Perm (before ++ after ++ [m]) := by
    rw [List.append_assoc]
    exact List.Perm.append_left _ (List.perm_append_singleton m after).symm
  rw [fastestOf_perm hperm, fastestOf_concat (before ++ after) hd]
  rcases fastestOf_cases (before ++ after) with hfast | ⟨q, hfast⟩
  · rw [hfast]
    exact ⟨_, rfl, le_refl _⟩
  · rw [hfast, finite_min]
    exact ⟨_, rfl, min_le_right _ _⟩

/-- A measurement that is no faster than another leaves the fastest as it is. -/
theorem fastestOf_cons {measured : List Measured} {m : Measured}
    (h : ∀ d, m.rtt = some d → ∃ m' ∈ measured, ∃ d', m'.rtt = some d' ∧ d' ≤ d) :
    fastestOf (m :: measured) = fastestOf measured := by
  cases hd : m.rtt with
  | none => rw [fastestOf, List.filterMap_cons, hd, ← fastestOf]
  | some d =>
    obtain ⟨m', hm', d', hd', hle⟩ := h d hd
    obtain ⟨q, hfast, hq⟩ := fastestOf_le hm' hd'
    rw [fastestOf_perm (List.perm_append_singleton m measured).symm, fastestOf_concat measured hd,
      hfast, finite_min, min_eq_left (hq.trans (microseconds_mono hle))]

/-! ### The ranking -/

section Ranking

variable {scoring : Scoring} (hweights : scoring.weights.Positive)
  (htarget : scoring.headroomTargetMbps ≠ nan) (log : Logarithm)

include hweights htarget

theorem scoredOf_inUnit (measured measured' : List Measured) :
    ∀ s ∈ scoring.scoredOf log (fastestOf measured) measured', s.score.InUnit := by
  intro s hs
  obtain ⟨m, -, hm⟩ := List.mem_filterMap.mp hs
  obtain ⟨rtt, -, rfl⟩ := Option.map_eq_some_iff.mp hm
  exact scored_inUnit hweights log measured m rtt htarget

theorem rank_sorted (measured : List Measured) :
    (rank log measured scoring).Pairwise Scored.Le :=
  sorted_of_inUnit (scoredOf_inUnit hweights htarget log measured measured)

end Ranking

theorem rank_perm (log : Logarithm) (measured : List Measured) (scoring : Scoring) :
    (rank log measured scoring).Perm (scoring.scoredOf log (fastestOf measured) measured) :=
  List.perm_insertionSort _ _

theorem scoredOf_names (scoring : Scoring) (log : Logarithm) (fastest : F64)
    {measured : List Measured} (hnames : (measured.map fun m => m.server.name).Nodup) :
    ((scoring.scoredOf log fastest measured).map fun s => s.server.name).Nodup := by
  have hmap : (scoring.scoredOf log fastest measured).map (fun s => s.server.name) =
      (measured.filter (·.rtt.isSome)).map fun m => m.server.name := by
    rw [← scoredOf_measurement, List.map_map]
    rfl
  rw [hmap]
  exact hnames.sublist (List.filter_sublist.map _)

/-- The ranking is an order of what was measured. Each server that answered has one place, which
depends neither on the order of the measurements nor on a common factor of the weights, and whose
scores and order are not changed by a further server that is silent or no faster than another. -/
theorem rank_wellDefined (log : Logarithm) {scoring : Scoring} (hweights : scoring.weights.Positive)
    (htarget : scoring.headroomTargetMbps ≠ nan) {measured : List Measured}
    (hnames : (measured.map fun m => m.server.name).Nodup) :
    ((rank log measured scoring).map Scored.measurement).Perm (measured.filter (·.rtt.isSome)) ∧
    (∀ measured', measured'.Perm measured → rank log measured' scoring = rank log measured scoring) ∧
    (∀ k : ℚ, 0 < k → rank log measured { scoring with weights := scoring.weights.scale k } =
      rank log measured scoring) ∧
    ∀ m measured', measured'.Perm (m :: measured) →
      m.server.name ∉ measured.map (fun m => m.server.name) →
      (∀ d, m.rtt = some d → ∃ m' ∈ measured, ∃ d', m'.rtt = some d' ∧ d' ≤ d) →
      (rank log measured' scoring).filter (fun s => s.server.name ≠ m.server.name) =
        rank log measured scoring := by
  have hsorted := rank_sorted hweights htarget log
  refine ⟨?_, fun measured' hperm => ?_, fun k hk => ?_, fun m measured' hperm hnew hslower => ?_⟩
  · rw [← scoredOf_measurement scoring log (fastestOf measured)]
    exact (rank_perm log measured scoring).map _
  · have hscored : (rank log measured' scoring).Perm (rank log measured scoring) := by
      refine (rank_perm log measured' scoring).trans (.trans ?_ (rank_perm log measured scoring).symm)
      rw [fastestOf_perm hperm]
      exact hperm.filterMap _
    refine order_unique (hsorted measured') (hsorted measured) hscored ?_
    exact ((hscored.trans (rank_perm log measured scoring)).map _).nodup_iff.mpr
      (scoredOf_names scoring log _ hnames)
  · refine congrArg (List.insertionSort fun a b : Scored => a.before b = true)
      (List.filterMap_congr fun m _ => ?_)
    cases m.rtt with
    | none => rfl
    | some rtt => exact congrArg some (scored_scale hweights log measured m rtt htarget hk)
  · have hfastest : fastestOf measured' = fastestOf measured :=
      (fastestOf_perm hperm).trans (fastestOf_cons hslower)
    have hothers : (scoring.scoredOf log (fastestOf measured) (m :: measured)).filter
        (fun s => s.server.name ≠ m.server.name) =
          scoring.scoredOf log (fastestOf measured) measured := by
      have hall : ∀ s ∈ scoring.scoredOf log (fastestOf measured) measured,
          s.server.name ≠ m.server.name := by
        intro s hs hname
        obtain ⟨m', hm', hs⟩ := List.mem_filterMap.mp hs
        obtain ⟨rtt, -, rfl⟩ := Option.map_eq_some_iff.mp hs
        exact hnew (hname ▸ List.mem_map_of_mem hm')
      have hkept : (scoring.scoredOf log (fastestOf measured) measured).filter
          (fun s => s.server.name ≠ m.server.name) =
            scoring.scoredOf log (fastestOf measured) measured :=
        List.filter_eq_self.mpr fun s hs => decide_eq_true (hall s hs)
      rw [Scoring.scoredOf, List.filterMap_cons]
      cases m.rtt with
      | none => exact hkept
      | some rtt =>
        rw [Option.map_some]
        dsimp only
        rw [List.filter_cons_of_neg (by simp [Scoring.scored])]
        exact hkept
    have hscored : ((rank log measured' scoring).filter
        (fun s => s.server.name ≠ m.server.name)).Perm (rank log measured scoring) := by
      refine .trans ?_ (rank_perm log measured scoring).symm
      rw [← hothers]
      refine ((rank_perm log measured' scoring).trans ?_).filter _
      rw [hfastest]
      exact hperm.filterMap _
    refine order_unique ((hsorted measured').filter _) (hsorted measured) hscored ?_
    exact ((hscored.trans (rank_perm log measured scoring)).map _).nodup_iff.mpr
      (scoredOf_names scoring log _ hnames)

namespace Sample

/-- The line that touches the natural logarithm at one. -/
def tangent : Logarithm where
  at_ q := q - 1
  one := sub_self 1
  increasing _ _ _ h := sub_lt_sub_right h 1

/-- The default weights, with full marks for headroom at 1000 Mbit/s. -/
def scoring : Scoring := ⟨{}, 1000⟩

theorem scoring_positive : scoring.weights.Positive :=
  ⟨0.6, 0.1, 0.3, rfl, by norm_num, by norm_num, by norm_num, by norm_num⟩

/-- A server that answered after some milliseconds. -/
def timedAt (name : String) (load ms : Nat) : Measured :=
  ⟨⟨name, "Netherlands", "nl", "Alblasserdam", 100, 1000, 7, load, .ok, none, 0x0a000001, none⟩,
    ⟨.v4 0x0a000001, wgPort⟩, 1, some (.ofMillis ms)⟩

end Sample

theorem pair_reordered :
    rank Sample.tangent [Sample.timedAt "Bellatrix" 20 30, Sample.timedAt "Achernar" 10 12]
        Sample.scoring =
      rank Sample.tangent [Sample.timedAt "Achernar" 10 12, Sample.timedAt "Bellatrix" 20 30]
        Sample.scoring :=
  (rank_wellDefined Sample.tangent Sample.scoring_positive (fun h => by cases h) (by decide)).2.1 _
    (List.Perm.swap _ _ _)

/-! ### Dominated servers -/

/-- A lower time gives no lower a score. -/
theorem rttScore_mono (log : Logarithm) (measured : List Measured) {d e : Duration} (h : d ≤ e) :
    rttScore log (fastestOf measured) (micros e) ≤ rttScore log (fastestOf measured) (micros d) := by
  have hus := microseconds_mono h
  obtain ⟨x, hx, hx0, hx1⟩ := rttScore_inUnit log measured e
  by_cases hsmall : micros d ≤ epsilon ∨ fastestOf measured ≤ epsilon
  · have hone : rttScore log (fastestOf measured) (micros d) = finite 1 := if_pos hsmall
    rw [hone, hx]
    exact finite_le.mpr hx1
  · rw [not_or] at hsmall
    have hlarge : ¬(micros e ≤ epsilon ∨ fastestOf measured ≤ epsilon) := by
      rintro (hle | hle)
      · exact hsmall.1 (finite_le.mpr (hus.trans (finite_le.mp hle)))
      · exact hsmall.2 hle
    have hlog : 0 < log.at_ 20 := log.pos (by norm_num)
    have hfloor : log.ln rttRatioFloor = finite (log.at_ 20) := log.ln_finite (by norm_num)
    obtain ⟨slope, hslope, hratio⟩ : ∃ slope : ℚ, 0 ≤ slope ∧ ∀ d : Duration,
        micros d / fastestOf measured = finite (microseconds d * slope) := by
      rcases fastestOf_cases measured with hfast | ⟨q, hfast⟩
      · refine ⟨0, le_refl 0, fun d => ?_⟩
        rw [hfast, mul_zero]
        rfl
      · have hq : 0 < q := by
          by_contra hq
          refine hsmall.2 ?_
          rw [hfast]
          exact finite_le.mpr ((not_lt.mp hq).trans (by norm_num))
        refine ⟨q⁻¹, inv_nonneg.mpr hq.le, fun d => ?_⟩
        rw [hfast, micros_eq, finite_div _ hq.ne', ← div_eq_mul_inv]
    have hscore : ∀ d : Duration, ¬(micros d ≤ epsilon ∨ fastestOf measured ≤ epsilon) →
        rttScore log (fastestOf measured) (micros d) =
          (finite (1 - log.at_ (Max.max (microseconds d * slope) 1) / log.at_ 20)).clamp 0 1 := by
      intro d hd
      have hmax : (finite (microseconds d * slope)).max 1 =
          finite (Max.max (microseconds d * slope) 1) := finite_max _ 1
      rw [rttScore, if_neg hd, hratio, hmax,
        log.ln_finite (one_pos.trans_le (le_max_right _ _)), hfloor, finite_div _ hlog.ne']
      exact congrArg (clamp · 0 1) (finite_sub _ _)
    rw [hscore d (not_or.mpr hsmall), hscore e hlarge]
    have hmax : Max.max (microseconds d * slope) 1 ≤ Max.max (microseconds e * slope) 1 :=
      max_le_max_right 1 (mul_le_mul_of_nonneg_right hus hslope)
    have hln := log.mono (one_pos.trans_le (le_max_right (microseconds d * slope) 1)) hmax
    exact clamp_mono (sub_le_sub_left (div_le_div_of_nonneg_right hln hlog.le) 1)

theorem loadScore_mono {s t : Server} (h : s.load ≤ t.load) :
    1 - t.loadFraction ≤ 1 - s.loadFraction := by
  rw [loadScore_eq, loadScore_eq, finite_le]
  have hmin : Min.min (s.load : ℚ) 100 ≤ Min.min (t.load : ℚ) 100 :=
    min_le_min_right 100 (Nat.cast_le.mpr h)
  linarith

/-- `a` is no slower than `b`, carries no more load and has no less to spare. -/
structure Dominates (a : Server) (d : Duration) (b : Server) (e : Duration) : Prop where
  rtt : d ≤ e
  load : a.load ≤ b.load
  headroom : b.headroomMbps ≤ a.headroomMbps

/-- A dominated server scores no higher. -/
theorem scored_mono {scoring : Scoring} (hweights : scoring.weights.Positive)
    (htarget : 0 < scoring.headroomTargetMbps) (log : Logarithm) (measured : List Measured)
    {a b : Measured} {d e : Duration} (h : Dominates a.server d b.server e) :
    (scoring.scored log (fastestOf measured) b e).score ≤
      (scoring.scored log (fastestOf measured) a d).score := by
  have hrtt := rttScore_mono log measured h.rtt
  have hload := loadScore_mono h.load
  have hheadroom := (headroomScore_pos log htarget).2 _ _ h.headroom
  obtain ⟨wr, wl, wh, hw, hr, hl, hh, hsum⟩ := hweights
  simp only [Scoring.scored, hw]
  obtain ⟨x, hx, -⟩ := rttScore_inUnit log measured d
  obtain ⟨x', hx', -⟩ := rttScore_inUnit log measured e
  obtain ⟨y, hy, -⟩ := loadScore_inUnit a.server
  obtain ⟨y', hy', -⟩ := loadScore_inUnit b.server
  obtain ⟨z, hz, -⟩ := (headroomScore_pos log htarget).1 a.server.headroomMbps
  obtain ⟨z', hz', -⟩ := (headroomScore_pos log htarget).1 b.server.headroomMbps
  rw [hx, hx', finite_le] at hrtt
  rw [hy, hy', finite_le] at hload
  rw [hz, hz', finite_le] at hheadroom
  rw [hx, hx', hy, hy', hz, hz']
  simp only [finite_mul, finite_add]
  rw [finite_div _ hsum.ne', finite_div _ hsum.ne', finite_le]
  refine div_le_div_of_nonneg_right ?_ hsum.le
  have hrr := mul_le_mul_of_nonneg_left hrtt hr
  have hll := mul_le_mul_of_nonneg_left hload hl
  have hhh := mul_le_mul_of_nonneg_left hheadroom hh
  linarith

theorem ne_nan_of_pos {a : F64} (h : 0 < a) : a ≠ nan := by
  rintro rfl
  cases h

/-- A server with a higher score, or with as high a one in less time, does not come after. -/
theorem not_le_of_rtt_lt {a b : Scored} (hscore : b.score ≤ a.score) (ha : a.score.InUnit)
    (hb : b.score.InUnit) (hrtt : a.rtt < b.rtt) : ¬b.Le a := by
  obtain ⟨p, hp, -⟩ := ha
  obtain ⟨q, hq, -⟩ := hb
  rw [hp, hq, finite_le] at hscore
  have hfirst : compareOn (fun s : Scored => OrderDual.toDual s.score.toRat) b a = compare p q := by
    rw [compareOn, hp, hq]
    rfl
  have hsecond : compareOn Scored.rtt b a = .gt := Nat.compare_eq_gt.mpr hrtt
  rw [Scored.Le, Scored.order, compareLex, compareLex, hfirst, hsecond]
  rcases hscore.eq_or_lt with rfl | hlt
  · rw [compare_eq_iff_eq.mpr rfl]
    simp
  · rw [compare_gt_iff_gt.mpr hlt]
    simp

/-- A dominated server never ranks higher: its score is no higher, and with more time it comes after.
All scores are between zero and one. -/
theorem rank_dominated (log : Logarithm) {scoring : Scoring} (hweights : scoring.weights.Positive)
    (htarget : 0 < scoring.headroomTargetMbps) (measured : List Measured) :
    (∀ s ∈ rank log measured scoring, s.score.InUnit ∧ s.rttScore.InUnit ∧ s.loadScore.InUnit ∧
      s.headroomScore.InUnit) ∧
    ∀ a ∈ measured, ∀ b ∈ measured, ∀ d e, a.rtt = some d → b.rtt = some e →
      Dominates a.server d b.server e →
      let first := scoring.scored log (fastestOf measured) a d
      let second := scoring.scored log (fastestOf measured) b e
      first ∈ rank log measured scoring ∧ second ∈ rank log measured scoring ∧
        second.score ≤ first.score ∧
        (d < e → ∀ i j : Nat, (rank log measured scoring)[i]? = some first →
          (rank log measured scoring)[j]? = some second → i < j) := by
  have hnan := ne_nan_of_pos htarget
  refine ⟨fun s hs => ?_, fun a ha b hb d e hd he hdominates => ?_⟩
  · obtain ⟨m, -, rtt, -, rfl⟩ := mem_rank hs
    exact ⟨scored_inUnit hweights log measured m rtt hnan, rttScore_inUnit log measured rtt,
      loadScore_inUnit m.server, headroomScore_inUnit log _ hnan⟩
  · have hscore := scored_mono hweights htarget log measured hdominates
    refine ⟨scored_mem_rank ha hd, scored_mem_rank hb he, hscore, fun hlt i j hi hj => ?_⟩
    have hnot := not_le_of_rtt_lt hscore (scored_inUnit hweights log measured a d hnan)
      (scored_inUnit hweights log measured b e hnan) hlt
    by_contra hij
    rcases (Nat.le_of_not_lt hij).eq_or_lt with rfl | hji
    · rw [hi] at hj
      exact absurd (congrArg Scored.rtt (Option.some.inj hj)) (Nat.ne_of_lt hlt)
    · obtain ⟨hlti, hgeti⟩ := List.getElem?_eq_some_iff.mp hi
      obtain ⟨hltj, hgetj⟩ := List.getElem?_eq_some_iff.mp hj
      have hle := List.pairwise_iff_getElem.mp (rank_sorted hweights hnan log measured) j i hltj hlti
        hji
      rw [hgeti, hgetj] at hle
      exact hnot hle

/-- Of two servers that answered, the faster and less loaded one scores no lower. -/
theorem dominated_scores :
    let measured := [Sample.timedAt "Bellatrix" 20 30, Sample.timedAt "Achernar" 10 12]
    (Sample.scoring.scored Sample.tangent (fastestOf measured) (Sample.timedAt "Bellatrix" 20 30)
      (.ofMillis 30)).score ≤ (Sample.scoring.scored Sample.tangent (fastestOf measured)
        (Sample.timedAt "Achernar" 10 12) (.ofMillis 12)).score :=
  ((rank_dominated Sample.tangent Sample.scoring_positive (by decide) _).2 _
    (List.mem_cons_of_mem _ List.mem_cons_self) _ List.mem_cons_self _ _ rfl rfl
    ⟨by decide, by decide, by decide⟩).2.2.1

end Vpnmgr
