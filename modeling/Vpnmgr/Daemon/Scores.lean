import Vpnmgr.Core.Ranking
import Vpnmgr.Daemon.Requests

/-! The range of the scores that the settings give: each part of a score lies between zero and one,
and the score does where the weights are finite. -/

namespace Vpnmgr

open Ieee F64

/-! ### The score -/

/-- Where the headroom term is anchored: at infinity, or at one Mbit/s at least. -/
theorem headroomTargetMbps_cases {c : Config} (h : c.Valid) (direct : Option ℚ) :
    c.autotune.headroomTargetMbps (direct.map finite) = posInf ∨
      ∃ q : ℚ, c.autotune.headroomTargetMbps (direct.map finite) = finite q ∧ 1 ≤ q := by
  refine max_one (not_le_zero_mul ?_ h.headroomMargin)
  unfold Autotune.target
  cases htarget : c.autotune.targetMbps with
  | some t => exact h.targetMbps t htarget
  | none =>
    cases direct with
    | none => exact not_le_zero.mpr (.inr ⟨500, rfl, by norm_num⟩)
    | some m =>
      by_cases hm : 0 < m
      · have hfilter : ((some m).map finite).filter (fun m => (0 : F64) < m) = some (finite m) := by
          simp [Option.filter, show (0 : F64) < finite m from finite_lt.mpr hm]
        simp only [hfilter]
        exact not_le_zero_mul (not_le_zero.mpr (.inr ⟨m, rfl, hm⟩))
          (not_le_zero.mpr (.inr ⟨0.9, rfl, by norm_num⟩))
      · have hfilter : ((some m).map finite).filter (fun m => (0 : F64) < m) = none := by
          simp [Option.filter, show ¬(0 : F64) < finite m from fun h => hm (finite_lt.mp h)]
        simp only [hfilter]
        exact not_le_zero.mpr (.inr ⟨500, rfl, by norm_num⟩)

theorem headroomTargetMbps_pos {c : Config} (h : c.Valid) (direct : Option ℚ) :
    0 < c.autotune.headroomTargetMbps (direct.map finite) := by
  rcases headroomTargetMbps_cases h direct with htarget | ⟨q, htarget, hq⟩
  · rw [htarget]
    rfl
  · rw [htarget]
    exact finite_lt.mpr (one_pos.trans_le hq)

/-- The weights are all numbers. -/
def Weights.Finite (w : Weights) : Prop :=
  ∃ a b c : ℚ, w = ⟨finite a, finite b, finite c⟩

/-- Weights that are numbers and pass the check have a sum above zero, and none is below it. -/
theorem Config.Valid.positive {c : Config} (h : c.Valid) (hweights : c.autotune.weights.Finite) :
    c.autotune.weights.Positive := by
  obtain ⟨a, b, d, hw⟩ := hweights
  obtain ⟨hrtt, hload, hheadroom⟩ := h.weights
  have htotal := h.total
  rw [hw] at hrtt hload hheadroom htotal
  have hnonneg {q : ℚ} (hq : ¬finite q < 0) : 0 ≤ q := not_lt.mp fun h => hq (finite_lt.mpr h)
  refine ⟨a, b, d, hw, hnonneg hrtt, hnonneg hload, hnonneg hheadroom, ?_⟩
  exact not_le.mp fun h => htotal (finite_le.mpr h)

/-- Every score is between zero and one, and any two have an order. -/
def Usable (ranking : List Scored) : Prop :=
  (∀ s ∈ ranking, s.score.InUnit) ∧
    ∀ a ∈ ranking, ∀ b ∈ ranking, (b.score.partialCmp a.score).isSome

/-- Infinite weights, and weights that are not numbers, leave no number. -/
theorem average_nan {w : Weights} (hpos : ¬w.rtt < 0 ∧ ¬w.load < 0 ∧ ¬w.headroom < 0)
    (h : ¬w.Finite) {x y z : F64} (hx : x.InUnit) (hy : y.InUnit) (hz : z.InUnit) :
    (w.rtt * x + w.load * y + w.headroom * z) / (w.rtt + w.load + w.headroom) = nan := by
  obtain ⟨hrtt, hload, hheadroom⟩ := hpos
  have hone : F64.InUnit 1 := ⟨1, rfl, zero_le_one, le_refl 1⟩
  have htop : w.rtt.Top ∨ w.load.Top ∨ w.headroom.Top := by
    rcases not_lt_zero.mp hrtt with h1 | ⟨a, ha, _⟩
    · exact .inl h1
    · rcases not_lt_zero.mp hload with h2 | ⟨b, hb, _⟩
      · exact .inr (.inl h2)
      · rcases not_lt_zero.mp hheadroom with h3 | ⟨c, hc, _⟩
        · exact .inr (.inr h3)
        · exact absurd ⟨a, b, c, by rw [← ha, ← hb, ← hc]⟩ h
  -- A sum with one such weight is one itself, since no other term is the lower infinity.
  have hsum : ∀ a b c : F64, a ≠ negInf → b ≠ negInf → c ≠ negInf → (a.Top ∨ b.Top ∨ c.Top) →
      (a + b + c).Top := by
    intro a b c ha hb hc htop
    rcases htop with h | h | h
    · exact (h.add_left hb).add_left hc
    · exact (h.add_right ha).add_left hc
    · exact h.add_right (add_ne_negInf ha hb)
  have hfinite : ∀ {a : F64}, ¬a < 0 → a ≠ negInf := fun ha h => ha (by rw [h]; rfl)
  refine Top.div (hsum _ _ _ (mul_inUnit_ne_negInf hrtt hx) (mul_inUnit_ne_negInf hload hy)
    (mul_inUnit_ne_negInf hheadroom hz) ?_)
    (hsum _ _ _ (hfinite hrtt) (hfinite hload) (hfinite hheadroom) htop)
  exact htop.imp (·.mul_inUnit hx) (·.imp (·.mul_inUnit hy) (·.mul_inUnit hz))

section Checked

variable {c : Config} (h : c.validate = .ok ()) (log : Logarithm) (direct : Option ℚ)
  (measured : List Measured)

include h

theorem parts_inUnit (m : Measured) (rtt : Duration) :
    (rttScore log (fastestOf measured) (micros rtt)).InUnit ∧
      (1 - m.server.loadFraction).InUnit ∧
      (headroomScore log m.server.headroomMbps
        (c.autotune.headroomTargetMbps (direct.map finite))).InUnit :=
  ⟨rttScore_inUnit log measured rtt, loadScore_inUnit m.server,
    (headroomScore_pos log (headroomTargetMbps_pos (Config.validate_ok.mp h) direct)).1 _⟩

/-- With weights that are numbers every score is between zero and one. -/
theorem rank_inUnit (hweights : c.autotune.weights.Finite) {s : Scored}
    (hs : s ∈ rank log measured ⟨c.autotune.weights,
      c.autotune.headroomTargetMbps (direct.map finite)⟩) : s.score.InUnit := by
  have hvalid := Config.validate_ok.mp h
  have htarget : c.autotune.headroomTargetMbps (direct.map finite) ≠ nan := by
    have hpos := headroomTargetMbps_pos hvalid direct
    intro hnan
    rw [hnan] at hpos
    cases hpos
  obtain ⟨m, _, rtt, _, rfl⟩ := mem_rank hs
  exact scored_inUnit (hvalid.positive hweights) log measured m rtt htarget

end Checked

/-- The scores are usable exactly when the weights are all numbers, or there is nothing to score. -/
theorem rank_usable_iff {c : Config} (h : c.validate = .ok ()) (log : Logarithm)
    (direct : Option ℚ) (measured : List Measured) :
    Usable (rank log measured ⟨c.autotune.weights,
        c.autotune.headroomTargetMbps (direct.map finite)⟩) ↔
      c.autotune.weights.Finite ∨ ∀ m ∈ measured, m.rtt = none := by
  constructor
  · rintro ⟨hunit, _⟩
    by_contra hnot
    simp only [not_or, not_forall] at hnot
    obtain ⟨hweights, m, hm, hrtt⟩ := hnot
    obtain ⟨rtt, hrtt⟩ := Option.ne_none_iff_exists'.mp hrtt
    obtain ⟨q, hq, _⟩ := hunit _ (scored_mem_rank hm hrtt)
    obtain ⟨hx, hy, hz⟩ := parts_inUnit h log direct measured m rtt
    have hnan : _ = nan := average_nan (Config.validate_ok.mp h).weights hweights hx hy hz
    exact absurd (hnan.symm.trans hq) (fun h => (by cases h))
  · intro hor
    have hunit : ∀ s ∈ rank log measured ⟨c.autotune.weights,
        c.autotune.headroomTargetMbps (direct.map finite)⟩, s.score.InUnit := by
      intro s hs
      rcases hor with hweights | hnone
      · exact rank_inUnit h log direct measured hweights hs
      · obtain ⟨m, hm, rtt, hrtt, rfl⟩ := mem_rank hs
        exact absurd (hnone m hm) (by rw [hrtt]; exact fun h => (by cases h))
    exact ⟨hunit, fun a ha b hb => partialCmp_inUnit (hunit b hb) (hunit a ha)⟩

namespace Sample

/-- Two servers that answered a sweep. -/
def timed : List Measured :=
  [⟨server "Alderamin" "nl" 0x0a000001 none, ⟨.v4 0x0a000001, 1637⟩, 1, some (.ofMillis 12)⟩,
    ⟨server "Kitalpha" "ch" 0x0a000002 none, ⟨.v4 0x0a000002, 1637⟩, 1, some (.ofMillis 30)⟩]

/-- A weight that the file writes `nan`. -/
def nanWeight : Config := { config with autotune.weights.load := .nan }

/-- A weight that the file writes `inf`. -/
def infiniteWeight : Config := { config with autotune.weights.load := .posInf }

end Sample

theorem timed_usable : Usable (rank Sample.log Sample.timed ⟨Sample.config.autotune.weights,
    Sample.config.autotune.headroomTargetMbps ((some 300).map finite)⟩) :=
  (rank_usable_iff Sample.config_valid Sample.log (some 300) Sample.timed).mpr
    (.inl ⟨0.6, 0.1, 0.3, rfl⟩)

/-- A ranking with a score that is no number. -/
theorem unusable_of_nan {ranked : List Scored} (h : F64.nan ∈ ranked.map (·.score)) :
    ¬Usable ranked := by
  intro husable
  obtain ⟨s, hs, hnan⟩ := List.mem_map.mp h
  obtain ⟨q, hq, _⟩ := husable.1 s hs
  exact absurd (hnan.symm.trans hq) (fun h => (by cases h))

/-- A weight that is no number passes every check, and so does an infinite one, and no score is a
number. -/
theorem checked_unusable :
    (Sample.nanWeight.validate = .ok () ∧ ¬Usable (rank Sample.log Sample.timed
      ⟨Sample.nanWeight.autotune.weights, Sample.nanWeight.autotune.headroomTargetMbps none⟩)) ∧
    Sample.infiniteWeight.validate = .ok () ∧ ¬Usable (rank Sample.log Sample.timed
      ⟨Sample.infiniteWeight.autotune.weights,
        Sample.infiniteWeight.autotune.headroomTargetMbps none⟩) := by
  have hnan : (rank Sample.log Sample.timed ⟨Sample.nanWeight.autotune.weights,
      Sample.nanWeight.autotune.headroomTargetMbps none⟩).map (·.score) = [.nan, .nan] := by
    decide +kernel
  have hinf : (rank Sample.log Sample.timed ⟨Sample.infiniteWeight.autotune.weights,
      Sample.infiniteWeight.autotune.headroomTargetMbps none⟩).map (·.score) = [.nan, .nan] := by
    decide +kernel
  refine ⟨⟨by decide +kernel, unusable_of_nan ?_⟩, by decide +kernel, unusable_of_nan ?_⟩
  · rw [hnan]
    exact List.mem_cons_self
  · rw [hinf]
    exact List.mem_cons_self

end Vpnmgr
