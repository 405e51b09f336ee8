import Vpnmgr.Daemon.Tuning

/-! What a decision points at. The guard that the best server is another one than the server in use
stands only where that one has answered, and a threshold of zero lets through a server that is no
better. -/

namespace Vpnmgr

open Ieee Stateful Stateful.Action

namespace Tuner

/-- The decision points at no server of the name of the one in use. -/
def Assessment.PointsElsewhere (a : Assessment) (autotune : Autotune) : Prop :=
  ∀ target current, (decide a autotune).target = some target → a.current = some current →
    target.name ≠ current.name

/-- Where the server in use is silent, the best server of the assessment is another one. -/
def Assessment.SilentElsewhere (a : Assessment) : Prop :=
  ∀ current best, a.current = some current → a.best = some best → current.rttMs = none →
    best.name ≠ current.name

/-- A server that is silent is left for whatever ranks best. -/
theorem decide_silent {a : Assessment} {current : Current} {best : RankedServer}
    (autotune : Autotune) (hcurrent : a.current = some current) (hbest : a.best = some best)
    (hsilent : current.rttMs = none) :
    decide a autotune = act autotune.switchPolicy best .currentWentSilent false := by
  simp only [decide, hcurrent, hbest, hsilent]

/-- A decision points elsewhere exactly when it does so from a silent server. -/
theorem pointsElsewhere_iff (a : Assessment) (autotune : Autotune) :
    a.PointsElsewhere autotune ↔ a.SilentElsewhere := by
  constructor
  · intro h current best hcurrent hbest hsilent
    refine h best current ?_ hcurrent
    rw [decide_silent autotune hcurrent hbest hsilent, act_target]
  · intro h target current htarget hcurrent
    obtain ⟨hbest, current', _, _, hcurrent', _, hother⟩ := decide_act htarget
    cases hcurrent.symm.trans hcurrent'
    cases hrtt : current.rttMs with
    | none => exact h current target hcurrent hbest hrtt
    | some r => exact (hother r hrtt).2

end Tuner

namespace Sample

/-- A server as a ranking lists it, with its time in milliseconds and its score. -/
def ranked (name : String) (rttMs score : F64) : RankedServer where
  name := name
  countryCode := "nl"
  countryName := "Netherlands"
  location := "Alblasserdam"
  load := 10
  rttMs := rttMs
  score := score
  entry := 1
  endpoint := ⟨.v4 0x0a000001, 1637⟩
  mbps := none
  mbpsAgeSecs := none
  headroomMbps := 0

/-- The server in use gave no answer, and then ranked first by its other entry. -/
def silentBest : Tuner.Assessment :=
  ⟨some ⟨"Achernar", none, some 0.8⟩, some (ranked "Achernar" 100 0.8), 1, none⟩

/-- One server of two entries. The probes of the first look after connecting are lost. -/
def falteringStart : World (.linux log) :=
  world config linuxMachine
    { outside config ⟨[server "Achernar" "nl" 0x0a000001 (some 0x0a000003)]⟩ twinReply linuxFaults with
      network := fun n => network fun endpoint => if n = 1 then none else twinReply endpoint }

def faltering : World (.linux log) := step falteringStart (.connect (some "Achernar") none)

theorem faltering_reachable : Reachable faltering :=
  ⟨falteringStart, world_starts config_valid rfl _ _, .next .here trivial⟩

end Sample

/-- A pass whose probes of the server in use are lost proposes that server. -/
theorem silent_pass_proposes_current :
    (¬∀ (a : Tuner.Assessment) (autotune : Autotune), a.PointsElsewhere autotune) ∧
      Reachable Sample.faltering ∧ ∃ c p, Sample.faltering.state.current = some c ∧
        (step Sample.faltering .autotune).state.pending = some p ∧ p.1.name = c.server := by
  refine ⟨fun h => h Sample.silentBest Sample.config.autotune _ _ rfl rfl rfl,
    Sample.faltering_reachable, ?_⟩
  have hcurrent : Sample.faltering.state.current.map Connection.server = some "Achernar" := by
    decide +kernel
  have hpending : (step Sample.faltering .autotune).state.pending.map (fun p => p.1.name) =
      some "Achernar" := by decide +kernel
  obtain ⟨c, hc, hserver⟩ := Option.map_eq_some_iff.mp hcurrent
  obtain ⟨p, hp, hname⟩ := Option.map_eq_some_iff.mp hpending
  exact ⟨c, p, hc, hp, hname.trans hserver.symm⟩

namespace Tuner

/-! ### What a move away from a slow server has earned -/

/-- The server a decision points at, and why. -/
def Decision.move : Decision → Option (RankedServer × Reason)
  | .switch target reason | .propose target reason | .blocked target reason
  | .suppressed target reason => some (target, reason)
  | _ => none

theorem act_move (policy : SwitchPolicy) (best : RankedServer) (reason : Reason) (declined : Bool) :
    (act policy best reason declined).move = some (best, reason) := by
  cases policy <;> cases declined <;> rfl

/-- Every figure of the assessment is a finite number. -/
structure Assessment.Finite (a : Assessment) : Prop where
  rtt : ∀ current r, a.current = some current → current.rttMs = some r → r.isFinite = true
  score : ∀ current s, a.current = some current → current.score = some s → s.isFinite = true
  bestRtt : ∀ best, a.best = some best → best.rttMs.isFinite = true
  bestScore : ∀ best, a.best = some best → best.score.isFinite = true

/-- A server is strictly better than the one in use in what is compared: the score where that one
has a score, and the time otherwise. -/
def Current.BeatenBy (current : Current) (best : RankedServer) : Prop :=
  match current.score with
  | some score => score < best.score
  | none => ∃ r, current.rttMs = some r ∧ best.rttMs < r

/-- A decision that leaves a slow server points at one that beats it, by the threshold or more. -/
def Assessment.Earned (a : Assessment) (autotune : Autotune) : Prop :=
  ∀ current target rttMs limit improvement, a.current = some current →
    (decide a autotune).move = some (target, .degraded rttMs limit improvement) →
      current.BeatenBy target ∧ autotune.improvementThreshold ≤ improvement

/-- The server in use is over the limit, and the best server is another one. -/
structure Compared (a : Assessment) (autotune : Autotune) (current : Current) (rttMs : F64)
    (best : RankedServer) : Prop where
  inUse : a.current = some current
  first : a.best = some best
  answered : current.rttMs = some rttMs
  slow : ¬rttMs ≤ F64.ofNat autotune.maxLatencyMs
  other : best.name ≠ current.name

section Compared

variable {a : Assessment} {autotune : Autotune} {current : Current} {best : RankedServer}
  {rttMs : F64}

/-- Where the two are compared, the improvement decides. -/
theorem Compared.decide (h : Compared a autotune current rttMs best) : decide a autotune =
    if improvement current rttMs best < autotune.improvementThreshold then
      .noBetterAvailable current.name rttMs best.name best.rttMs (improvement current rttMs best)
        (Decidable.decide (F64.ofNat autotune.maxLatencyMs < best.rttMs))
    else act autotune.switchPolicy best
      (.degraded rttMs autotune.maxLatencyMs (improvement current rttMs best))
      (a.declinedFrom == some current.name) := by
  simp only [Tuner.decide, h.inUse, h.first, h.answered, if_neg h.slow, if_neg h.other]

/-- All that stops a move then is an improvement below the threshold. -/
theorem Compared.move (h : Compared a autotune current rttMs best)
    (himprovement : ¬improvement current rttMs best < autotune.improvementThreshold) :
    (Tuner.decide a autotune).move = some (best,
      .degraded rttMs autotune.maxLatencyMs (improvement current rttMs best)) := by
  rw [h.decide, if_neg himprovement]
  exact act_move _ _ _ _

/-- A decision that points away from a server that answered comes of such a comparison. -/
theorem compared_of_target (hcurrent : a.current = some current) (hrtt : current.rttMs = some rttMs)
    (h : (Tuner.decide a autotune).target = some best) :
    Compared a autotune current rttMs best ∧
      ¬improvement current rttMs best < autotune.improvementThreshold := by
  obtain ⟨hbest, current', _, _, hcurrent', _, hslow⟩ := decide_act h
  cases hcurrent.symm.trans hcurrent'
  have hcompared : Compared a autotune current rttMs best :=
    ⟨hcurrent, hbest, hrtt, (hslow rttMs hrtt).1, (hslow rttMs hrtt).2⟩
  refine ⟨hcompared, fun hbelow => ?_⟩
  rw [hcompared.decide, if_pos hbelow] at h
  cases h

theorem target_of_move {d : Decision} {reason : Reason} (h : d.move = some (best, reason)) :
    d.target = some best := by
  cases d <;> cases h <;> rfl

/-- A decision to leave a slow server comes of one too. -/
theorem compared_of_move {limit : Nat} {gain : F64}
    (h : (Tuner.decide a autotune).move = some (best, .degraded rttMs limit gain)) :
    ∃ current, Compared a autotune current rttMs best ∧ gain = improvement current rttMs best ∧
      ¬gain < autotune.improvementThreshold := by
  obtain ⟨hbest, current, _, _, hcurrent, _, _⟩ := decide_act (target_of_move h)
  cases hrtt : current.rttMs with
  | none =>
    rw [decide_silent autotune hcurrent hbest hrtt, act_move] at h
    cases h
  | some r =>
    obtain ⟨hcompared, hgain⟩ := compared_of_target hcurrent hrtt (target_of_move h)
    rw [hcompared.decide, if_neg hgain, act_move] at h
    cases h
    exact ⟨current, hcompared, rfl, hgain⟩

/-- The gain in score is not negative, and positive only where the candidate has the higher one. -/
theorem relativeImprovement_finite (p b : ℚ) : ∃ q : ℚ,
    relativeImprovement (.finite p) (.finite b) = .finite q ∧ 0 ≤ q ∧ (0 < q → p < b) := by
  unfold relativeImprovement
  simp only [F64.epsilon, F64.finite_le]
  split
  · exact ⟨0, rfl, le_refl 0, fun h => absurd h (lt_irrefl 0)⟩
  · next hbetter =>
    have hlt : p < b := not_le.mp hbetter
    split
    · exact ⟨1, rfl, zero_le_one, fun _ => hlt⟩
    · next hpos =>
      have hp : 0 < p := lt_trans (by positivity) (not_le.mp hpos)
      rw [F64.finite_sub, F64.finite_div _ hp.ne']
      exact ⟨_, rfl, div_nonneg (sub_nonneg.mpr hlt.le) hp.le, fun _ => hlt⟩

/-- So is the gain that is compared with the threshold. -/
theorem Compared.improvement_finite (h : Compared a autotune current rttMs best) (ha : a.Finite) :
    ∃ q : ℚ, improvement current rttMs best = .finite q ∧ 0 ≤ q ∧
      (0 < q → current.BeatenBy best) := by
  obtain ⟨b, hb⟩ := F64.isFinite_iff.mp (ha.bestScore best h.first)
  obtain ⟨t, ht⟩ := F64.isFinite_iff.mp (ha.bestRtt best h.first)
  obtain ⟨r, rfl⟩ := F64.isFinite_iff.mp (ha.rtt current rttMs h.inUse h.answered)
  unfold improvement Current.BeatenBy
  cases hscore : current.score with
  | some score =>
    obtain ⟨p, rfl⟩ := F64.isFinite_iff.mp (ha.score current score h.inUse hscore)
    dsimp only
    rw [hb, F64.finite_lt]
    exact relativeImprovement_finite p b
  | none =>
    simp only [F64.epsilon, F64.finite_le]
    split
    · exact ⟨0, rfl, le_refl 0, fun h => absurd h (lt_irrefl 0)⟩
    · next hpos =>
      have hr : 0 < r := lt_trans (by positivity) (not_le.mp hpos)
      rw [ht, F64.finite_sub, F64.finite_div _ hr.ne']
      refine ⟨_, F64.finite_max _ 0, le_max_right _ _, fun hgain => ⟨_, h.answered, ?_⟩⟩
      rw [F64.finite_lt]
      rcases lt_max_iff.mp hgain with hgain | hgain
      · exact sub_pos.mp ((div_pos_iff_of_pos_right hr).mp hgain)
      · exact absurd hgain (lt_irrefl 0)

end Compared

/-- Every decision to leave a slow server is earned exactly when the threshold is positive, or a
best server that is compared is better anyway. -/
theorem earned_iff {a : Assessment} {c : Config} (hc : c.validate = .ok ()) (ha : a.Finite) :
    a.Earned c.autotune ↔ 0 < c.autotune.improvementThreshold ∨
      ∀ current rttMs best, Compared a c.autotune current rttMs best → current.BeatenBy best := by
  have hthreshold := (Config.validate_ok.mp hc).improvementThreshold
  obtain ⟨t, ht, hnonneg⟩ : ∃ t : ℚ, c.autotune.improvementThreshold = .finite t ∧ 0 ≤ t := by
    obtain ⟨hlow, hhigh⟩ := hthreshold
    cases hvalue : c.autotune.improvementThreshold with
    | finite t => exact ⟨t, rfl, by rw [hvalue] at hlow; exact F64.finite_le.mp hlow⟩
    | nan => rw [hvalue] at hlow; cases hlow
    | negInf => rw [hvalue] at hlow; cases hlow
    | posInf => rw [hvalue] at hhigh; cases hhigh
  have hzero : (0 : F64) < c.autotune.improvementThreshold ↔ 0 < t := by
    rw [ht]
    exact F64.finite_lt
  constructor
  · intro hearned
    rw [hzero]
    refine or_iff_not_imp_left.mpr fun hnot current rttMs best hcompared => ?_
    obtain rfl : t = 0 := le_antisymm (not_lt.mp hnot) hnonneg
    obtain ⟨q, hq, hqnonneg, _⟩ := hcompared.improvement_finite ha
    refine (hearned current best _ _ _ hcompared.inUse (hcompared.move ?_)).1
    rw [hq, ht, F64.finite_lt]
    exact not_lt.mpr hqnonneg
  · intro h current target rttMs limit gain hcurrent hmove
    obtain ⟨current', hcompared, rfl, hgain⟩ := compared_of_move hmove
    cases hcurrent.symm.trans hcompared.inUse
    obtain ⟨q, hq, _, hbetter⟩ := hcompared.improvement_finite ha
    have hle : t ≤ q := by
      rw [hq, ht, F64.finite_lt] at hgain
      exact not_lt.mp hgain
    refine ⟨?_, by rw [hq, ht]; exact F64.finite_le.mpr hle⟩
    rcases h with hpos | h
    · exact hbetter ((hzero.mp hpos).trans_le hle)
    · exact h current rttMs target hcompared

end Tuner

namespace Sample

/-- The server in use is slow and out of the ranking, and the best of the ranking is slower. -/
def slower : Tuner.Assessment :=
  ⟨some ⟨"Achernar", some 300, none⟩, some (ranked "Bellatrix" 400 0.5), 2, none⟩

theorem slower_finite : slower.Finite where
  rtt := by rintro _ _ ⟨⟩ ⟨⟩; rfl
  score := by rintro _ _ ⟨⟩ ⟨⟩
  bestRtt := by rintro _ ⟨⟩; rfl
  bestScore := by rintro _ ⟨⟩; rfl

/-- Settings that ask for no improvement. -/
def eagerConfig : Config := { config with autotune.improvementThreshold := 0 }

end Sample

theorem slower_earned : Sample.slower.Earned Sample.config.autotune :=
  (Tuner.earned_iff Sample.config_valid Sample.slower_finite).mpr (.inl (by decide +kernel))

/-- With a threshold of zero a slower server is proposed. -/
theorem slower_proposed : ¬∀ (a : Tuner.Assessment) (c : Config), c.validate = .ok () → a.Finite →
    a.Earned c.autotune := by
  intro h
  have hmove : (Tuner.decide Sample.slower Sample.eagerConfig.autotune).move =
      some (Sample.ranked "Bellatrix" 400 0.5, .degraded 300 80 0) := by decide +kernel
  obtain ⟨⟨_, hrtt, hlt⟩, _⟩ := h Sample.slower Sample.eagerConfig (by decide +kernel)
    Sample.slower_finite _ _ _ _ _ rfl hmove
  cases hrtt
  exact absurd hlt (by decide)

end Vpnmgr
