import Vpnmgr.Daemon.Steering

/-! What the report of a pass says: the server in use was fast, or no server answered the sweep, or
the report is that of the decision on what the pass assessed. -/

namespace Vpnmgr

open Ieee Text Stateful Stateful.Action

variable {P : Platform} {α : Type}

namespace Tuner.Decision

/-- The server that the decision moves to or proposes. -/
def taken : Decision → Option RankedServer
  | switch target _ | propose target _ => some target
  | _ => none

theorem target_of_taken {d : Tuner.Decision} {b : RankedServer} (h : d.taken = some b) :
    d.target = some b := by
  cases d <;> first | exact h | cases h

/-- The decision says that no server answered. -/
def isSilence : Decision → Bool
  | nothingReachable _ => true
  | _ => false

end Tuner.Decision

/-- The decision only says so where nothing was ranked. -/
theorem Tuner.best_of_isSilence {a : Assessment} {autotune : Autotune}
    (h : (decide a autotune).isSilence = true) : a.best = none := by
  have hact : ∀ policy best reason declined,
      (act policy best reason declined).isSilence = false := by
    intro policy best reason declined
    cases policy <;> cases declined <;> rfl
  unfold decide at h
  split at h
  · cases h
  · next hbest => exact hbest
  · dsimp only at h
    split at h
    · rw [hact] at h
      cases h
    · split_ifs at h
      · cases h
      · cases h
      · cases h
      · rw [hact] at h
        cases h

/-- The server that the report of a pass is about to leave the tunnel on: the best of the ranking
that the pass stored, where it moved there, or the one that it proposes. -/
def TuneReport.TakesUp (report : TuneReport) (w : World P) (b : RankedServer) : Prop :=
  (report.switched = true ∧ w.state.lastRanking.head? = some b ∧
      ∃ c, w.state.current = some c ∧ eqIgnoreAsciiCase c.server b.name = true) ∨
    report.pending.map PendingSwitch.target = some b

/-! ### What leaves the stored ranking as it is -/

def ShowsSame (w w' : World P) : Prop := w'.state.lastRanking = w.state.lastRanking

instance : IsPreorder (World P) ShowsSame where
  refl _ := rfl
  trans _ _ _ h₁ h₂ := h₂.trans h₁

theorem showsSame_of_fetches {x : Daemon P α} (h : Within Fetches x) : Within ShowsSame x :=
  h.mono fun _ _ => Fetches.lastRanking

theorem switch_showsSame (name : String) :
    Within ShowsSame (switch name : Daemon P RankedServer) := by
  refine Within.bind (Within.read _) fun s => Within.ite (Within.fail _) ?_
  refine Within.bind ?_ fun chosen => Within.bind ?_ fun _ =>
    Within.bind (Within.update fun _ => rfl) fun _ => Within.pure _
  · exact probeNamed_within (showsSame_of_fetches serverList_fetches)
      (showsSame_of_fetches now_fetches) (fun _ => rfl) name
  · exact (retarget_steers chosen).mono fun w w' h => by
      rw [ShowsSame, h.state]

/-! ### The report of a decision -/

/-- Recording a decision reports it, and a proposal only where it is one. -/
theorem record_run (decision : Tuner.Decision) (w : World P) : ∃ report w',
    record decision w = (.ok report, w') ∧ report.switched = decision.isActionable ∧
      report.nothingReachable = decision.isSilence ∧
      (report.pending.map PendingSwitch.target =
        if decision.isActionable then none else decision.taken) ∧
      w'.state.lastRanking = w.state.lastRanking ∧ w'.state.current = w.state.current := by
  cases decision <;> exact ⟨_, _, rfl, rfl, rfl, rfl, rfl, rfl⟩

/-- A decision that neither moves nor proposes takes nothing up. -/
theorem record_takesNothing {decision : Tuner.Decision} {w w' : World P} {report : TuneReport}
    (htaken : decision.taken = none) (h : record decision w = (.ok report, w')) (b : RankedServer) :
    ¬report.TakesUp w' b := by
  obtain ⟨report', w'', hrun, hswitched, -, hpending, -⟩ := record_run decision w
  cases h.symm.trans hrun
  have hactionable : decision.isActionable = false := by
    cases decision <;> first | rfl | cases htaken
  rw [hactionable, if_neg Bool.false_ne_true, htaken] at hpending
  rintro (⟨htrue, _⟩ | hsome)
  · rw [hswitched, hactionable] at htrue
    cases htrue
  · rw [hpending] at hsome
    cases hsome

/-- Following a decision and recording it takes up the server that it moves to or proposes. -/
theorem follow_takesUp {decision : Tuner.Decision} {w w' : World P} {report : TuneReport}
    (hbest : ∀ b, decision.taken = some b → w.state.lastRanking.head? = some b)
    (h : (do followDecision decision; record decision : Daemon P TuneReport) w = (.ok report, w')) :
    report.nothingReachable = decision.isSilence ∧
      ∀ b, report.TakesUp w' b ↔ decision.taken = some b := by
  cases hactionable : decision.isActionable with
  | false =>
    rw [followDecision, hactionable] at h
    obtain ⟨report', w'', hrun, hswitched, hsilence, hpending, -⟩ := record_run decision w
    cases h.symm.trans hrun
    rw [hactionable, if_neg Bool.false_ne_true] at hpending
    refine ⟨hsilence, fun b => ?_⟩
    unfold TuneReport.TakesUp
    rw [hswitched, hactionable, hpending]
    simp
  | true =>
    obtain ⟨target, reason, rfl⟩ := Tuner.Decision.isActionable_iff.mp hactionable
    obtain ⟨_, v, hfollow, h⟩ := bind_ok h
    obtain ⟨chosen, v', hswitch, hv⟩ := bind_ok hfollow
    cases hv
    obtain ⟨report', w'', hrun, hswitched, hsilence, hpending, hlast, hcurrent⟩ :=
      record_run (.switch target reason) v
    cases h.symm.trans hrun
    obtain ⟨u, hprobe, hmoved, -⟩ := switch_records hswitch
    obtain ⟨list, _, server, -, hget, hplace⟩ := probeNamed_ok hprobe
    have hname : eqIgnoreAsciiCase chosen.name target.name = true := by
      rw [show chosen.name = server.name from congrArg Prod.fst hplace]
      exact ServerList.get_name hget
    have hhead : w'.state.lastRanking.head? = some target := by
      rw [hlast, (switch_showsSame _).run hswitch]
      exact hbest target rfl
    refine ⟨hsilence, fun b => ?_⟩
    unfold TuneReport.TakesUp
    rw [hswitched, hpending, hhead, hcurrent, hmoved]
    constructor
    · rintro (⟨-, hb, -⟩ | hb)
      · exact hb
      · cases hb
    · intro hb
      cases hb
      exact .inl ⟨rfl, rfl, _, rfl, hname⟩

/-! ### The report of a pass -/

/-- How a pass that reports came to it, from the time of the server in use. -/
inductive Passed (current : Connection) (rtt : Option F64) (v w' : World P) (report : TuneReport) :
    Prop where
  /-- The server in use was fast. -/
  | fast (hfast : v.state.isFast rtt = true) (hanswered : report.nothingReachable = false)
    (hnone : ∀ b, ¬report.TakesUp w' b)
  /-- No server answered the sweep. -/
  | silent (probed : Nat) (u : World P) (hslow : v.state.isFast rtt = false)
    (hsweep : sweep none v = (.error (.allUnreachable probed), u))
    (hsilent : report.nothingReachable = true) (hnone : ∀ b, ¬report.TakesUp w' b)
  /-- The report is that of the decision on what was assessed. -/
  | decided (ranked : List RankedServer) (u x : World P) (a : Tuner.Assessment)
    (hslow : v.state.isFast rtt = false) (hsweep : sweep none v = (.ok ranked, u))
    (hassess : assess current rtt ranked u = (.ok a, x))
    (hsilence : report.nothingReachable = (Tuner.decide a v.state.config.autotune).isSilence)
    (htaken : ∀ b, report.TakesUp w' b ↔ (Tuner.decide a v.state.config.autotune).taken = some b)

theorem tune_passed {current : Connection} {rtt : Option F64} {w v w' : World P}
    {report : TuneReport} (hcurrent : w.state.current = some current)
    (hprobe : probeCurrent current.server w = (.ok rtt, v))
    (hrun : tune w = (.ok report, w')) : Passed current rtt v w' report := by
  cases hfast : v.state.isFast rtt with
  | true =>
    obtain ⟨rttMs, rfl, _⟩ := (Option.any_eq_true _ _).mp hfast
    rw [tune_fast hcurrent hprobe hfast] at hrun
    obtain ⟨report', w'', hrun', -, hsilence, -⟩ := record_run (.healthy current.server rttMs) v
    cases hrun.symm.trans hrun'
    exact .fast hfast hsilence (record_takesNothing rfl hrun)
  | false =>
    rw [tune_slow hcurrent hprobe hfast] at hrun
    rcases hsweep : sweep none v with ⟨e | ranked, u⟩
    · rw [tuneDegraded, attempt_bind, hsweep] at hrun
      cases e with
      | allUnreachable probed =>
        obtain ⟨report', w'', hrun', -, hsilence, -⟩ := record_run (.nothingReachable probed) u
        cases hrun.symm.trans hrun'
        exact .silent probed u hfast hsweep hsilence (record_takesNothing rfl hrun)
      | _ => cases hrun
    · obtain ⟨probed, declinedFrom, hassess, hdecided⟩ := tuneDegraded_swept current rtt hsweep
      rw [hdecided] at hrun
      have hswept := (sweep_measures none).run hsweep
      obtain ⟨_, _, _, -, -, hstored, -⟩ := sweep_ok hsweep
      have hkept := (assess_fetches current rtt ranked).run hassess
      rw [hswept.config] at hrun
      have hfollow := follow_takesUp (fun b hb => ?_) hrun
      · exact .decided ranked u _ _ hfast hsweep hassess hfollow.1 hfollow.2
      · rw [hkept.lastRanking, hstored]
        exact Tuner.decide_target (Tuner.Decision.target_of_taken hb)

end Vpnmgr
