import Vpnmgr.Daemon.Dismissal
import Vpnmgr.Daemon.Pass
import Vpnmgr.Daemon.Scores
import Vpnmgr.Daemon.Targets

/-! A pass measures the server in use twice: all of its entries for the time it is judged by, and all
but the connected one for the score that the others are compared with. Where its other entries are
slower, the pass moves to a server that it measured as worse. -/

namespace Vpnmgr

open Ieee Stateful Stateful.Action

variable {P : Platform} {reply : SocketAddr → Option Duration} {list : ServerList}
  {current : Connection} {rttMs : F64}

namespace Tuner

/-- What a decision takes up from a server that answered: the best of the assessment, where it is
compared, improves by the threshold, and the policy is to move or to ask and nobody declined. -/
theorem taken_iff {a : Assessment} {autotune : Autotune} {current : Current} {best : RankedServer}
    (hcurrent : a.current = some current) (hrtt : current.rttMs = some rttMs) :
    (decide a autotune).taken = some best ↔ Compared a autotune current rttMs best ∧
      ¬improvement current rttMs best < autotune.improvementThreshold ∧
      (autotune.switchPolicy = .auto ∨
        autotune.switchPolicy = .ask ∧ a.declinedFrom ≠ some current.name) := by
  have hact : ∀ policy reason declined, (act policy best reason declined).taken = some best ↔
      policy = .auto ∨ policy = .ask ∧ declined = false := by
    intro policy reason declined
    cases policy <;> cases declined <;> simp [act, Decision.taken]
  have hdeclined : (a.declinedFrom == some current.name) = false ↔
      a.declinedFrom ≠ some current.name := by simp
  constructor
  · intro h
    obtain ⟨hcompared, hgain⟩ := compared_of_target hcurrent hrtt (Decision.target_of_taken h)
    rw [hcompared.decide, if_neg hgain, hact, hdeclined] at h
    exact ⟨hcompared, hgain, h⟩
  · rintro ⟨hcompared, hgain, hpolicy⟩
    rw [hcompared.decide, if_neg hgain, hact, hdeclined]
    exact hpolicy

end Tuner

/-- No better than the server in use, as the list has it, that answered in the time given. -/
def RankedServer.NoBetter (b : RankedServer) (list : ServerList) (current : Connection)
    (rttMs : F64) : Prop :=
  ∃ server, list.get current.server = some server ∧ rttMs ≤ b.rttMs ∧ server.load ≤ b.load ∧
    b.headroomMbps ≤ server.headroomMbps

/-- The clock as the pass that begins in `w` reads it to judge a dismissal. -/
def World.judges (w : World P) (current : Connection) : Instant :=
  (after (do
    let _ ← probeCurrent current.server
    let _ ← sweep none
    now : Daemon P Instant) w).clock

/-- The policy is to move, or to ask and the user has not declined to leave this server lately. -/
def World.MayTakeUp (w : World P) (current : Connection) : Prop :=
  w.state.config.autotune.switchPolicy = .auto ∨
    w.state.config.autotune.switchPolicy = .ask ∧
      w.state.declinedFrom (w.judges current) ≠ some current.server

namespace State

/-- The server in use as a pass sees it: the time is from a probe of all its entries, and the score
from a sweep that leaves out the connected one. -/
def seen (s : State P) (reply : SocketAddr → Option Duration) (list : ServerList)
    (current : Connection) (rttMs : F64) : Tuner.Current where
  name := current.server
  rttMs := some rttMs
  score := ((s.rankedBy (s.prober.heard reply) list).find? fun r =>
    r.server.name = current.server).map Scored.score

/-- The first of the sweep is no better than the server in use, and improves on its score, or on its
time where it has no score, by the threshold. -/
structure Lures (s : State P) (reply : SocketAddr → Option Duration) (list : ServerList)
    (current : Connection) (rttMs : F64) (best : Scored) : Prop where
  first : (s.rankedBy (s.prober.heard reply) list).head? = some best
  slow : ¬rttMs ≤ F64.ofNat s.config.autotune.maxLatencyMs
  other : best.server.name ≠ current.server
  noBetter : (s.toRanked 0 best).NoBetter list current rttMs
  gain : ¬Tuner.improvement (s.seen reply list current rttMs) rttMs (s.toRanked 0 best) <
    s.config.autotune.improvementThreshold

theorem toRanked_noBetter {s s' : State P} {t : Instant} {best : Scored} :
    (s'.toRanked t best).NoBetter list current rttMs ↔
      (s.toRanked 0 best).NoBetter list current rttMs := by
  unfold RankedServer.NoBetter
  rfl

theorem lures_congr {s s' : State P} {best : Scored} (hconfig : s'.config = s.config)
    (hcurrent : s'.current = s.current) (hdirect : s'.directMbps = s.directMbps) :
    s'.Lures reply list current rttMs best ↔ s.Lures reply list current rttMs best := by
  have hranked : s'.rankedBy (s.prober.heard reply) list = s.rankedBy (s.prober.heard reply) list :=
    rankedBy_congr hconfig hdirect _
  have hheard : s'.prober.heard reply = s.prober.heard reply := heard_congr hcurrent
  have hseen : s'.seen reply list current rttMs = s.seen reply list current rttMs := by
    rw [seen, seen, hheard, hranked]
  constructor
  · rintro ⟨hfirst, hslow, hother, hworse, hgain⟩
    rw [hheard, hranked] at hfirst
    rw [hconfig] at hslow
    rw [hseen, hconfig] at hgain
    exact ⟨hfirst, hslow, hother, toRanked_noBetter.mp hworse, hgain⟩
  · rintro ⟨hfirst, hslow, hother, hworse, hgain⟩
    refine ⟨?_, ?_, hother, toRanked_noBetter.mpr hworse, ?_⟩
    · rw [hheard, hranked]; exact hfirst
    · rw [hconfig]; exact hslow
    · rw [hseen, hconfig]; exact hgain

end State

/-- A pass that sweeps an unchanging network ranks what its prober hears. -/
theorem sweep_fixed {w v : World P} {ranked : List RankedServer} (hw : w.FixedBy reply list)
    (hsamples : 0 < w.state.config.probe.samples) (h : sweep none w = (.ok ranked, v)) :
    ∃ t, ranked = (w.state.rankedBy (w.state.prober.heard reply) list).map (w.state.toRanked t) := by
  obtain ⟨list', _, t, hlist, hranked, -⟩ := sweep_ok h
  obtain ⟨_, hfixed, -⟩ := serverList_fixed hw
  cases hlist.symm.trans hfixed
  rw [State.ranks_fixed (hw.network 0) hsamples] at hranked
  exact ⟨t, hranked⟩

/-- Where the sweep fails nothing is ranked. -/
theorem sweep_fixed_error {w v : World P} {e : Error} (hw : w.FixedBy reply list)
    (hsamples : 0 < w.state.config.probe.samples) (h : sweep none w = (.error e, v)) :
    w.state.rankedBy (w.state.prober.heard reply) list = [] := by
  obtain ⟨_, hlist, -⟩ := serverList_fixed hw
  have hsilent := (sweep_error h).2 list (by rw [hlist])
  have hnone : w.state.ranks (w.outside.network 0) none list 0 = [] := by
    rw [List.eq_nil_iff_forall_not_mem]
    intro r hr
    obtain ⟨m, hm, hsome, -⟩ := State.ranks_place hr
    rw [hsilent m hm] at hsome
    cases hsome
  rw [State.ranks_fixed (hw.network 0) hsamples] at hnone
  exact List.map_eq_nil_iff.mp hnone

/-- What the pass assesses of an unchanging network is compared as the state foresees it. -/
theorem compared_iff {s : State P} {t : Instant} {probed : Nat} {declinedFrom : Option String}
    {a : Tuner.Assessment} (ha : a = assessed current (some rttMs)
      ((s.rankedBy (s.prober.heard reply) list).map (s.toRanked t)) probed declinedFrom)
    (b : RankedServer) :
    (∃ seen, a.current = some seen ∧ Tuner.Compared a s.config.autotune seen rttMs b ∧
        ¬Tuner.improvement seen rttMs b < s.config.autotune.improvementThreshold) ∧
      b.NoBetter list current rttMs ↔
    ∃ best, s.Lures reply list current rttMs best ∧ b = s.toRanked t best := by
  have hscore : (((s.rankedBy (s.prober.heard reply) list).map (s.toRanked t)).find? fun r =>
      r.name = current.server).map RankedServer.score =
      (s.seen reply list current rttMs).score := by
    rw [List.find?_map, Option.map_map]
    rfl
  subst ha
  constructor
  · rintro ⟨⟨seen, hseen, hcompared, hgain⟩, hworse⟩
    have hfirst := hcompared.first
    simp only [assessed, List.head?_map, Option.map_eq_some_iff] at hfirst
    obtain ⟨best, hbest, rfl⟩ := hfirst
    have heq : seen = s.seen reply list current rttMs := by
      rw [← Option.some.inj hseen, hscore]
      rfl
    subst heq
    exact ⟨best, ⟨hbest, hcompared.slow, hcompared.other, State.toRanked_noBetter.mp hworse, hgain⟩,
      rfl⟩
  · rintro ⟨best, ⟨hfirst, hslow, hother, hworse, hgain⟩, rfl⟩
    refine ⟨⟨s.seen reply list current rttMs, ?_, ⟨?_, ?_, rfl, hslow, hother⟩, hgain⟩,
      State.toRanked_noBetter.mpr hworse⟩
    · rw [assessed, hscore]
      rfl
    · rw [assessed, hscore]
      rfl
    · rw [assessed, List.head?_map, hfirst]
      rfl

theorem assess_clock {rtt : Option F64} {ranked : List RankedServer} {a : Tuner.Assessment}
    {w x : World P} (h : assess current rtt ranked w = (.ok a, x)) :
    w.state.declinedFrom x.clock = w.state.declinedFrom (after now w).clock := by
  cases hdismissed : w.state.dismissed with
  | none => rw [State.declinedFrom, State.declinedFrom, hdismissed]; rfl
  | some dismissed =>
    simp [assess, activeDismissal, self, hdismissed, bind_run, elapsed, now] at h
    obtain ⟨-, rfl⟩ := h
    rfl

theorem World.judges_eq {rtt : Option F64} {ranked : List RankedServer} {w v u : World P}
    (hprobe : probeCurrent current.server w = (.ok rtt, v))
    (hsweep : sweep none v = (.ok ranked, u)) : w.judges current = (after now u).clock := by
  rw [World.judges, after, bind_run_ok hprobe, bind_run_ok hsweep]
  rfl

/-- A server no faster than the one in use makes no improvement on its time. -/
theorem improvement_slower {seen : Tuner.Current} {r q : ℚ} {best : RankedServer}
    (hscore : seen.score = none) (hbest : best.rttMs = .finite q) (h : r ≤ q) :
    Tuner.improvement seen (.finite r) best = 0 := by
  rw [Tuner.improvement, hscore]
  simp only [F64.epsilon, F64.finite_le]
  split
  · rfl
  · next hpos =>
    have hr : 0 < r := lt_trans (by positivity) (not_le.mp hpos)
    rw [hbest, F64.finite_sub, F64.finite_div _ hr.ne']
    refine (F64.finite_max _ 0).trans (congrArg F64.finite (max_eq_right ?_))
    exact div_nonpos_of_nonpos_of_nonneg (sub_nonpos.mpr h) hr.le

/-- A sweep that finds the server in use no slower than its own probe did, or not at all, lures the
pass to no server that is no better, whatever the positive threshold. -/
theorem State.steady_unlured {s : State P} {r : ℚ} {best : Scored}
    (hweights : s.scoring.weights.Positive) (htarget : 0 < s.scoring.headroomTargetMbps)
    (hthreshold : 0 < s.config.autotune.improvementThreshold)
    (hsteady : ∀ scored, (s.rankedBy (s.prober.heard reply) list).find?
        (fun r => r.server.name = current.server) = some scored →
      list.get current.server = some scored.server ∧ scored.rtt.asSecsF64 * 1000 ≤ .finite r) :
    ¬s.Lures reply list current (.finite r) best := by
  rintro ⟨hfirst, -, -, ⟨server, hserver, hrtt, hload, hheadroom⟩, hgain⟩
  have hbest : (s.toRanked 0 best).rttMs = .finite (millis best.rtt) := millis_eq best.rtt
  have hle : r ≤ millis best.rtt := by
    rw [hbest] at hrtt
    exact F64.finite_le.mp hrtt
  refine hgain ?_
  have hzero : Tuner.improvement (s.seen reply list current (.finite r)) (.finite r)
      (s.toRanked 0 best) = 0 := by
    cases hscored : (s.rankedBy (s.prober.heard reply) list).find?
        fun r => r.server.name = current.server with
    | none => exact improvement_slower (by rw [seen, hscored]; rfl) hbest hle
    | some scored =>
      have hscore : (s.seen reply list current (.finite r)).score = some scored.score := by
        rw [seen, hscored]
        rfl
      obtain ⟨hget, hsecond⟩ := hsteady scored hscored
      cases hserver.symm.trans hget
      rw [millis_eq, F64.finite_le] at hsecond
      obtain ⟨m, -, d, -, rfl⟩ := mem_rank (List.mem_of_find?_eq_some hscored)
      obtain ⟨m', -, d', -, rfl⟩ := mem_rank (List.mem_of_head? hfirst)
      have hdominates : Dominates m.server d m'.server d' :=
        ⟨millis_le.mp (hsecond.trans hle), hload, hheadroom⟩
      rw [Tuner.improvement, hscore]
      exact if_pos (scored_mono hweights htarget P.log _ hdominates)
  rw [hzero]
  exact hthreshold

namespace Sample

/-- The connected entry of the first server takes 100 ms and its other one 2 s; the only entry of the
second server takes 150 ms. -/
def unevenReply (a : SocketAddr) : Option Duration :=
  if a.ip = .v4 0x0a000001 then some (.ofMillis 100)
  else if a.ip = .v4 0x0a000002 then some (.ofMillis 150)
  else if a.ip = .v4 0x0a000003 then some (.ofMillis 2000)
  else none

def unevenList : ServerList :=
  ⟨[server "Achernar" "nl" 0x0a000001 (some 0x0a000003), server "Bellatrix" "nl" 0x0a000002 none]⟩

def unevenStart : World (.linux log) :=
  world config linuxMachine (outside config unevenList unevenReply linuxFaults)

def uneven : World (.linux log) := step unevenStart (.connect (some "Achernar") none)

theorem uneven_reachable : Reachable uneven :=
  ⟨unevenStart, world_starts config_valid rfl _ _, .next .here trivial⟩

theorem uneven_fixed : uneven.FixedBy unevenReply unevenList :=
  (connect_tunes _ _ _).fixed ⟨fun _ => network_fixed _, fun _ _ h => (nomatch h), fun _ => .inl rfl⟩

end Sample

end Vpnmgr
