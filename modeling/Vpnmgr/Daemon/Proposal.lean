import Vpnmgr.Daemon.Schedule

/-! A pending proposal is about the connection as it is: it names another server than the one in use,
and nothing has happened to the connection since it was raised. It stays so in every run in which
nothing moves the connection under a proposal, and no pass proposes the server in use. -/

namespace Vpnmgr

open Ieee Stateful Stateful.Action

variable {P : Platform}

/-- A pending proposal names a server other than the one in use, and is the last that happened. -/
def World.Fresh (w : World P) : Prop :=
  ∀ p, w.state.pending = some p → ∃ c, w.state.current = some c ∧ p.1.name ≠ c.server ∧
    w.events.head? = some (.proposed p.1.name)

/-- The connection stays, and so does the proposal unless it is dropped. -/
structure Leaves (w w' : World P) : Prop where
  pending : w'.state.pending = w.state.pending ∨ w'.state.pending = none
  current : w'.state.current = w.state.current
  events : w'.events = w.events

instance : IsPreorder (World P) Leaves where
  refl _ := ⟨.inl rfl, rfl, rfl⟩
  trans _ _ _ h₁ h₂ := by
    refine ⟨?_, h₂.current.trans h₁.current, h₂.events.trans h₁.events⟩
    rcases h₂.pending with h | h
    · exact h₁.pending.imp h.trans h.trans
    · exact .inr h

theorem World.fresh_of_none {w : World P} (h : w.state.pending = none) : w.Fresh := fun p hp => by
  cases h.symm.trans hp

theorem Leaves.fresh {w w' : World P} (h : Leaves w w') (hw : w.Fresh) : w'.Fresh := by
  rcases h.pending with hkept | hnone
  · intro p hp
    rw [h.current, h.events]
    exact hw p (hkept.symm.trans hp)
  · exact World.fresh_of_none hnone

theorem leaves_of_measures (w w' : World P) (h : Measures w w') : Leaves w w' :=
  ⟨.inl h.pending, h.current, h.events⟩

theorem modify_leaves {f : State P → State P}
    (hpending : ∀ s, (f s).pending = s.pending ∨ (f s).pending = none)
    (hcurrent : ∀ s, (f s).current = s.current) : Within Leaves (modify f : Daemon P Unit) :=
  Within.update fun w => ⟨hpending w.state, hcurrent w.state, rfl⟩

theorem now_leaves : Within Leaves (now : Daemon P Instant) :=
  (measures_of_fetches now_fetches).mono leaves_of_measures

theorem reload_leaves : Within Leaves (reload : Daemon P Unit) := by
  refine Within.bind (Within.bind (fun _ => ⟨.inl rfl, rfl, rfl⟩) fun disk => ?_) fun loaded => ?_
  · refine Within.bind (Within.lift _) fun config => ?_
    exact Within.bind (Within.lift _) fun client => Within.pure _
  · refine Within.bind (modify_leaves (fun _ => .inl rfl) fun _ => rfl) fun _ => ?_
    refine modify_leaves (fun s => ?_) fun _ => rfl
    unfold State.applyFiltersToCachedResults
    cases s.pending with
    | none => exact .inl rfl
    | some p =>
      dsimp only [Option.filter]
      split
      · exact .inl rfl
      · exact .inr rfl

theorem dismiss_leaves : Within Leaves (dismiss : Daemon P String) := by
  refine Within.bind (Within.read _) fun s => ?_
  cases s.pending with
  | none => exact Within.fail _
  | some pending =>
    refine Within.bind (modify_leaves (fun _ => .inr rfl) fun _ => rfl) fun _ => ?_
    refine Within.bind (Within.bind (Within.read _) fun s => ?_) fun _ =>
      Within.bind (modify_leaves (fun _ => .inl rfl) fun _ => rfl) fun _ => Within.pure _
    cases s.current with
    | none => exact Within.pure _
    | some current =>
      exact Within.bind now_leaves fun t => modify_leaves (fun _ => .inl rfl) fun _ => rfl

theorem killswitch_leaves (enable : Option Bool) :
    Within Leaves (killswitch enable : Daemon P KillswitchReport) :=
  killswitch_within (fun _ => ⟨.inl rfl, rfl, rfl⟩) (fun _ => ⟨.inl rfl, rfl, rfl⟩)
    (fun _ _ => ⟨.inl rfl, rfl, rfl⟩) (fun _ => modify_leaves (fun _ => .inl rfl) fun _ => rfl) enable

/-! ### Operations that move the connection -/

/-- The server is probed, and the backend moves the tunnel to it. -/
def World.SwitchGoes (w : World P) (name : String) : Prop :=
  ∃ chosen v tunnel, probeNamed name w = (.ok chosen, v) ∧ w.state.tunnel = some tunnel ∧
    (P.switchEndpoint (w.state.spec chosen) (w.outside.faults.switches 0)
      (tunnel, w.machine)).1.isOk = true

/-- A switch that fails leaves the connection and the proposal. -/
theorem switch_error {name : String} {e : Error} {w w' : World P}
    (h : switch name w = (.error e, w')) : Leaves w w' := by
  rcases bind_error h with h | ⟨_, _, hself, h⟩
  · cases h
  cases hself
  split at h
  · cases h
    exact refl_of Leaves w
  rcases bind_error h with h | ⟨chosen, v, hprobe, h⟩
  · exact leaves_of_measures _ _ ((probeNamed_samples _).run h).toMeasures
  have hprobed := leaves_of_measures _ _ ((probeNamed_samples _).run hprobe).toMeasures
  rcases bind_error h with h | ⟨_, _, _, h⟩
  · rcases retarget_cases h with ⟨_, _, rfl⟩ | ⟨_, _, _, _, _, _, hstate, hevents⟩ | ⟨_, _, _, _, hr, _⟩
    · exact hprobed
    · refine trans_of Leaves hprobed ⟨.inl ?_, ?_, hevents⟩ <;> rw [hstate]
    · cases hr
  · cases h

theorem switch_ok {name : String} {chosen : RankedServer} {w w' : World P}
    (h : switch name w = (.ok chosen, w')) : w.SwitchGoes name := by
  obtain ⟨_, _, hself, h⟩ := bind_ok h
  cases hself
  split at h
  · cases h
  obtain ⟨chosen, v, hprobe, h⟩ := bind_ok h
  have hmeasures := ((probeNamed_samples _).run hprobe).toMeasures
  obtain ⟨_, u, hretarget, _⟩ := bind_ok h
  rcases retarget_cases hretarget with ⟨_, hr, _⟩ | ⟨_, _, _, _, _, hr, _⟩ |
    ⟨tunnel, tunnel', ht, hswitch, _⟩
  · cases hr
  · cases hr
  · have hspec : v.state.spec chosen = w.state.spec chosen := by
      rw [State.spec, State.spec, hmeasures.client]
    rw [hmeasures.tunnel] at ht
    rw [hspec, hmeasures.faults, hmeasures.machine] at hswitch
    exact ⟨chosen, v, tunnel, hprobe, ht, by rw [hswitch]; rfl⟩

/-- What moves the connection drops no proposal, so it leaves a fresh one only where there is none. -/
theorem operates_fresh {w w' : World P} (h : Operates w w') (hnone : w.state.pending = none) :
    w'.Fresh :=
  World.fresh_of_none (h.pending.trans hnone)

/-- Under a proposal something is connected, and `connect` does nothing. -/
theorem connect_fresh {server : Option String} {measureFirst : Option Bool} {w : World P}
    (hw : w.Fresh) : (after (connect server measureFirst) w).Fresh := by
  cases hpending : w.state.pending with
  | none => exact operates_fresh (connect_operates _ _ w) hpending
  | some p =>
    obtain ⟨c, hc, _⟩ := hw p hpending
    have hkept : connect server measureFirst w = (.error (.alreadyConnected c.server), w) := by
      rw [connect, self, read_bind, hc]
      rfl
    rw [after, hkept]
    exact hw

/-- Approving a proposal drops it before the connection moves. -/
theorem approve_fresh (w : World P) : (after approve w).Fresh := by
  have hrun : (approve : Daemon P RankedServer) w = match w.state.pending with
      | none => (.error .noPendingSwitch, w)
      | some p => (do
          let moved ← switch p.1.name
          modify fun s => { s with lastTune := some ("switched to " ++ moved.name ++ " on approval") }
          pure moved : Daemon P RankedServer)
            { w with state := { w.state with pending := none } } := by
    rw [approve, self, read_bind]
    cases w.state.pending <;> rfl
  rw [after, hrun]
  cases hpending : w.state.pending with
  | none => exact World.fresh_of_none hpending
  | some p =>
    refine operates_fresh (Within.bind_at (switch_operates _ _) fun moved v _ => ?_) rfl
    exact ⟨rfl, rfl, rfl, Nat.le_refl _⟩

/-- Where the tunnel cannot be measured, `baseline` stops before it is taken down. -/
theorem baseline_leaves {w : World P} {reason : String}
    (hfails : w.outside.download 0 w.state.throughputRequest = .error reason) :
    Leaves w (after baseline w) := by
  rw [baseline, after, self, read_bind]
  cases w.state.current with
  | none => exact leaves_of_measures _ _ (speedtest_samples w).toMeasures
  | some current =>
    have hmeasure : measure w.state.throughputRequest w =
        (.error (.throughput reason), (nextDownload w).2) := by
      simp [measure, nextDownload, draw, bind_run, hfails, Except.mapError]
    have hleaves := leaves_of_measures _ _ (measure_samples w.state.throughputRequest w).toMeasures
    refine Within.bind_at hleaves fun tunnelled v hrun => ?_
    cases hmeasure.symm.trans hrun

/-! ### The pass -/

/-- Recording a decision leaves no proposal but its own. -/
theorem record_fresh {decision : Tuner.Decision} {w : World P}
    (h : ∀ target reason, decision = .propose target reason →
      ∃ c, w.state.current = some c ∧ target.name ≠ c.server) :
    (after (record decision) w).Fresh := by
  have hset : (after (setPending decision) w).Fresh := by
    cases decision with
    | propose target reason =>
      intro p hp
      obtain ⟨c, hc, hother⟩ := h target reason rfl
      cases hp
      exact ⟨c, hc, hother, rfl⟩
    | _ => exact World.fresh_of_none rfl
  have hrest := record_within (R := Leaves) (fun _ _ h => leaves_of_measures _ _ h.toMeasures)
    (fun _ => modify_leaves (fun _ => .inl rfl) fun _ => rfl) decision w
  exact hrest.fresh hset

theorem followDecision_error {decision : Tuner.Decision} {e : Error} {w w' : World P}
    (h : followDecision decision w = (.error e, w')) : Leaves w w' := by
  cases decision with
  | switch target reason =>
    rcases bind_error h with h | ⟨_, _, _, h⟩
    · exact switch_error h
    · cases h
  | _ => cases h

/-- The part of a pass that sweeps proposes no server but one of another name, if its ranking does
not begin with the server in use where that one is silent. -/
theorem tuneDegraded_fresh {current : Connection} {currentRtt : Option F64} {w : World P}
    (hcurrent : w.state.current = some current) (hw : w.Fresh)
    (hother : w.state.config.autotune.switchPolicy = .ask → currentRtt = none →
      ∀ best rest v, sweep none w = (.ok (best :: rest), v) → best.name ≠ current.server) :
    (after (tuneDegraded current currentRtt) w).Fresh := by
  have hmeasures := sweep_measures none w
  rcases h : sweep none w with ⟨e | ranked, v⟩
  · rw [h] at hmeasures
    rw [after, tuneDegraded, attempt_bind, h]
    cases e with
    | allUnreachable probed => exact record_fresh (by rintro _ _ ⟨⟩)
    | _ => exact (leaves_of_measures _ _ hmeasures).fresh hw
  · rw [h] at hmeasures
    obtain ⟨_, _, -, hrun⟩ := tuneDegraded_swept current currentRtt h
    have hfetches : Fetches v (after (assess current currentRtt ranked) v) := assess_fetches _ _ _ v
    generalize after (assess current currentRtt ranked) v = u at hfetches hrun
    have hswept := hmeasures.trans hfetches.toMeasures
    rw [after, hrun]
    dsimp only
    generalize hdecision : Tuner.decide _ _ = decision
    rcases hfollow : followDecision decision u with ⟨e | _, v'⟩
    · rw [bind_run_error hfollow]
      exact (followDecision_error hfollow).fresh ((leaves_of_measures _ _ hswept).fresh hw)
    · rw [bind_run_ok hfollow]
      refine record_fresh fun best reason hpropose => ?_
      subst hpropose
      obtain ⟨hask, hsilent⟩ := Tuner.decide_propose rfl hdecision
      cases hfollow
      refine ⟨current, hswept.current.trans hcurrent, ?_⟩
      rcases hsilent with hsilent | hother'
      · have hbest : ranked.head? = some best :=
          Tuner.decide_target (congrArg Tuner.Decision.target hdecision)
        obtain ⟨rest, rfl⟩ := List.head?_eq_some_iff.mp hbest
        exact hother (hmeasures.config ▸ hask) hsilent best rest v h
      · exact hother'

/-- The pass is under the policy to ask, hears nothing of the server in use where that is asked for
alone, and yet ranks it first. -/
def World.RaisesCurrent (w : World P) : Prop :=
  w.state.config.autotune.switchPolicy = .ask ∧ ∃ c v best rest v', w.state.current = some c ∧
    probeCurrent c.server w = (.ok none, v) ∧ sweep none v = (.ok (best :: rest), v') ∧
    best.name = c.server

theorem tune_fresh {w : World P} (hw : w.Fresh) (hother : ¬w.RaisesCurrent) :
    (after tune w).Fresh := by
  cases hcurrent : w.state.current with
  | none =>
    have hrun : tune w = record .notConnected w := by rw [tune, self, read_bind, hcurrent]
    rw [after, hrun]
    exact record_fresh (by rintro _ _ ⟨⟩)
  | some current =>
    have hprobed := probeCurrent_samples current.server w
    rcases hprobe : probeCurrent current.server w with ⟨e | currentRtt, v⟩
    · have hrun : tune w = (.error e, v) := by
        rw [tune, self, read_bind, hcurrent]
        exact bind_run_error hprobe
      rw [hprobe] at hprobed
      rw [after, hrun]
      exact (leaves_of_measures _ _ hprobed.toMeasures).fresh hw
    · rw [hprobe] at hprobed
      have hmeasures := hprobed.toMeasures
      cases hfast : v.state.isFast currentRtt with
      | true =>
        obtain ⟨rttMs, rfl, _⟩ := (Option.any_eq_true _ _).mp hfast
        rw [after, tune_fast hcurrent hprobe hfast]
        exact record_fresh (by rintro _ _ ⟨⟩)
      | false =>
        rw [after, tune_slow hcurrent hprobe hfast]
        refine tuneDegraded_fresh (hmeasures.current.trans hcurrent)
          ((leaves_of_measures _ _ hmeasures).fresh hw) fun hask hsilent best rest v' hsweep => ?_
        subst hsilent
        intro hsame
        rw [hmeasures.config] at hask
        exact hother ⟨hask, current, v, best, rest, v', hcurrent, hprobe, hsweep, hsame⟩

theorem autotune_fresh {w : World P} (hw : w.Fresh) (hother : ¬w.noted.RaisesCurrent) :
    (after autotune w).Fresh := by
  have hnoted : (autotune : Daemon P TuneReport) w = tune w.noted := rfl
  rw [after, hnoted]
  exact tune_fresh (fun p hp => hw p hp) hother

/-! ### Runs -/

/-- The request moves the connection, or stops in doing so. -/
def World.Disturbs (w : World P) : Op → Prop
  | .switch name => w.SwitchGoes name
  | .disconnect => True
  | .baseline confirm =>
    confirm = true ∧ (w.outside.download 0 w.state.throughputRequest).isOk = true
  | _ => False

/-- The pass proposes the server in use. -/
def World.Repeats (w : World P) : Op → Prop
  | .autotune => w.noted.RaisesCurrent
  | .scheduledPass =>
    w.state.timeUntilNextTune (after now w).clock = 0 ∧ (after now w).noted.RaisesCurrent
  | _ => False

/-- No request moves the connection under a proposal, and no pass proposes the server in use. -/
def World.Considerate (w : World P) (op : Op) : Prop :=
  (w.Disturbs op → w.state.pending = none) ∧ ¬w.Repeats op

theorem step_fresh (w : World P) (op : Op) (hop : w.Considerate op) (hw : w.Fresh) :
    (step w op).Fresh := by
  obtain ⟨hundisturbed, hother⟩ := hop
  have hmeasured : ∀ {w' : World P}, Measures w w' → w'.Fresh :=
    fun h => (leaves_of_measures _ _ h).fresh hw
  cases op with
  | connect server measure => exact connect_fresh hw
  | disconnect => exact operates_fresh (disconnect_steers w).operates (hundisturbed trivial)
  | switch server =>
    rcases h : switch server w with ⟨e | chosen, w'⟩
    · rw [step, after, h]
      exact (switch_error h).fresh hw
    · exact operates_fresh (switch_operates _ w) (hundisturbed (switch_ok h))
  | test country => exact hmeasured (sweep_measures _ w)
  | servers country limit all => exact hmeasured (servers_fetches _ _ _ w).toMeasures
  | reload => exact (reload_leaves w).fresh hw
  | autotune => exact autotune_fresh hw hother
  | approve => exact approve_fresh w
  | dismiss => exact (dismiss_leaves w).fresh hw
  | speedtest => exact hmeasured (speedtest_samples w).toMeasures
  | baseline confirm =>
    cases confirm with
    | false => exact hw
    | true =>
      cases hdownload : w.outside.download 0 w.state.throughputRequest with
      | error reason => exact (baseline_leaves hdownload).fresh hw
      | ok sample =>
        have hnone := hundisturbed ⟨rfl, by rw [hdownload]; rfl⟩
        exact operates_fresh (baseline_operates w) hnone
  | killswitch enable => exact (killswitch_leaves _ w).fresh hw
  | scheduledPass =>
    rw [step, after, scheduledPass_run, World.passBegins]
    by_cases hdue : w.state.timeUntilNextTune (after now w).clock = 0
    · rw [if_pos hdue]
      exact autotune_fresh ((now_leaves w).fresh hw) fun hraises => hother ⟨hdue, hraises⟩
    · rw [if_neg hdue]
      exact (now_leaves w).fresh hw

/-- Wherever a run leads in which nothing moves the connection under a proposal and no pass proposes
the server in use, a pending proposal is about the connection as it is. -/
theorem reachable_fresh {w : World P} (h : ReachableBy World.Considerate w) : w.Fresh := by
  refine h.holds (fun start hs => World.fresh_of_none ?_) step_fresh
  obtain ⟨disk, config, client, _, _, hloaded⟩ := hs.loads
  rw [hloaded]
  rfl

namespace Sample

/-- The replies of two servers, the first of them over the latency limit. -/
def slowReply (a : SocketAddr) : Option Duration :=
  if a.ip = .v4 0x0a000001 then some (.ofMillis 300)
  else if a.ip = .v4 0x0a000002 then some (.ofMillis 20)
  else none

def slowStart : World (.linux log) :=
  world config linuxMachine (outside config pairList slowReply linuxFaults)

/-- A daemon that has connected to the slow server of two. -/
def slow : World (.linux log) := step slowStart (.connect (some "Achernar") none)

theorem slowStart_starts : Starts slowStart := world_starts config_valid rfl _ _

end Sample

theorem considerate_pass_fresh : (step Sample.slow .autotune).Fresh ∧
    (step Sample.slow .autotune).state.pending.isSome = true := by
  refine ⟨reachable_fresh ?_, by decide +kernel⟩
  refine ⟨_, Sample.slowStart_starts, .next (.next .here ⟨fun h => h.elim, fun h => h.elim⟩)
    ⟨fun h => h.elim, ?_⟩⟩
  rintro ⟨_, c, v, _, _, _, hcurrent, hprobe, _⟩
  have hserver : Sample.slow.noted.state.current.map Connection.server = some "Achernar" := by
    decide +kernel
  have hanswers : ((probeCurrent "Achernar" Sample.slow.noted).1.toOption.bind id).isSome = true := by
    decide +kernel
  rw [hcurrent, Option.map_some, Option.some.injEq] at hserver
  rw [← hserver, hprobe] at hanswers
  cases hanswers

/-- Disconnecting leaves the proposal of the last pass behind, and so do the other moves. -/
theorem disconnect_leaves_proposal :
    ¬∀ w : World (.linux Sample.log), Reachable w → w.Fresh := by
  intro hfresh
  have hreach : Reachable (step (step Sample.slow .autotune) .disconnect) :=
    ⟨_, Sample.slowStart_starts, .next (.next (.next .here trivial) trivial) trivial⟩
  have hpending : (step (step Sample.slow .autotune) .disconnect).state.pending.isSome = true := by
    decide +kernel
  have hcurrent : (step (step Sample.slow .autotune) .disconnect).state.current = none := by
    decide +kernel
  obtain ⟨p, hp⟩ := Option.isSome_iff_exists.mp hpending
  obtain ⟨c, hc, _⟩ := hfresh _ hreach p hp
  cases hcurrent.symm.trans hc

end Vpnmgr
