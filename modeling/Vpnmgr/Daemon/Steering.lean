import Vpnmgr.Daemon.Requests
import Vpnmgr.Daemon.Frame

/-! What the operations that move the connection leave: the settings, the proposal and the time of
the last pass stay. What holds of whole operations is put together from what holds of their parts. -/

namespace Vpnmgr

open Ieee Stateful Stateful.Action

variable {P : Platform} {α : Type}

/-- Nothing but the connection, the machine, the events and the backend's answers changes. -/
structure Steers (w w' : World P) : Prop where
  state : w'.state = { w.state with tunnel := w'.state.tunnel, current := w'.state.current }
  outside : w'.outside = { w.outside with
    surroundings := w'.outside.surroundings, faults := w'.outside.faults }
  clock : w'.clock = w.clock
  switches : ∀ n, ∃ k, w'.outside.faults.switches n = w.outside.faults.switches k

/-- The settings, the proposal and the time of the last pass stay as they are. -/
structure Operates (w w' : World P) : Prop where
  config : w'.state.config = w.state.config
  pending : w'.state.pending = w.state.pending
  lastTuneAt : w'.state.lastTuneAt = w.state.lastTuneAt
  clock : w.clock ≤ w'.clock

/-- The tunnel, the record of it, and the time of the last pass stay as they are. -/
structure Rests (w w' : World P) : Prop where
  tunnel : w'.state.tunnel = w.state.tunnel
  current : w'.state.current = w.state.current
  machine : w'.machine = w.machine
  faults : w'.outside.faults = w.outside.faults
  lastTuneAt : w'.state.lastTuneAt = w.state.lastTuneAt
  clock : w.clock ≤ w'.clock

instance : IsPreorder (World P) Steers where
  refl _ := ⟨rfl, rfl, rfl, fun n => ⟨n, rfl⟩⟩
  trans _ _ _ h₁ h₂ := by
    refine ⟨?_, ?_, h₂.clock.trans h₁.clock, fun n => ?_⟩
    · rw [h₂.state, h₁.state]
    · rw [h₂.outside, h₁.outside]
    · obtain ⟨k, hk⟩ := h₂.switches n
      obtain ⟨l, hl⟩ := h₁.switches k
      exact ⟨l, hk.trans hl⟩

instance : IsPreorder (World P) Operates where
  refl _ := ⟨rfl, rfl, rfl, Nat.le_refl _⟩
  trans _ _ _ h₁ h₂ :=
    ⟨h₂.config.trans h₁.config, h₂.pending.trans h₁.pending, h₂.lastTuneAt.trans h₁.lastTuneAt,
      h₁.clock.trans h₂.clock⟩

instance : IsPreorder (World P) Rests where
  refl _ := ⟨rfl, rfl, rfl, rfl, rfl, Nat.le_refl _⟩
  trans _ _ _ h₁ h₂ :=
    ⟨h₂.tunnel.trans h₁.tunnel, h₂.current.trans h₁.current, h₂.machine.trans h₁.machine,
      h₂.faults.trans h₁.faults, h₂.lastTuneAt.trans h₁.lastTuneAt, h₁.clock.trans h₂.clock⟩

theorem Steers.operates {w w' : World P} (h : Steers w w') : Operates w w' where
  config := by rw [h.state]
  pending := by rw [h.state]
  lastTuneAt := by rw [h.state]
  clock := h.clock.ge

theorem Measures.operates {w w' : World P} (h : Measures w w') : Operates w w' :=
  ⟨h.config, h.pending, h.lastTuneAt, h.clock⟩

theorem Measures.rests {w w' : World P} (h : Measures w w') : Rests w w' :=
  ⟨h.tunnel, h.current, h.machine, h.faults, h.lastTuneAt, h.clock⟩

theorem operates_of_steers {x : Daemon P α} (h : Within Steers x) : Within Operates x :=
  h.mono fun _ _ => Steers.operates

theorem operates_of_measures {x : Daemon P α} (h : Within Measures x) : Within Operates x :=
  h.mono fun _ _ => Measures.operates

/-! ### Bringing the tunnel up and moving it -/

theorem newTunnel_steers : Within Steers (newTunnel : Daemon P P.Tunnel) := by
  refine Within.bind (Within.read _) fun s => ?_
  refine Within.bind (fun _ => ⟨rfl, rfl, rfl, fun n => ⟨n, rfl⟩⟩) fun fault => ?_
  refine Within.bind (Within.read _) fun machine => ?_
  refine Within.bind (Within.lift _) fun tunnel => ?_
  exact Within.bind (fun _ => ⟨rfl, rfl, rfl, fun n => ⟨n, rfl⟩⟩) fun around => Within.pure _

theorem dropTunnel_steers (tunnel : P.Tunnel) : Within Steers (dropTunnel tunnel) :=
  Within.bind (fun _ => ⟨rfl, rfl, rfl, fun n => ⟨n, rfl⟩⟩) fun _ => Within.update fun _ => ⟨rfl, rfl, rfl, fun n => ⟨n, rfl⟩⟩

theorem call_steers (tunnel : P.Tunnel) (x : Action (P.Tunnel × P.Machine) TunnelError Unit) :
    Within Steers (call tunnel x) := fun _ => ⟨rfl, rfl, rfl, fun n => ⟨n, rfl⟩⟩

theorem emit_steers (e : Event) : Within Steers (emit e : Daemon P Unit) :=
  Within.update fun _ => ⟨rfl, rfl, rfl, fun n => ⟨n, rfl⟩⟩

theorem establish_steers (chosen : RankedServer) :
    Within Steers (establish chosen : Daemon P Unit) := by
  refine Within.bind (Within.read _) fun s => ?_
  refine Within.bind newTunnel_steers fun tunnel => ?_
  refine Within.bind (fun _ => ⟨rfl, rfl, rfl, fun n => ⟨n, rfl⟩⟩) fun fault => ?_
  refine Within.bind (call_steers _ _) fun result => ?_
  obtain ⟨result, tunnel⟩ := result
  cases result with
  | error e => exact Within.bind (dropTunnel_steers _) fun _ => Within.fail _
  | ok => exact Within.bind (Within.update fun _ => ⟨rfl, rfl, rfl, fun n => ⟨n, rfl⟩⟩) fun _ => emit_steers _

theorem retarget_steers (chosen : RankedServer) :
    Within Steers (retarget chosen : Daemon P Unit) := by
  refine Within.bind (Within.read _) fun s => ?_
  cases s.tunnel with
  | none => exact Within.fail _
  | some tunnel =>
    refine Within.bind (fun _ => ⟨rfl, rfl, rfl, fun n => ⟨n + 1, rfl⟩⟩) fun fault => ?_
    refine Within.bind (call_steers _ _) fun result => ?_
    obtain ⟨result, tunnel⟩ := result
    refine Within.bind (Within.update fun _ => ⟨rfl, rfl, rfl, fun n => ⟨n, rfl⟩⟩) fun _ => ?_
    cases result with
    | error e => exact Within.fail _
    | ok => exact emit_steers _

theorem moveTo_steers (chosen : RankedServer) : Within Steers (moveTo chosen : Daemon P Unit) :=
  Within.bind (retarget_steers _) fun _ => Within.update fun _ => ⟨rfl, rfl, rfl, fun n => ⟨n, rfl⟩⟩

theorem pointAt_steers (first : Bool) (candidate : RankedServer) :
    Within Steers (pointAt first candidate : Daemon P Unit) :=
  Within.ite (establish_steers _) (moveTo_steers _)

theorem disconnect_steers : Within Steers (disconnect : Daemon P Unit) := by
  refine Within.bind (Within.read _) fun s => ?_
  cases s.tunnel with
  | none => exact Within.fail _
  | some tunnel =>
    refine Within.bind (Within.update fun _ => ⟨rfl, rfl, rfl, fun n => ⟨n, rfl⟩⟩) fun _ => ?_
    refine Within.bind (fun _ => ⟨rfl, rfl, rfl, fun n => ⟨n, rfl⟩⟩) fun fault => ?_
    refine Within.bind (call_steers _ _) fun result => ?_
    refine Within.bind (Within.update fun _ => ⟨rfl, rfl, rfl, fun n => ⟨n, rfl⟩⟩) fun _ => ?_
    refine Within.bind (emit_steers _) fun _ => ?_
    exact Within.bind (dropTunnel_steers _) fun _ => Within.lift _

/-! ### Whole operations from their parts -/

namespace Sampling

variable {R : World P → World P → Prop} [IsPreorder (World P) R]

theorem tryOut (h : Sampling R) (candidate : RankedServer) (trial : Trial)
    (request : ThroughputRequest) :
    Within R (tryOut candidate trial request : Daemon P (Option F64)) := by
  refine Within.bind (Within.bind (Within.read _) fun _ => Within.pure _) fun carries => ?_
  refine Within.ite ?_ (Within.pure _)
  cases trial.download request with
  | error e => exact Within.pure _
  | ok sample => exact Within.bind (h.recordThroughput _ _) fun _ => Within.pure _

theorem speedtest (h : Sampling R) : Within R (speedtest : Daemon P SpeedReport) := by
  refine Within.bind (Within.read _) fun s => ?_
  refine Within.bind (h.measure _) fun sample => ?_
  cases s.current with
  | none => exact Within.bind (h.recordDirect _) fun _ => Within.pure _
  | some current => exact Within.bind (h.recordThroughput _ _) fun _ => Within.pure _

end Sampling

theorem tryOut_samples (candidate : RankedServer) (trial : Trial) (request : ThroughputRequest) :
    Within Samples (tryOut candidate trial request : Daemon P (Option F64)) :=
  sampling_samples.tryOut candidate trial request

theorem speedtest_samples : Within Samples (speedtest : Daemon P SpeedReport) :=
  sampling_samples.speedtest

theorem servers_fetches (country : Option String) (limit : Option Nat) (all : Bool) :
    Within Fetches (servers country limit all : Daemon P (List ServerSummary)) :=
  Within.bind (Within.read _) fun _ => Within.bind serverList_fetches fun _ => Within.pure _

section Whole

variable {R : World P → World P → Prop} [IsPreorder (World P) R] {allowed : RankedServer → Prop}
  (hsampling : Sampling R)
  (htrial : Within R (nextTrial : Daemon P Trial))
  (hmove : ∀ chosen, allowed chosen → Within R (moveTo chosen : Daemon P Unit))

include hsampling

/-- What follows a candidate that the tunnel was pointed at does no more than measuring it and
trying the rest. -/
theorem tryOut_within {target : F64} {request : ThroughputRequest} {rest : List RankedServer}
    (candidate : RankedServer) (trial : Trial) (best : Option (RankedServer × F64))
    (hrest : ∀ best, Within R (tryCandidates target request false best rest : Daemon P Tried)) :
    Within R (do
      match ← tryOut candidate trial request with
      | none => tryCandidates target request false best rest
      | some mbps =>
        if target ≤ mbps then pure (.settled (candidate.measuredAt mbps))
        else tryCandidates target request false (keepBest best candidate mbps) rest :
          Daemon P Tried) := by
  refine Within.bind (hsampling.tryOut _ _ _) fun rate => ?_
  cases rate with
  | none => exact hrest _
  | some mbps => exact Within.ite (Within.pure _) (hrest _)

include htrial hmove

/-- Trying candidates with the tunnel up does no more than moving it to them and measuring. -/
theorem tryCandidates_within (target : F64) (request : ThroughputRequest)
    (best : Option (RankedServer × F64)) (candidates : List RankedServer)
    (hcandidates : ∀ c ∈ candidates, allowed c) :
    Within R (tryCandidates target request false best candidates : Daemon P Tried) := by
  induction candidates generalizing best with
  | nil => exact Within.pure _
  | cons candidate rest ih =>
    obtain ⟨hcandidate, hrest⟩ := List.forall_mem_cons.mp hcandidates
    refine Within.bind htrial fun trial => Within.bind (hmove _ hcandidate) fun _ => ?_
    exact tryOut_within hsampling _ _ _ fun best => ih best hrest

omit htrial hmove hsampling in
/-- The best that trying candidates leaves is the best before, or one of them. -/
theorem tryCandidates_best {target : F64} {request : ThroughputRequest} {first : Bool}
    {best best' : Option (RankedServer × F64)} {candidates : List RankedServer} {w w' : World P}
    (hcandidates : ∀ c ∈ candidates, allowed c) (hbest : ∀ b, best = some b → allowed b.1)
    (h : tryCandidates target request first best candidates w = (.ok (.best best'), w')) :
    ∀ b, best' = some b → allowed b.1 := by
  induction candidates generalizing first best w with
  | nil =>
    cases h
    exact hbest
  | cons candidate rest ih =>
    obtain ⟨hcandidate, hrest⟩ := List.forall_mem_cons.mp hcandidates
    obtain ⟨trial, _, _, h⟩ := bind_ok h
    obtain ⟨_, _, _, h⟩ := bind_ok h
    obtain ⟨rate, _, _, h⟩ := bind_ok h
    cases rate with
    | none => exact ih hrest hbest h
    | some mbps =>
      dsimp only at h
      split at h
      · cases h
      · refine ih hrest (fun b hb => ?_) h
        unfold keepBest at hb
        split at hb
        · cases hb
          exact hcandidate
        · exact hbest b hb

variable (hsweep : Within R (sweep none : Daemon P (List RankedServer)))
  (hestablish : ∀ chosen w, allowed chosen → w.state.current = none → R w (after (establish chosen) w))

omit htrial hmove in
include hsweep in
theorem rankForConnect_within (measureFirst : Option Bool) :
    Within R (rankForConnect measureFirst : Daemon P (List RankedServer)) :=
  Within.bind (Within.read _) fun _ =>
    Within.bind (hsampling.calibrate _) fun _ => hsweep

include hestablish

omit hsampling htrial in
/-- Settling moves a tunnel that is up, and brings one up only where nothing is connected. -/
theorem settleFor_within (shortlist : List RankedServer) (best : Option (RankedServer × F64))
    (hshortlist : ∀ c ∈ shortlist, allowed c) (hbest : ∀ b, best = some b → allowed b.1) :
    Within R (settleFor shortlist best : Daemon P RankedServer) := by
  cases best with
  | some best =>
    refine Within.bind ?_ fun _ => Within.pure _
    exact Within.bind (Within.read _) fun s => Within.ite (hmove _ (hbest best rfl)) (Within.pure _)
  | none =>
    cases shortlist with
    | nil => exact Within.fail _
    | cons fallback _ =>
      refine Within.bind (fun w => ?_) fun _ => Within.pure _
      rw [ensureUp, self, read_bind]
      split
      · next hnone =>
        exact hestablish _ _ (hshortlist _ List.mem_cons_self) (Option.isNone_iff_eq_none.mp hnone)
      · exact refl_of R w

include hsweep

/-- From a world without a connection, connecting to the best ranked servers does no more than
ranking them, bringing the tunnel up once, moving it to ranked servers and measuring. -/
theorem connectBest_within {w : World P} (measureFirst : Option Bool)
    (hw : w.state.current = none) (hranked : ∀ ranked v,
      rankForConnect measureFirst w = (.ok ranked, v) → ∀ c ∈ ranked, allowed c) :
    R w (after (connectBest measureFirst) w) := by
  refine Within.bind_at (rankForConnect_within hsampling hsweep _ w) fun ranked v hrank => ?_
  have hv : v.state.current = none := ((rankForConnect_measures _).run hrank).current.trans hw
  have hallowed := hranked ranked v hrank
  rw [self, read_bind]
  cases ranked with
  | nil => exact refl_of R v
  | cons first rest =>
    dsimp only
    have hfirst := hallowed first List.mem_cons_self
    split
    · exact Within.bind_at (hestablish _ _ hfirst hv) fun _ u _ => refl_of R u
    · have hshortlist : ∀ c ∈ (first :: rest).take (v.state.attempts measureFirst (first :: rest)),
          allowed c := fun c hc => hallowed c (List.mem_of_mem_take hc)
      generalize (first :: rest).take _ = shortlist at hshortlist ⊢
      refine Within.bind_at ?_ fun tried u htried => ?_
      · cases shortlist with
        | nil => exact refl_of R v
        | cons candidate others =>
          obtain ⟨hcandidate, hothers⟩ := List.forall_mem_cons.mp hshortlist
          refine Within.bind_at (htrial v) fun trial u hnext => ?_
          cases hnext
          refine Within.bind_at (hestablish _ _ hcandidate hv) fun _ u _ => ?_
          exact tryOut_within hsampling _ _ _
            (fun best => tryCandidates_within hsampling htrial hmove _ _ best _ hothers) u
      · cases tried with
        | settled chosen => exact refl_of R u
        | best best =>
          have hbest := tryCandidates_best hshortlist (fun b hb => by cases hb) htried
          exact settleFor_within hmove hestablish _ _ hshortlist hbest u

end Whole

section Anywhere

variable {R : World P → World P → Prop} [IsPreorder (World P) R]
  (hsampling : Sampling R)
  (htrial : Within R (nextTrial : Daemon P Trial))
  (hmove : ∀ chosen, Within R (moveTo chosen : Daemon P Unit))
  (hsweep : Within R (sweep none : Daemon P (List RankedServer)))
  (hestablish : ∀ chosen w, w.state.current = none → R w (after (establish chosen) w))

include hsampling htrial hmove hsweep hestablish

theorem connect_within (server : Option String) (measureFirst : Option Bool) :
    Within R (connect server measureFirst : Daemon P RankedServer) := by
  intro w
  rw [connect, self, read_bind]
  cases hw : w.state.current with
  | some current => exact refl_of R w
  | none =>
    cases server with
    | none =>
      exact connectBest_within hsampling htrial (fun c (_ : True) => hmove c) hsweep
        (fun c w _ => hestablish c w) _ hw fun _ _ _ _ _ => trivial
    | some name =>
      refine Within.bind_at (hsampling.probeNamed name w) fun chosen v hprobe => ?_
      have hv : v.state.current = none := ((probeNamed_samples _).run hprobe).current.trans hw
      exact Within.bind_at (hestablish _ _ hv) fun _ u _ => refl_of R u

theorem baseline_within (hdisconnect : Within R (disconnect : Daemon P Unit)) :
    Within R (baseline : Daemon P SpeedReport) := by
  refine Within.bind (Within.read _) fun s => ?_
  cases s.current with
  | none => exact hsampling.speedtest
  | some current =>
    refine Within.bind (hsampling.measure _) fun tunnelled => ?_
    refine Within.bind (hsampling.recordThroughput _ _) fun _ => ?_
    refine Within.bind hdisconnect fun _ => ?_
    refine Within.bind (Within.attempt (hsampling.measure _)) fun direct => ?_
    refine Within.bind (Within.attempt
      (connect_within hsampling htrial hmove hsweep hestablish _ _)) fun restored => ?_
    refine Within.bind (Within.lift _) fun direct => ?_
    refine Within.bind (Within.lift _) fun _ => ?_
    exact Within.bind (hsampling.recordDirect _) fun _ => Within.pure _

end Anywhere

/-- Moving to a named server probes it, points the tunnel there, and records both. -/
theorem switch_within {R : World P → World P → Prop} [IsPreorder (World P) R]
    (hsampling : Sampling R)
    (hretarget : ∀ chosen, Within R (do
      retarget chosen
      modify fun s => { s with dismissed := none, current := some (.of chosen) } : Daemon P Unit))
    (name : String) : Within R (switch name : Daemon P RankedServer) := by
  refine Within.bind (Within.read _) fun s => Within.ite (Within.fail _) ?_
  refine Within.bind (hsampling.probeNamed _) fun chosen => ?_
  have hrecorded := Within.bind (hretarget chosen) fun _ => Within.pure (R := R) chosen
  rwa [bind_bind] at hrecorded

/-! ### Connecting, switching and measuring keep what they do not touch -/

theorem nextTrial_operates : Within Operates (nextTrial : Daemon P Trial) :=
  fun _ => ⟨rfl, rfl, rfl, Nat.le_refl _⟩

theorem operates_of_samples (w w' : World P) (h : Samples w w') : Operates w w' :=
  h.toMeasures.operates

theorem connect_operates (server : Option String) (measureFirst : Option Bool) :
    Within Operates (connect server measureFirst : Daemon P RankedServer) :=
  connect_within (.of_samples operates_of_samples) nextTrial_operates
    (fun _ => operates_of_steers (moveTo_steers _)) (operates_of_measures (sweep_measures _))
    (fun _ w _ => (establish_steers _ w).operates) _ _

theorem switch_operates (name : String) :
    Within Operates (switch name : Daemon P RankedServer) :=
  switch_within (.of_samples operates_of_samples) (fun _ =>
    Within.bind (operates_of_steers (retarget_steers _)) fun _ =>
      Within.update fun _ => ⟨rfl, rfl, rfl, Nat.le_refl _⟩) name

theorem baseline_operates : Within Operates (baseline : Daemon P SpeedReport) :=
  baseline_within (.of_samples operates_of_samples) nextTrial_operates
    (fun _ => operates_of_steers (moveTo_steers _)) (operates_of_measures (sweep_measures _))
    (fun _ w _ => (establish_steers _ w).operates) (operates_of_steers disconnect_steers)

/-! ### The parts of a tuning pass, and the requests that leave the connection alone -/

theorem assess_within {R : World P → World P → Prop} [IsPreorder (World P) R]
    (hnow : Within R (now : Daemon P Instant)) (current : Connection) (currentRtt : Option F64)
    (ranked : List RankedServer) :
    Within R (assess current currentRtt ranked : Daemon P Tuner.Assessment) := by
  refine Within.bind (Within.bind (Within.read _) fun s => ?_) fun _ =>
    Within.bind (Within.read _) fun s => Within.pure _
  cases s.dismissed with
  | none => exact Within.pure _
  | some dismissed => exact Within.bind (Within.bind hnow fun _ => Within.pure _) fun _ => Within.pure _

theorem assess_fetches (current : Connection) (currentRtt : Option F64)
    (ranked : List RankedServer) :
    Within Fetches (assess current currentRtt ranked : Daemon P Tuner.Assessment) :=
  assess_within now_fetches current currentRtt ranked

/-- What a pass makes of a ranking and of the time it measured for the current server. -/
def assessed (current : Connection) (currentRtt : Option F64) (ranked : List RankedServer)
    (probed : Nat) (declinedFrom : Option String) : Tuner.Assessment where
  current := some {
    name := current.server
    rttMs := currentRtt
    score := (ranked.find? fun r => r.name = current.server).map RankedServer.score }
  best := ranked.head?
  probed
  declinedFrom

theorem assess_run (current : Connection) (currentRtt : Option F64) (ranked : List RankedServer)
    (w : World P) : ∃ probed declinedFrom, assess current currentRtt ranked w =
      (.ok (assessed current currentRtt ranked probed declinedFrom),
        after (assess current currentRtt ranked) w) := by
  cases hdismissed : w.state.dismissed with
  | none =>
    refine ⟨(w.state.lastSweep.map fun sweep => sweep.1.probed).getD ranked.length, none, ?_⟩
    simp [after, assess, assessed, activeDismissal, self, hdismissed, bind_run]
  | some dismissed =>
    refine ⟨(w.state.lastSweep.map fun sweep => sweep.1.probed).getD ranked.length,
      if (now w).2.clock - dismissed.2 < dismissalCooldown then some dismissed.1 else none, ?_⟩
    simp [after, assess, assessed, activeDismissal, self, hdismissed, bind_run, elapsed, now]
    rfl

/-- A pass that has swept decides on the ranking, follows its decision and records it. -/
theorem tuneDegraded_swept (current : Connection) (currentRtt : Option F64)
    {ranked : List RankedServer} {w v : World P} (h : sweep none w = (.ok ranked, v)) :
    ∃ probed declinedFrom, assess current currentRtt ranked v =
      (.ok (assessed current currentRtt ranked probed declinedFrom),
        after (assess current currentRtt ranked) v) ∧ tuneDegraded current currentRtt w =
      (do
        let decision := Tuner.decide (assessed current currentRtt ranked probed declinedFrom)
          v.state.config.autotune
        followDecision decision
        record decision : Daemon P TuneReport) (after (assess current currentRtt ranked) v) := by
  obtain ⟨probed, declinedFrom, hrun⟩ := assess_run current currentRtt ranked v
  refine ⟨probed, declinedFrom, hrun, ?_⟩
  rw [tuneDegraded, attempt_bind, h, ← (assess_fetches current currentRtt ranked v).config]
  exact bind_run_ok hrun

/-- A pass that finds the current server fast records that it is. -/
theorem tune_fast {current : Connection} {rttMs : F64} {w v : World P}
    (hcurrent : w.state.current = some current)
    (hprobe : probeCurrent current.server w = (.ok (some rttMs), v))
    (hfast : v.state.isFast (some rttMs) = true) :
    tune w = record (.healthy current.server rttMs) v := by
  rw [tune, self, read_bind, hcurrent]
  refine (bind_run_ok hprobe).trans ?_
  rw [read_bind, hfast]

/-- A pass that finds it slow, or hears nothing of it, sweeps. -/
theorem tune_slow {current : Connection} {currentRtt : Option F64} {w v : World P}
    (hcurrent : w.state.current = some current)
    (hprobe : probeCurrent current.server w = (.ok currentRtt, v))
    (hslow : v.state.isFast currentRtt = false) :
    tune w = tuneDegraded current currentRtt v := by
  rw [tune, self, read_bind, hcurrent]
  refine (bind_run_ok hprobe).trans ?_
  rw [read_bind, hslow]
  cases currentRtt <;> rfl

theorem pendingSwitch_fetches : Within Fetches (pendingSwitch : Daemon P (Option PendingSwitch)) := by
  refine Within.bind (Within.read _) fun s => ?_
  cases s.pending with
  | none => exact Within.pure _
  | some pending => exact Within.bind (elapsed_fetches _) fun _ => Within.pure _

theorem rests_of_measures {x : Daemon P α} (h : Within Measures x) : Within Rests x :=
  h.mono fun _ _ => Measures.rests

theorem now_rests : Within Rests (now : Daemon P Instant) :=
  rests_of_measures (measures_of_fetches now_fetches)

theorem modify_rests {f : State P → State P} (htunnel : ∀ s, (f s).tunnel = s.tunnel)
    (hcurrent : ∀ s, (f s).current = s.current) (hlast : ∀ s, (f s).lastTuneAt = s.lastTuneAt) :
    Within Rests (modify f : Daemon P Unit) :=
  Within.update fun w => ⟨htunnel w.state, hcurrent w.state, rfl, rfl, hlast w.state, Nat.le_refl _⟩

theorem loadDisk_operates : Within Operates (loadDisk : Daemon P (Config × ClientConfig)) := by
  refine Within.bind (fun _ => ⟨rfl, rfl, rfl, Nat.le_refl _⟩) fun disk => ?_
  refine Within.bind (Within.lift _) fun config => ?_
  exact Within.bind (Within.lift _) fun client => Within.pure _

theorem reload_rests : Within Rests (reload : Daemon P Unit) := by
  refine Within.bind (Within.bind (fun _ => ⟨rfl, rfl, rfl, rfl, rfl, Nat.le_refl _⟩)
    fun disk => ?_) fun loaded => ?_
  · refine Within.bind (Within.lift _) fun config => ?_
    exact Within.bind (Within.lift _) fun client => Within.pure _
  · exact Within.bind (modify_rests (fun _ => rfl) (fun _ => rfl) fun _ => rfl) fun _ =>
      modify_rests (fun _ => rfl) (fun _ => rfl) fun _ => rfl

theorem dismiss_rests : Within Rests (dismiss : Daemon P String) := by
  refine Within.bind (Within.read _) fun s => ?_
  cases s.pending with
  | none => exact Within.fail _
  | some pending =>
    refine Within.bind (modify_rests (fun _ => rfl) (fun _ => rfl) fun _ => rfl) fun _ => ?_
    refine Within.bind (Within.bind (Within.read _) fun s => ?_) fun _ => Within.bind
      (modify_rests (fun _ => rfl) (fun _ => rfl) fun _ => rfl) fun _ => Within.pure _
    cases s.current with
    | none => exact Within.pure _
    | some current =>
      exact Within.bind now_rests fun t =>
        modify_rests (fun _ => rfl) (fun _ => rfl) fun _ => rfl

/-- Once the proposal is settled, recording a decision only notes and reports it. -/
theorem record_within {R : World P → World P → Prop} [IsPreorder (World P) R]
    (hfetches : ∀ w w', Fetches w w' → R w w')
    (hnote : ∀ text, Within R (modify fun s => { s with lastTune := some text } : Daemon P Unit))
    (decision : Tuner.Decision) (w : World P) :
    R (after (setPending decision) w) (after (record decision) w) := by
  have hset : setPending decision w = (.ok (), after (setPending decision) w) := by
    cases decision <;> rfl
  have hrun : record decision w = _ := bind_run_ok hset
  rw [after, after, hrun]
  refine Within.bind_at (hnote _ _) fun _ v _ => ?_
  exact Within.bind (pendingSwitch_fetches.mono hfetches) (fun _ => Within.pure _) v

theorem record_rests (decision : Tuner.Decision) :
    Within Rests (record decision : Daemon P TuneReport) := by
  intro w
  have hset : Within Rests (setPending decision : Daemon P Unit) := by
    cases decision with
    | propose target reason =>
      refine Within.bind now_rests fun t => Within.bind
        (modify_rests (fun _ => rfl) (fun _ => rfl) fun _ => rfl) fun _ => ?_
      exact Within.update fun _ => ⟨rfl, rfl, rfl, rfl, rfl, Nat.le_refl _⟩
    | _ => exact modify_rests (fun _ => rfl) (fun _ => rfl) fun _ => rfl
  refine trans_of Rests (hset w) (record_within (fun _ _ h => h.toMeasures.rests) ?_ decision w)
  exact fun text => modify_rests (fun _ => rfl) (fun _ => rfl) fun _ => rfl

/-- Recording a decision reports whether it was one to move. -/
theorem record_reports (decision : Tuner.Decision) (w : World P) :
    ∃ report, record decision w = (.ok report, after (record decision) w) ∧
      report.switched = decision.isActionable := by
  have hset : setPending decision w = (.ok (), after (setPending decision) w) := by
    cases decision <;> rfl
  have hrun : record decision w = _ := bind_run_ok hset
  rw [after, hrun]
  generalize after (setPending decision) w = v
  have hpending : ∃ pending, pendingSwitch { v with state := { v.state with
      lastTune := some decision.describe } } = (.ok pending, after pendingSwitch { v with state := {
        v.state with lastTune := some decision.describe } }) := by
    rw [after, pendingSwitch, self, read_bind]
    cases v.state.pending with
    | none => exact ⟨_, rfl⟩
    | some pending => exact ⟨_, rfl⟩
  obtain ⟨pending, hpending⟩ := hpending
  rw [modify, update_bind, bind_run_ok hpending]
  exact ⟨_, rfl, rfl⟩

/-- What follows a current server found slow or silent leaves the connection alone, or it is a switch
to the best server of the sweep, which the decision asks for. -/
theorem tuneDegraded_cases {R : World P → World P → Prop} [IsPreorder (World P) R]
    (hmeasures : ∀ w w', Measures w w' → R w w')
    (hrecord : ∀ decision : Tuner.Decision, decision.isActionable = false →
      Within R (record decision : Daemon P TuneReport))
    (current : Connection) (currentRtt : Option F64) (w : World P) :
    (R w (after (tuneDegraded current currentRtt) w) ∧
      ∀ report, (tuneDegraded current currentRtt w).1 = .ok report → report.switched = false) ∨
    ∃ ranked v probed declinedFrom best reason, sweep none w = (.ok ranked, v) ∧
      assess current currentRtt ranked v =
        (.ok (assessed current currentRtt ranked probed declinedFrom),
          after (assess current currentRtt ranked) v) ∧
      Tuner.decide (assessed current currentRtt ranked probed declinedFrom)
        v.state.config.autotune = .switch best reason ∧
      tuneDegraded current currentRtt w =
        (do
          let _ ← switch best.name
          record (.switch best reason) : Daemon P TuneReport)
          (after (assess current currentRtt ranked) v) := by
  have hrecorded : ∀ {decision : Tuner.Decision} {u : World P}, R w u →
      decision.isActionable = false → R w (after (record decision) u) ∧
        ∀ report, (record decision u).1 = .ok report → report.switched = false := by
    intro decision u hu hrests
    refine ⟨trans_of R hu (hrecord decision hrests u), fun report hreport => ?_⟩
    obtain ⟨_, hrun, hswitched⟩ := record_reports decision u
    rw [hrun] at hreport
    cases hreport
    rw [hswitched, hrests]
  have hswept := sweep_measures none w
  rcases h : sweep none w with ⟨e | ranked, v⟩
  · rw [h] at hswept
    left
    rw [after, tuneDegraded, attempt_bind, h]
    cases e with
    | allUnreachable probed => exact hrecorded (hmeasures _ _ hswept) rfl
    | _ => exact ⟨hmeasures _ _ hswept, fun report hreport => by cases hreport⟩
  · rw [h] at hswept
    obtain ⟨probed, declinedFrom, hassess, hrun⟩ := tuneDegraded_swept current currentRtt h
    have hassessed := hswept.trans (assess_fetches current currentRtt ranked v).toMeasures
    generalize hdecision : Tuner.decide (assessed current currentRtt ranked probed declinedFrom)
      v.state.config.autotune = decision at hrun
    cases hactionable : decision.isActionable with
    | true =>
      obtain ⟨best, reason, rfl⟩ := Tuner.Decision.isActionable_iff.mp hactionable
      refine .inr ⟨ranked, v, probed, declinedFrom, best, reason, rfl, hassess, hdecision,
        hrun.trans ?_⟩
      exact congrFun (bind_bind _ _ _) _
    | false =>
      have hstays : (followDecision decision : Daemon P Unit) = pure () := by
        rw [followDecision, hactionable]
      left
      rw [after, hrun]
      dsimp only
      rw [hstays]
      exact hrecorded (hmeasures _ _ hassessed) hactionable

section Passes

variable {R : World P → World P → Prop} [IsPreorder (World P) R]
  (hrests : ∀ w w', Rests w w' → R w w')
  (hswitch : ∀ name, Within R (switch name : Daemon P RankedServer))

/-- Turning the kill switch on or off is one call on the machine, and the setting. -/
theorem killswitch_within (hengage : Within R (nextEngage : Daemon P P.EngageFault))
    (hrelease : Within R (nextRelease : Daemon P P.ReleaseFault))
    (hmachine : ∀ x, Within R (onMachine x : Daemon P Unit))
    (hset : ∀ enabled, Within R (modify fun s => s.setKillswitch enabled : Daemon P Unit))
    (enable : Option Bool) : Within R (killswitch enable : Daemon P KillswitchReport) := by
  refine Within.bind ?_ fun _ =>
    Within.bind (Within.read _) fun m => Within.bind (Within.read _) fun s => Within.pure _
  match enable with
  | none => exact Within.pure _
  | some true =>
    refine Within.bind (Within.read _) fun s => ?_
    exact Within.bind hengage fun fault => Within.bind (hmachine _) fun _ => hset true
  | some false =>
    exact Within.bind hrelease fun fault => Within.bind (hmachine _) fun _ => hset false

include hswitch

theorem followDecision_within (decision : Tuner.Decision) :
    Within R (followDecision decision : Daemon P Unit) := by
  unfold followDecision
  split
  · exact Within.bind (hswitch _) fun _ => Within.pure _
  · exact Within.pure _

theorem tuneDegraded_within (hsweep : Within R (sweep none : Daemon P (List RankedServer)))
    (hassess : ∀ current rtt ranked,
      Within R (assess current rtt ranked : Daemon P Tuner.Assessment))
    (hrecord : ∀ decision, Within R (record decision : Daemon P TuneReport))
    (current : Connection) (currentRtt : Option F64) :
    Within R (tuneDegraded current currentRtt : Daemon P TuneReport) := by
  refine Within.bind (Within.attempt hsweep) fun swept => ?_
  split
  · exact hrecord _
  · exact Within.fail _
  · refine Within.bind (hassess _ _ _) fun _ => Within.bind (Within.read _) fun s => ?_
    exact Within.bind (followDecision_within hswitch _) fun _ => hrecord _

/-- A pass does no more than measuring, switching, and noting what it decided. -/
theorem tune_within (hprobe : ∀ name, Within R (probeCurrent name : Daemon P (Option F64)))
    (hsweep : Within R (sweep none : Daemon P (List RankedServer)))
    (hassess : ∀ current rtt ranked,
      Within R (assess current rtt ranked : Daemon P Tuner.Assessment))
    (hrecord : ∀ decision, Within R (record decision : Daemon P TuneReport)) :
    Within R (tune : Daemon P TuneReport) := by
  refine Within.bind (Within.read _) fun s => ?_
  cases s.current with
  | none => exact hrecord _
  | some current =>
    refine Within.bind (hprobe _) fun currentRtt => Within.bind (Within.read _) fun s => ?_
    split
    · exact hrecord _
    · exact tuneDegraded_within hswitch hsweep hassess hrecord _ _

include hrests

theorem tune_within_rests : Within R (tune : Daemon P TuneReport) := by
  have hmeasures : ∀ {β : Type} {x : Daemon P β}, Within Measures x → Within R x :=
    fun h => (rests_of_measures h).mono hrests
  exact tune_within hswitch (fun _ => hmeasures (measures_of_samples (probeCurrent_samples _)))
    (hmeasures (sweep_measures _)) (fun _ _ _ => hmeasures (measures_of_fetches (assess_fetches _ _ _)))
    fun _ => (record_rests _).mono hrests

theorem approve_within : Within R (approve : Daemon P RankedServer) := by
  refine Within.bind (Within.read _) fun s => ?_
  cases s.pending with
  | none => exact Within.fail _
  | some pending =>
    refine Within.bind (Within.mono (modify_rests (fun _ => rfl) (fun _ => rfl) fun _ => rfl) hrests)
      fun _ => Within.bind (hswitch _) fun moved => ?_
    exact Within.bind (Within.mono (modify_rests (fun _ => rfl) (fun _ => rfl) fun _ => rfl) hrests)
      fun _ => Within.pure _

end Passes

/-! ### The calls of the backend -/

/-- Bringing the tunnel up: the backend cannot be opened, or bringing it up fails and the handle is
dropped, or the tunnel and the connection are recorded together. -/
theorem establish_cases {chosen : RankedServer} {w w' : World P} {r : Except Error Unit}
    (h : establish chosen w = (r, w')) :
    (∃ e, P.new (w.outside.faults.opens 0) w.machine = .error e ∧ r = .error (.tunnel e) ∧
      w'.state = w.state ∧ w'.events = w.events ∧ w'.machine = w.machine) ∨
    (∃ opened e tunnel m, P.new (w.outside.faults.opens 0) w.machine = .ok opened ∧
      P.up (w.state.spec chosen) (w.outside.faults.ups 0)
        (w.state.fit (w.outside.surroundings 0) opened, w.machine) = (.error e, tunnel, m) ∧
      r = .error (.tunnel e) ∧ w'.state = w.state ∧ w'.events = w.events ∧
      w'.machine = P.drop (w.outside.faults.drops 0) tunnel m) ∨
    (∃ opened tunnel, P.new (w.outside.faults.opens 0) w.machine = .ok opened ∧
      P.up (w.state.spec chosen) (w.outside.faults.ups 0)
        (w.state.fit (w.outside.surroundings 0) opened, w.machine) = (.ok (), tunnel, w'.machine) ∧
      r = .ok () ∧
      w'.state = { w.state with tunnel := some tunnel, current := some (.of chosen) } ∧
      w'.events = .up chosen.endpoint :: w.events) := by
  cases hnew : P.new (w.outside.faults.opens 0) w.machine with
  | error e =>
    simp [establish, newTunnel, self, nextOpen, draw, bind_run, hnew, Except.mapError] at h
    obtain ⟨rfl, rfl⟩ := h
    exact .inl ⟨e, rfl, rfl, rfl, rfl, rfl⟩
  | ok opened =>
    rcases hup : P.up (w.state.spec chosen) (w.outside.faults.ups 0)
      (w.state.fit (w.outside.surroundings 0) opened, w.machine) with ⟨e | _, tunnel, m⟩
    · simp [establish, newTunnel, self, nextOpen, nextUp, nextSurroundings, draw, bind_run, hnew,
        hup, Except.mapError, call, dropTunnel, nextDrop] at h
      obtain ⟨rfl, rfl⟩ := h
      exact .inr (.inl ⟨opened, e, tunnel, m, rfl, hup, rfl, rfl, rfl, rfl⟩)
    · simp [establish, newTunnel, self, nextOpen, nextUp, nextSurroundings, draw, bind_run, hnew,
        hup, Except.mapError, call, modify, emit] at h
      obtain ⟨rfl, rfl⟩ := h
      exact .inr (.inr ⟨opened, tunnel, rfl, hup, rfl, rfl, rfl⟩)

/-- Pointing the tunnel elsewhere: there is none, or the call fails and the record stays, or it
succeeds and the record is still to be written. -/
theorem retarget_cases {chosen : RankedServer} {w w' : World P} {r : Except Error Unit}
    (h : retarget chosen w = (r, w')) :
    (w.state.tunnel = none ∧ r = .error .notConnected ∧ w' = w) ∨
    (∃ tunnel e tunnel', w.state.tunnel = some tunnel ∧
      P.switchEndpoint (w.state.spec chosen) (w.outside.faults.switches 0) (tunnel, w.machine) =
        (.error e, tunnel', w'.machine) ∧
      r = .error (.tunnel e) ∧ w'.state = { w.state with tunnel := some tunnel' } ∧
      w'.events = w.events) ∨
    (∃ tunnel tunnel', w.state.tunnel = some tunnel ∧
      P.switchEndpoint (w.state.spec chosen) (w.outside.faults.switches 0) (tunnel, w.machine) =
        (.ok (), tunnel', w'.machine) ∧
      r = .ok () ∧ w'.state = { w.state with tunnel := some tunnel' } ∧
      w'.events = .switched chosen.endpoint :: w.events) := by
  cases htunnel : w.state.tunnel with
  | none =>
    simp [retarget, self, htunnel] at h
    obtain ⟨rfl, rfl⟩ := h
    exact .inl ⟨rfl, rfl, rfl⟩
  | some tunnel =>
    rcases hswitch : P.switchEndpoint (w.state.spec chosen) (w.outside.faults.switches 0)
      (tunnel, w.machine) with ⟨e | _, tunnel', m⟩
    · simp [retarget, self, htunnel, nextSwitch, draw, bind_run, call, hswitch, modify] at h
      obtain ⟨rfl, rfl⟩ := h
      exact .inr (.inl ⟨tunnel, e, tunnel', rfl, hswitch, rfl, rfl, rfl⟩)
    · simp [retarget, self, htunnel, nextSwitch, draw, bind_run, call, hswitch, modify, emit] at h
      obtain ⟨rfl, rfl⟩ := h
      exact .inr (.inr ⟨tunnel, tunnel', rfl, hswitch, rfl, rfl, rfl⟩)

/-- A switch that succeeds points the tunnel at the server it probed and records it. -/
theorem switch_records {name : String} {chosen : RankedServer} {w w' : World P}
    (h : switch name w = (.ok chosen, w')) : ∃ v, probeNamed name w = (.ok chosen, v) ∧
      w'.state.current = some (.of chosen) ∧ w'.events = .switched chosen.endpoint :: w.events := by
  obtain ⟨_, _, hself, h⟩ := bind_ok h
  cases hself
  split at h
  · cases h
  obtain ⟨chosen, v, hprobe, h⟩ := bind_ok h
  obtain ⟨_, u, hretarget, h⟩ := bind_ok h
  cases h
  refine ⟨v, hprobe, rfl, ?_⟩
  rw [← ((probeNamed_samples name).run hprobe).events]
  rcases retarget_cases hretarget with ⟨_, hr, _⟩ | ⟨_, _, _, _, _, hr, _⟩ | ⟨_, _, _, _, _, _, hevents⟩
  · cases hr
  · cases hr
  · exact hevents

/-- Disconnecting: there is no tunnel, or it is brought down and dropped, and the record goes whatever
comes of it. -/
theorem disconnect_cases {w w' : World P} {r : Except Error Unit}
    (h : disconnect w = (r, w')) :
    (w.state.tunnel = none ∧ r = .error .notConnected ∧ w' = w) ∨
    (∃ tunnel result tunnel' m, w.state.tunnel = some tunnel ∧
      P.down (w.outside.faults.downs 0) (tunnel, w.machine) = (result, tunnel', m) ∧
      r = result.mapError .tunnel ∧
      w'.state = { w.state with tunnel := none, current := none } ∧
      w'.machine = P.drop (w.outside.faults.drops 0) tunnel' m ∧
      w'.events = .down :: w.events) := by
  cases htunnel : w.state.tunnel with
  | none =>
    simp [disconnect, self, htunnel] at h
    obtain ⟨rfl, rfl⟩ := h
    exact .inl ⟨rfl, rfl, rfl⟩
  | some tunnel =>
    rcases hdown : P.down (w.outside.faults.downs 0) (tunnel, w.machine) with ⟨result, tunnel', m⟩
    simp [disconnect, self, htunnel, nextDown, draw, bind_run, call, hdown, modify, emit,
      dropTunnel, nextDrop] at h
    obtain ⟨rfl, rfl⟩ := h
    exact .inr ⟨tunnel, result, tunnel', m, rfl, hdown, rfl, rfl, rfl, rfl⟩

end Vpnmgr
