import Vpnmgr.Daemon.Schedule
import Vpnmgr.Library.Async

/-! The tunnel and the record of the connection are there together, in every run of requests and
passes, the scheduler's passes abandoned at any place where they wait included. -/

namespace Vpnmgr

open Ieee Stateful Stateful.Action
open Stateful.Async (sync await)

variable {P : Platform} {α : Type}

/-- The tunnel, the record of it and the machine stay as they are. -/
structure Spares (w w' : World P) : Prop where
  tunnel : w'.state.tunnel = w.state.tunnel
  current : w'.state.current = w.state.current
  machine : w'.machine = w.machine
  faults : w'.outside.faults = w.outside.faults

instance : IsPreorder (World P) Spares where
  refl _ := ⟨rfl, rfl, rfl, rfl⟩
  trans _ _ _ h₁ h₂ := ⟨h₂.tunnel.trans h₁.tunnel, h₂.current.trans h₁.current,
    h₂.machine.trans h₁.machine, h₂.faults.trans h₁.faults⟩

theorem spares_of_rests (w w' : World P) (h : Rests w w') : Spares w w' :=
  ⟨h.tunnel, h.current, h.machine, h.faults⟩

/-! ### The scheduler's pass with the places where it waits -/

namespace Pass

/-- A part of a pass. It waits for the lock on the state, for the server list and for the handshakes
of a sweep. -/
abbrev Part (P : Platform) := Async (World P) Error

def refresh : Part P Unit := do
  match ← await nextFetch with
  | .noClient reason => sync <| fail (.fetch reason)
  | .fetched list =>
    let t ← sync now
    sync <| modify fun s => { s with servers := some (list, t) }
  | .failed reason =>
    match (← sync self).servers with
    | some _ => pure ()
    | none => sync <| fail (.fetch reason)

def refreshIfStale : Part P Unit := do
  if (← sync (isStale (← sync self).servers)) then refresh else pure ()

def serverList : Part P ServerList := do
  refreshIfStale
  sync cachedList

def sweep (country : Option String) : Part P (List RankedServer) := do
  let before ← sync self
  let list ← serverList
  let selection := (before.sweepFilters country).apply list
  if selection.accepted = [] then sync <| fail (.noCandidates selection.summaryText)
  else
    let started ← sync now
    let measured := before.prober.sweep (← await nextNetwork) selection.accepted wgEntries
      before.config.provider.airvpn.port
    let duration ← sync (elapsed started)
    let reachable := (measured.filter (·.rtt.isSome)).length
    let t ← sync now
    let ranking := (rank P.log measured before.scoring).map (before.toRanked t)
    sync <| modify fun s => { s with
      lastSweep := some ({
        probed := measured.length
        reachable
        elapsedMs := duration.asMillis
        ageSecs := 0
        best := ranking.head?
        allUnreachable := decide (reachable = 0) }, t) }
    if reachable = 0 then sync <| fail (.allUnreachable measured.length)
    else
      sync <| modify fun s => { s with lastRanking := ranking }
      pure ranking

def probeNamed (name : String) : Part P RankedServer := do
  let before ← sync self
  let list ← serverList
  match list.get name with
  | none => sync <| fail (.unknownServer name)
  | some server =>
    let measured := before.prober.sweep (← await nextNetwork) [server] wgEntries
      before.config.provider.airvpn.port
    match rank P.log measured before.scoring with
    | [] => sync <| fail (.serverUnreachable name)
    | scored :: _ => return before.toRanked (← sync now) scored

def probeCurrent (name : String) : Part P (Option F64) := do
  let before ← sync self
  match ← Async.attempt serverList with
  | .error (_ : Error) => pure none
  | .ok list =>
    match list.get name with
    | none => pure none
    | some server =>
      let measured := before.currentProber.sweep (← await nextNetwork) [server] wgEntries
        before.config.provider.airvpn.port
      return (measured.head?.bind Measured.rtt).map fun d => d.asSecsF64 * 1000

def switch (name : String) : Part P RankedServer := do
  if (← sync self).current.isNone then sync <| fail .notConnected
  else
    let chosen ← probeNamed name
    sync (retarget chosen)
    sync <| modify fun s => { s with dismissed := none, current := some (.of chosen) }
    pure chosen

def followDecision (decision : Tuner.Decision) : Part P Unit := do
  match decision.isActionable, decision.target with
  | true, some target => let _ ← switch target.name
  | _, _ => pure ()

def tuneDegraded (current : Connection) (currentRtt : Option F64) : Part P TuneReport := do
  match ← Async.attempt (sweep none) with
  | .error (.allUnreachable probed) => sync <| record (.nothingReachable probed)
  | .error e => sync <| fail e
  | .ok ranked =>
    let decision := Tuner.decide (← sync (assess current currentRtt ranked)) (← sync self).config.autotune
    followDecision decision
    sync (record decision)

def tune : Part P TuneReport := do
  match (← sync self).current with
  | none => sync <| record .notConnected
  | some current =>
    let currentRtt ← probeCurrent current.server
    match currentRtt, (← sync self).isFast currentRtt with
    | some rttMs, true => sync <| record (.healthy current.server rttMs)
    | _, _ => tuneDegraded current currentRtt

def autotune : Part P TuneReport := do
  let t ← sync now
  sync <| modify fun s => { s with lastTuneAt := some t }
  tune

def scheduled : Part P (Option TuneReport) := do
  await (pure ())
  let t ← sync now
  if (← sync self).timeUntilNextTune t = 0 then return some (← autotune) else pure none

/-! Left to finish, each part does what it does without the waits. -/

theorem refresh_finish : (refresh : Part P Unit).finish = Vpnmgr.refresh := by
  refine (Async.finish_bind _ _).trans (congrArg (Bind.bind nextFetch) (funext fun fetch => ?_))
  cases fetch with
  | failed reason =>
    refine (Async.finish_bind _ _).trans (congrArg (Bind.bind self) (funext fun s => ?_))
    cases s.servers <;> rfl
  | noClient reason => rfl
  | fetched list => exact Async.finish_bind _ _

theorem serverList_finish : (serverList : Part P ServerList).finish = Vpnmgr.serverList := by
  simp only [serverList, refreshIfStale, Vpnmgr.serverList, Vpnmgr.refreshIfStale, Async.finish_bind,
    Async.finish_sync, Async.finish_ite, Async.finish_pure, refresh_finish]

theorem sweep_finish (country : Option String) :
    (sweep country : Part P (List RankedServer)).finish = Vpnmgr.sweep country := by
  simp only [sweep, Vpnmgr.sweep, Async.finish_bind, Async.finish_sync, Async.finish_await,
    Async.finish_ite, Async.finish_pure, serverList_finish]

theorem probeNamed_finish (name : String) :
    (probeNamed name : Part P RankedServer).finish = Vpnmgr.probeNamed name := by
  simp only [probeNamed, Vpnmgr.probeNamed, Async.finish_bind, Async.finish_sync, serverList_finish]
  refine congrArg (Bind.bind self) (funext fun before => ?_)
  refine congrArg (Bind.bind Vpnmgr.serverList) (funext fun list => ?_)
  cases list.get name with
  | none => rfl
  | some server =>
    refine (Async.finish_bind _ _).trans (congrArg (Bind.bind nextNetwork) (funext fun net => ?_))
    cases rank P.log (before.prober.sweep net [server] wgEntries
        before.config.provider.airvpn.port) before.scoring with
    | nil => rfl
    | cons scored rest => exact Async.finish_bind _ _

theorem probeCurrent_finish (name : String) :
    (probeCurrent name : Part P (Option F64)).finish = Vpnmgr.probeCurrent name := by
  simp only [probeCurrent, Vpnmgr.probeCurrent, Async.finish_bind, Async.finish_sync,
    Async.finish_attempt, serverList_finish]
  refine congrArg (Bind.bind self) (funext fun before => ?_)
  refine congrArg (Bind.bind (attempt Vpnmgr.serverList)) (funext fun list => ?_)
  cases list with
  | error e => rfl
  | ok list =>
    dsimp only
    cases list.get name with
    | none => rfl
    | some server => exact Async.finish_bind _ _

theorem switch_finish (name : String) :
    (switch name : Part P RankedServer).finish = Vpnmgr.switch name := by
  simp only [switch, Vpnmgr.switch, Async.finish_bind, Async.finish_sync, Async.finish_ite,
    Async.finish_pure, probeNamed_finish]

theorem followDecision_finish (decision : Tuner.Decision) :
    (followDecision decision : Part P Unit).finish = Vpnmgr.followDecision decision := by
  cases decision with
  | switch target reason =>
    refine (Async.finish_bind _ _).trans ?_
    rw [switch_finish]
    rfl
  | _ => rfl

theorem tuneDegraded_finish (current : Connection) (currentRtt : Option F64) :
    (tuneDegraded current currentRtt : Part P TuneReport).finish =
      Vpnmgr.tuneDegraded current currentRtt := by
  rw [tuneDegraded, Async.finish_bind, Async.finish_attempt, sweep_finish]
  refine congrArg (Bind.bind (attempt (Vpnmgr.sweep none))) (funext fun swept => ?_)
  cases swept with
  | error e => cases e <;> rfl
  | ok ranked => simp only [Async.finish_bind, Async.finish_sync, followDecision_finish]

theorem tune_finish : (tune : Part P TuneReport).finish = Vpnmgr.tune := by
  rw [tune, Async.finish_bind, Async.finish_sync]
  refine congrArg (Bind.bind self) (funext fun s => ?_)
  cases s.current with
  | none => rfl
  | some current =>
    simp only [Async.finish_bind, Async.finish_sync, probeCurrent_finish]
    refine congrArg (Bind.bind (Vpnmgr.probeCurrent current.server)) (funext fun currentRtt => ?_)
    refine congrArg (Bind.bind self) (funext fun s => ?_)
    cases currentRtt with
    | none => exact tuneDegraded_finish _ _
    | some rttMs =>
      cases s.isFast (some rttMs) with
      | true => rfl
      | false => exact tuneDegraded_finish _ _

theorem autotune_finish : (autotune : Part P TuneReport).finish = Vpnmgr.autotune := by
  simp only [autotune, Vpnmgr.autotune, Async.finish_bind, Async.finish_sync, tune_finish]

/-- The scheduler's pass left to finish is the pass of the runs. -/
theorem scheduled_finish : (scheduled : Part P (Option TuneReport)).finish = scheduledPass := by
  simp only [scheduled, Async.finish_bind, Async.finish_sync, Async.finish_await, Async.finish_ite,
    Async.finish_pure, autotune_finish]
  rfl

/-! Wherever a pass waits, it has done no more than fetching, probing and sweeping. -/

section Waits

variable {R : World P → World P → Prop} [IsPreorder (World P) R]
  (hnow : Within R (now : Daemon P Instant))
  (hlist : Within R (Vpnmgr.serverList : Daemon P ServerList))
  (hnetwork : Within R (nextNetwork : Daemon P Network))
  (hsweep : Within R (Vpnmgr.sweep none : Daemon P (List RankedServer)))

theorem refresh_waits : Async.WaitsIn R (refresh : Part P Unit) := by
  refine Async.WaitsIn.bind_still (Async.WaitsIn.await _) fun fetch s => ?_
  cases fetch with
  | failed reason =>
    rw [Async.waits_sync_bind, self, read_run]
    dsimp only
    cases s.state.servers <;> rfl
  | _ => rfl

include hnow

theorem serverList_waits : Async.WaitsIn R (serverList : Part P ServerList) := by
  refine Async.WaitsIn.bind_still ?_ fun _ _ => rfl
  refine Async.WaitsIn.sync_bind (Within.read _) fun s => ?_
  refine Async.WaitsIn.sync_bind ?_ fun stale =>
    Async.WaitsIn.ite refresh_waits (Async.WaitsIn.pure _)
  cases s.servers with
  | none => exact Within.pure _
  | some cached =>
    exact Within.bind (Within.bind hnow fun _ => Within.pure _) fun _ => Within.pure _

include hlist

omit [IsPreorder (World P) R] hnow in
theorem serverList_within : Within R (serverList : Part P ServerList).finish := by
  rw [serverList_finish]
  exact hlist

theorem sweep_waits (country : Option String) :
    Async.WaitsIn R (sweep country : Part P (List RankedServer)) := by
  refine Async.WaitsIn.sync_bind (Within.read _) fun before => ?_
  refine Async.WaitsIn.bind (serverList_waits hnow) (serverList_within hlist) fun list => ?_
  refine Async.WaitsIn.ite (Async.WaitsIn.sync _) ?_
  refine Async.WaitsIn.sync_bind hnow fun started => ?_
  -- once the servers have answered, the ranking is stored without waiting
  refine Async.WaitsIn.bind_still (Async.WaitsIn.await _) fun net w => ?_
  simp only [Async.waits_sync_bind]
  repeat' split
  all_goals rfl

theorem probeNamed_waits (name : String) :
    Async.WaitsIn R (probeNamed name : Part P RankedServer) := by
  refine Async.WaitsIn.sync_bind (Within.read _) fun before => ?_
  refine Async.WaitsIn.bind (serverList_waits hnow) (serverList_within hlist) fun list => ?_
  cases list.get name with
  | none => exact Async.WaitsIn.sync _
  | some server =>
    refine Async.WaitsIn.bind_still (Async.WaitsIn.await _) fun net w => ?_
    dsimp only
    split
    · rfl
    · rfl

theorem probeCurrent_waits (name : String) :
    Async.WaitsIn R (probeCurrent name : Part P (Option F64)) := by
  refine Async.WaitsIn.sync_bind (Within.read _) fun before => ?_
  refine Async.WaitsIn.bind (Async.WaitsIn.attempt (serverList_waits hnow))
    (Within.attempt (serverList_within hlist)) fun list => ?_
  cases list with
  | error => exact Async.WaitsIn.pure _
  | ok list =>
    dsimp only
    cases list.get name with
    | none => exact Async.WaitsIn.pure _
    | some server => exact Async.WaitsIn.bind_still (Async.WaitsIn.await _) fun _ _ => rfl

theorem switch_waits (name : String) : Async.WaitsIn R (switch name : Part P RankedServer) := by
  refine Async.WaitsIn.sync_bind (Within.read _) fun s => ?_
  refine Async.WaitsIn.ite (Async.WaitsIn.sync _) ?_
  -- once the server is probed, nothing is waited for until the pass is over
  refine Async.WaitsIn.bind_still (probeNamed_waits hnow hlist name) fun chosen w => ?_
  rw [Async.waits_sync_bind]
  split <;> rfl

include hsweep

theorem tuneDegraded_waits (current : Connection) (currentRtt : Option F64) :
    Async.WaitsIn R (tuneDegraded current currentRtt : Part P TuneReport) := by
  have hswept : Within R (sweep none : Part P (List RankedServer)).finish := by
    rw [sweep_finish]
    exact hsweep
  refine Async.WaitsIn.bind (Async.WaitsIn.attempt (sweep_waits hnow hlist none))
    (Within.attempt hswept) fun swept => ?_
  cases swept with
  | error e => cases e <;> exact Async.WaitsIn.sync _
  | ok ranked =>
    have hassess : Within R (assess current currentRtt ranked : Daemon P Tuner.Assessment) := by
      refine Within.bind ?_ fun _ => Within.bind (Within.read _) fun _ => Within.pure _
      refine Within.bind (Within.read _) fun s => ?_
      cases s.dismissed with
      | none => exact Within.pure _
      | some => exact Within.bind (Within.bind hnow fun _ => Within.pure _) fun _ => Within.pure _
    refine Async.WaitsIn.sync_bind hassess fun assessment => ?_
    refine Async.WaitsIn.sync_bind (Within.read _) fun s => ?_
    refine Async.WaitsIn.bind_still ?_ fun _ _ => rfl
    cases Tuner.decide assessment s.config.autotune with
    | switch target reason =>
      exact Async.WaitsIn.bind_still (switch_waits hnow hlist _) fun _ _ => rfl
    | _ => exact Async.WaitsIn.pure _

include hnetwork

theorem tune_waits : Async.WaitsIn R (tune : Part P TuneReport) := by
  have hprobe : ∀ name, Within R (probeCurrent name : Part P (Option F64)).finish := by
    intro name
    rw [probeCurrent_finish]
    exact probeCurrent_within hlist hnetwork name
  refine Async.WaitsIn.sync_bind (Within.read _) fun s => ?_
  cases s.current with
  | none => exact Async.WaitsIn.sync _
  | some current =>
    refine Async.WaitsIn.bind (probeCurrent_waits hnow hlist _) (hprobe _) fun currentRtt => ?_
    refine Async.WaitsIn.sync_bind (Within.read _) fun s => ?_
    split
    · exact Async.WaitsIn.sync _
    · exact tuneDegraded_waits hnow hlist hsweep _ _

/-- The scheduler's pass, where noting its own time is within bounds too. -/
theorem scheduled_waits (hnote : ∀ lastTuneAt,
    Within R (modify fun s => { s with lastTuneAt } : Daemon P Unit)) :
    Async.WaitsIn R (scheduled : Part P (Option TuneReport)) := by
  refine Async.WaitsIn.await_bind (Within.pure _) fun _ => ?_
  refine Async.WaitsIn.sync_bind hnow fun t => Async.WaitsIn.sync_bind (Within.read _) fun s => ?_
  refine Async.WaitsIn.ite (Async.WaitsIn.bind_still ?_ fun _ _ => rfl) (Async.WaitsIn.pure _)
  refine Async.WaitsIn.sync_bind hnow fun t => Async.WaitsIn.sync_bind (hnote _) fun _ => ?_
  exact tune_waits hnow hlist hnetwork hsweep

end Waits

theorem scheduled_spares : Async.WaitsIn Spares (scheduled : Part P (Option TuneReport)) := by
  have hrests : ∀ {β : Type} {x : Daemon P β}, Within Measures x → Within Spares x :=
    fun h => (rests_of_measures h).mono spares_of_rests
  exact scheduled_waits (hrests (measures_of_fetches now_fetches))
    (hrests (measures_of_fetches serverList_fetches))
    (hrests (measures_of_samples nextNetwork_samples)) (hrests (sweep_measures none))
    fun _ => Within.update fun _ => ⟨rfl, rfl, rfl, rfl⟩

end Pass

/-! ### The pair -/

/-- There is a tunnel exactly where a connection is recorded. -/
def World.Paired (w : World P) : Prop := w.state.tunnel.isSome = w.state.current.isSome

/-- The tunnel and the record of it stay paired. -/
def StaysPaired (w w' : World P) : Prop := w.Paired → w'.Paired

instance : IsPreorder (World P) StaysPaired where
  refl _ := id
  trans _ _ _ h₁ h₂ := h₂ ∘ h₁

theorem Spares.paired {w w' : World P} (h : Spares w w') : StaysPaired w w' := fun hw => by
  rw [World.Paired, h.tunnel, h.current]
  exact hw

theorem rests_paired (w w' : World P) (h : Rests w w') : StaysPaired w w' :=
  (spares_of_rests w w' h).paired

theorem samples_paired (w w' : World P) (h : Samples w w') : StaysPaired w w' :=
  rests_paired w w' h.toMeasures.rests

theorem nextTrial_paired : Within StaysPaired (nextTrial : Daemon P Trial) := fun _ hw => hw

theorem establish_paired (chosen : RankedServer) :
    Within StaysPaired (establish chosen : Daemon P Unit) := by
  intro w hw
  rcases h : establish chosen w with ⟨r, w'⟩
  rcases establish_cases h with ⟨_, _, _, hstate, _⟩ | ⟨_, _, _, _, _, _, _, hstate, _⟩ |
    ⟨_, _, _, _, _, hstate, _⟩
  · rw [World.Paired, hstate]; exact hw
  · rw [World.Paired, hstate]; exact hw
  · rw [World.Paired, hstate]; rfl

/-- Pointing the tunnel elsewhere keeps the pair, whatever is recorded of it when that succeeds. -/
theorem retarget_paired {chosen : RankedServer} {record : State P → State P}
    (htunnel : ∀ s, (record s).tunnel = s.tunnel)
    (hcurrent : ∀ s, (record s).current = some (.of chosen)) :
    Within StaysPaired (do retarget chosen; modify record : Daemon P Unit) := by
  intro w hw
  rcases h : retarget chosen w with ⟨r, w'⟩
  rcases retarget_cases h with ⟨_, rfl, rfl⟩ | ⟨_, _, _, ht, _, rfl, hstate, _⟩ |
    ⟨_, _, ht, _, rfl, hstate, _⟩
  · rw [bind_run_error h]
    exact hw
  · rw [bind_run_error h, World.Paired, hstate, ← hw, ht]
    rfl
  · rw [bind_run_ok h]
    simp only [World.Paired, modify, update_run, htunnel, hcurrent, hstate]
    rfl

theorem moveTo_paired (chosen : RankedServer) :
    Within StaysPaired (moveTo chosen : Daemon P Unit) :=
  retarget_paired (fun _ => rfl) fun _ => rfl

theorem switch_paired (name : String) : Within StaysPaired (switch name : Daemon P RankedServer) :=
  switch_within (.of_samples samples_paired) (fun _ => retarget_paired (fun _ => rfl) fun _ => rfl) name

theorem sweep_paired : Within StaysPaired (sweep none : Daemon P (List RankedServer)) :=
  (rests_of_measures (sweep_measures none)).mono rests_paired

theorem connect_paired (server : Option String) (measureFirst : Option Bool) :
    Within StaysPaired (connect server measureFirst : Daemon P RankedServer) :=
  connect_within (.of_samples samples_paired) nextTrial_paired moveTo_paired sweep_paired
    (fun _ w _ => establish_paired _ w) server measureFirst

theorem disconnect_paired : Within StaysPaired (disconnect : Daemon P Unit) := by
  intro w hw
  rcases h : disconnect w with ⟨r, w'⟩
  rcases disconnect_cases h with ⟨_, _, rfl⟩ | ⟨_, _, _, _, _, _, _, hstate, _⟩
  · exact hw
  · rw [World.Paired, hstate]
    rfl

theorem baseline_paired : Within StaysPaired (baseline : Daemon P SpeedReport) :=
  baseline_within (.of_samples samples_paired) nextTrial_paired moveTo_paired sweep_paired
    (fun _ w _ => establish_paired _ w) disconnect_paired

theorem killswitch_paired (enable : Option Bool) :
    Within StaysPaired (killswitch enable : Daemon P KillswitchReport) :=
  killswitch_within (R := StaysPaired) (fun _ hw => hw) (fun _ hw => hw) (fun _ _ hw => hw)
    (fun _ _ hw => hw) enable

theorem autotune_paired : Within StaysPaired (autotune : Daemon P TuneReport) := by
  refine Within.bind (now_rests.mono rests_paired) fun t => ?_
  exact Within.bind (fun _ hw => hw) fun _ => tune_within_rests rests_paired switch_paired

theorem step_paired (w : World P) (op : Op) (hw : w.Paired) : (step w op).Paired := by
  have hmeasured : ∀ {w' : World P}, Measures w w' → w'.Paired :=
    fun h => rests_paired w _ h.rests hw
  cases op with
  | connect server measure => exact connect_paired _ _ w hw
  | disconnect => exact disconnect_paired w hw
  | switch server => exact switch_paired _ w hw
  | test country => exact hmeasured (sweep_measures _ w)
  | servers country limit all => exact hmeasured (servers_fetches _ _ _ w).toMeasures
  | reload => exact rests_paired w _ (reload_rests w) hw
  | autotune => exact autotune_paired w hw
  | approve => exact approve_within rests_paired switch_paired w hw
  | dismiss => exact rests_paired w _ (dismiss_rests w) hw
  | speedtest => exact hmeasured (speedtest_samples w).toMeasures
  | baseline confirm =>
    cases confirm with
    | false => exact hw
    | true => exact baseline_paired w hw
  | killswitch enable => exact killswitch_paired _ w hw
  | scheduledPass =>
    have hpass : Within StaysPaired (scheduledPass : Daemon P (Option TuneReport)) :=
      Within.bind (now_rests.mono rests_paired) fun t => Within.bind (Within.read _) fun s =>
        Within.ite (Within.bind autotune_paired fun _ => Within.pure _) (Within.pure _)
    exact hpass w hw

/-! ### Runs -/

/-- What the daemon does next: an operation, or a scheduled pass that is abandoned at one of the
places where it waits. -/
inductive Turn where
  | op (op : Op)
  | abandoned (at_ : Nat)

def turn (w : World P) : Turn → World P
  | .op op => step w op
  | .abandoned at_ => ((Pass.scheduled : Pass.Part P (Option TuneReport)).waits w)[at_]?.getD w

theorem turn_paired (w : World P) (t : Turn) (hw : w.Paired) : (turn w t).Paired := by
  cases t with
  | op op => exact step_paired w op hw
  | abandoned at_ =>
    rw [turn]
    cases hwait : (Pass.scheduled.waits w)[at_]? with
    | none => exact hw
    | some w' => exact (Pass.scheduled_spares w w' (List.mem_of_getElem? hwait)).paired hw

theorem Starts.paired {w : World P} (h : Starts w) : w.Paired := by
  obtain ⟨_, _, _, _, _, hloaded⟩ := h.loads
  rw [World.Paired, hloaded]
  rfl

/-- A tunnel is there exactly where a connection is recorded, wherever operations and abandoned
passes lead. -/
theorem reaches_paired {start w : World P} (hstart : Starts start)
    (h : Reaches turn (fun _ _ => True) start w) :
    w.state.tunnel.isSome = true ↔ w.state.current.isSome = true := by
  have hpaired : w.Paired := h.keeps (fun w t _ => turn_paired w t) hstart.paired
  rw [hpaired]

/-- A daemon with half an hour between two readings of its clock. -/
def Sample.unhurried : World (.linux Sample.log) :=
  world config linuxMachine
    { outside config pairList pairReply linuxFaults with pace := fun _ => .ofSecs 1800 }

/-- A connection, a pass, and a second pass abandoned while it waits for the server list. -/
def Sample.abandoned : World (.linux Sample.log) :=
  turn (turn (turn unhurried (.op (.connect (some "Achernar") none))) (.op .autotune)) (.abandoned 1)

theorem abandoned_paired : Sample.abandoned.state.tunnel.isSome = true ↔
    Sample.abandoned.state.current.isSome = true :=
  reaches_paired (Sample.world_starts Sample.config_valid rfl _ _)
    (.next (.next (.next .here trivial) trivial) trivial)

end Vpnmgr
