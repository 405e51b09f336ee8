import Vpnmgr.Daemon.Steering
import Vpnmgr.Tunnel.Programmed

/-! The record of the connection names the endpoint that the tunnel is programmed with, in every run
whose moves of the tunnel succeed or fail before they change it. -/

namespace Vpnmgr

open Stateful Stateful.Action

variable {P : Platform} {Clean : P.SwitchFault → Prop}

/-- Where a connection is recorded, a peer is programmed, with the recorded endpoint last. -/
def World.Matches (w : World P) : Prop :=
  ∀ c, w.state.current = some c → P.programmed w.machine = some c.endpoint

/-- The record matches the tunnel, there is a record wherever there is a tunnel, and the moves to
come are clean. -/
structure World.Recorded (Clean : P.SwitchFault → Prop) (w : World P) : Prop where
  matching : w.Matches
  recorded : w.state.tunnel.isSome = true → w.state.current.isSome = true
  clean : ∀ n, Clean (w.outside.faults.switches n)

def StaysRecorded (Clean : P.SwitchFault → Prop) (w w' : World P) : Prop :=
  w.Recorded Clean → w'.Recorded Clean

instance : IsPreorder (World P) (StaysRecorded Clean) :=
  inferInstanceAs (IsPreorder (World P) fun w w' => w.Recorded Clean → w'.Recorded Clean)

theorem rests_recorded (w w' : World P) (h : Rests w w') : StaysRecorded Clean w w' := fun hw => by
  refine ⟨fun c hc => ?_, ?_, ?_⟩
  · rw [h.machine]
    exact hw.matching c (h.current ▸ hc)
  · rw [h.tunnel, h.current]
    exact hw.recorded
  · rw [h.faults]
    exact hw.clean

theorem samples_recorded (w w' : World P) (h : Samples w w') : StaysRecorded Clean w w' :=
  rests_recorded w w' h.toMeasures.rests

theorem nextTrial_recorded : Within (StaysRecorded Clean) (nextTrial : Daemon P Trial) :=
  fun _ hw => ⟨hw.matching, hw.recorded, hw.clean⟩

theorem Steers.clean {w w' : World P} (h : Steers w w')
    (hw : ∀ n, Clean (w.outside.faults.switches n)) (n : Nat) :
    Clean (w'.outside.faults.switches n) := by
  obtain ⟨k, hk⟩ := h.switches n
  rw [hk]
  exact hw k

section Law

variable (law : Programs P Clean)

include law

theorem establish_recorded (chosen : RankedServer) (w : World P) (hnone : w.state.current = none) :
    StaysRecorded Clean w (after (establish chosen) w) := by
  intro hw
  have hclean := Steers.clean (establish_steers chosen w) hw.clean
  rcases h : establish chosen w with ⟨r, w'⟩
  rw [h] at hclean
  rw [after, h]
  rcases establish_cases h with ⟨_, _, _, hstate, _⟩ | ⟨_, _, _, _, _, _, _, hstate, _⟩ |
    ⟨_, tunnel, _, hup, _, hstate, _⟩
  · refine ⟨fun c hc => ?_, by rw [hstate]; exact hw.recorded, hclean⟩
    rw [hstate, hnone] at hc
    cases hc
  · refine ⟨fun c hc => ?_, by rw [hstate]; exact hw.recorded, hclean⟩
    rw [hstate, hnone] at hc
    cases hc
  · refine ⟨fun c hc => ?_, fun _ => by rw [hstate]; rfl, hclean⟩
    rw [hstate] at hc
    cases hc
    exact law.up _ _ _ _ hup

/-- Pointing the tunnel elsewhere and recording that: a clean failure leaves both as they were, and
where the tunnel moves the record follows. -/
theorem retarget_recorded {chosen : RankedServer} {record : State P → State P}
    (hcurrent : ∀ s, (record s).current = some (.of chosen)) :
    Within (StaysRecorded Clean) (do retarget chosen; modify record : Daemon P Unit) := by
  intro w hw
  have hclean := Steers.clean (retarget_steers chosen w) hw.clean
  rcases h : retarget chosen w with ⟨r, w'⟩
  rw [h] at hclean
  rcases retarget_cases h with ⟨_, rfl, rfl⟩ | ⟨tunnel, e, tunnel', ht, hswitch, rfl, hstate, _⟩ |
    ⟨tunnel, tunnel', ht, hswitch, rfl, hstate, _⟩
  · rw [bind_run_error h]
    exact hw
  · have hkept := law.stuck _ _ _ _ _ (hw.clean 0) hswitch
    rw [bind_run_error h]
    refine ⟨fun c hc => ?_, fun _ => ?_, hclean⟩
    · rw [hstate] at hc
      exact hkept.trans (hw.matching c hc)
    · rw [hstate]
      exact hw.recorded (by rw [ht]; rfl)
  · obtain ⟨c, hc⟩ := Option.isSome_iff_exists.mp (hw.recorded (by rw [ht]; rfl))
    have hbefore : (P.programmed w.machine).isSome = true := by rw [hw.matching c hc]; rfl
    have hmoved := law.moved _ _ _ _ (hw.clean 0) hbefore hswitch
    rw [bind_run_ok h]
    refine ⟨fun c hc => ?_, fun _ => ?_, hclean⟩
    · obtain rfl : Connection.of chosen = c := Option.some.inj ((hcurrent w'.state).symm.trans hc)
      exact hmoved
    · show ((record w'.state).current).isSome = true
      rw [hcurrent]
      rfl

theorem moveTo_recorded (chosen : RankedServer) :
    Within (StaysRecorded Clean) (moveTo chosen : Daemon P Unit) :=
  retarget_recorded law fun _ => rfl

theorem switch_recorded (name : String) :
    Within (StaysRecorded Clean) (switch name : Daemon P RankedServer) :=
  switch_within (.of_samples samples_recorded)
    (fun _ => retarget_recorded law fun _ => rfl) name

theorem connect_recorded (server : Option String) (measureFirst : Option Bool) :
    Within (StaysRecorded Clean) (connect server measureFirst : Daemon P RankedServer) :=
  connect_within (.of_samples samples_recorded) nextTrial_recorded (moveTo_recorded law)
    ((rests_of_measures (sweep_measures _)).mono rests_recorded) (establish_recorded law) _ _

omit law in
/-- A tunnel that is taken down leaves no record, even where that fails. -/
theorem disconnect_recorded : Within (StaysRecorded Clean) (disconnect : Daemon P Unit) := by
  intro w hw
  have hclean := Steers.clean (disconnect_steers w) hw.clean
  rcases h : disconnect w with ⟨r, w'⟩
  rw [h] at hclean
  rcases disconnect_cases h with ⟨_, _, rfl⟩ | ⟨_, _, _, _, _, _, _, hstate, _⟩
  · exact hw
  · refine ⟨fun c hc => ?_, fun hsome => ?_, hclean⟩
    · rw [hstate] at hc
      cases hc
    · rw [hstate] at hsome
      cases hsome

theorem baseline_recorded : Within (StaysRecorded Clean) (baseline : Daemon P SpeedReport) :=
  baseline_within (.of_samples samples_recorded) nextTrial_recorded (moveTo_recorded law)
    ((rests_of_measures (sweep_measures _)).mono rests_recorded) (establish_recorded law)
    disconnect_recorded

omit law in
theorem onMachine_recorded {x : P.Machine → Except TunnelError Unit × P.Machine}
    (hx : ∀ m, P.programmed (x m).2 = P.programmed m) :
    Within (StaysRecorded Clean) (onMachine x : Daemon P Unit) := by
  intro w hw
  refine ⟨fun c hc => ?_, hw.recorded, hw.clean⟩
  exact (hx w.machine).trans (hw.matching c hc)

theorem killswitch_recorded (enable : Option Bool) :
    Within (StaysRecorded Clean) (killswitch enable : Daemon P KillswitchReport) := by
  refine Within.bind ?_ fun _ =>
    Within.bind (Within.read _) fun m => Within.bind (Within.read _) fun s => Within.pure _
  have hset : ∀ on, Within (StaysRecorded Clean)
      (modify fun s => s.setKillswitch on : Daemon P Unit) :=
    fun _ _ hw => ⟨hw.matching, hw.recorded, hw.clean⟩
  match enable with
  | none => exact Within.pure _
  | some true =>
    refine Within.bind (Within.read _) fun s => ?_
    refine Within.bind (fun _ hw => ⟨hw.matching, hw.recorded, hw.clean⟩) fun fault => ?_
    exact Within.bind (onMachine_recorded (law.engage _ _)) fun _ => hset _
  | some false =>
    refine Within.bind (fun _ hw => ⟨hw.matching, hw.recorded, hw.clean⟩) fun fault => ?_
    exact Within.bind (onMachine_recorded (law.release _)) fun _ => hset _

theorem autotune_recorded : Within (StaysRecorded Clean) (autotune : Daemon P TuneReport) := by
  refine Within.bind (now_rests.mono rests_recorded) fun t => ?_
  refine Within.bind (fun _ hw => ⟨hw.matching, hw.recorded, hw.clean⟩) fun _ => ?_
  exact tune_within_rests rests_recorded (switch_recorded law)

theorem step_recorded (w : World P) (op : Op) (hw : w.Recorded Clean) :
    (step w op).Recorded Clean := by
  cases op with
  | connect server measure => exact connect_recorded law _ _ w hw
  | disconnect => exact disconnect_recorded w hw
  | switch server => exact switch_recorded law _ w hw
  | test country => exact rests_recorded _ _ (sweep_measures _ w).rests hw
  | servers country limit all =>
    exact rests_recorded _ _ (servers_fetches _ _ _ w).toMeasures.rests hw
  | reload => exact rests_recorded _ _ (reload_rests w) hw
  | autotune => exact autotune_recorded law w hw
  | approve => exact approve_within rests_recorded (switch_recorded law) w hw
  | dismiss => exact rests_recorded _ _ (dismiss_rests w) hw
  | speedtest => exact samples_recorded _ _ (speedtest_samples w) hw
  | baseline confirm =>
    cases confirm with
    | false => exact hw
    | true => exact baseline_recorded law w hw
  | killswitch enable => exact killswitch_recorded law _ w hw
  | scheduledPass =>
    refine Within.bind (now_rests.mono rests_recorded) (fun t => ?_) w hw
    refine Within.bind (Within.read _) fun s => Within.ite ?_ (Within.pure _)
    exact Within.bind (autotune_recorded law) fun _ => Within.pure _

theorem run_recorded {start w : World P} (hstart : Starts start)
    (hclean : ∀ n, Clean (start.outside.faults.switches n))
    (hrun : Reaches step (fun _ _ => True) start w) : w.Recorded Clean := by
  refine hrun.keeps (fun v op _ => step_recorded law v op) ?_
  obtain ⟨disk, config, client, _, _, hloaded⟩ := hstart.loads
  refine ⟨fun c hc => ?_, fun hsome => ?_, hclean⟩
  · rw [hloaded] at hc
    cases hc
  · rw [hloaded] at hsome
    cases hsome

end Law

/-- With either backend, in a run whose every move of the tunnel succeeds or fails before it changes
anything, the record of the connection matches the tunnel wherever the run leads. -/
theorem run_matches (log : Ieee.Logarithm) :
    (∀ start w : World (.linux log), Starts start →
      (∀ n, Linux.Clean (start.outside.faults.switches n)) →
      Reaches step (fun _ _ => True) start w → w.Matches) ∧
    (∀ start w : World (.windows log), Starts start →
      (∀ n, Windows.Clean (start.outside.faults.switches n)) →
      Reaches step (fun _ _ => True) start w → w.Matches) :=
  ⟨fun _ _ hstart hclean hrun =>
    (run_recorded (programs_linux log) hstart hclean hrun).matching,
   fun _ _ hstart hclean hrun =>
    (run_recorded (programs_windows log) hstart hclean hrun).matching⟩

namespace Sample

/-- The world after connecting to one server and switching to another. -/
def switched (w : World P) : World P :=
  step (step w (.connect (some "Achernar") none)) (.switch "Bellatrix")

theorem switched_reached (w : World P) : Reaches step (fun _ _ => True) w (switched w) :=
  .next (.next .here trivial) trivial

theorem pair_starts (faults : Faults (.linux log)) : Starts (pair faults) :=
  world_starts config_valid rfl _ _

theorem windowsPair_starts (faults : Faults (.windows log)) : Starts (windowsPair faults) :=
  world_starts config_valid rfl _ _

/-- A backend that forgets the old session and then cannot rotate the listen port. -/
def unrotatedFaults : Faults (.linux log) :=
  { linuxFaults with switches := fun _ => some (.rotateListenPort, "Device or resource busy") }

/-- A backend that sets the endpoint and then cannot write the configuration. -/
def unwrittenFaults : Faults (.windows log) :=
  { windowsFaults with switches := fun _ => { conf := { write := some "disk full" } } }

end Sample

theorem clean_switch_matches :
    (Sample.switched (Sample.pair Sample.linuxFaults)).Matches ∧
    (Sample.switched (Sample.windowsPair Sample.windowsFaults)).Matches :=
  ⟨(run_matches Sample.log).1 _ _ (Sample.pair_starts _) (fun _ => .inl rfl)
    (Sample.switched_reached _),
   (run_matches Sample.log).2 _ _ (Sample.windowsPair_starts _) (fun _ => .inr ⟨rfl, rfl⟩)
    (Sample.switched_reached _)⟩

/-- A switch that fails half-way leaves the record on the old server, and no peer on Linux or the
new endpoint on Windows. -/
theorem failed_switch_mismatches :
    ¬(∀ w : World (.linux Sample.log), Reachable w → w.Matches) ∧
    ¬(∀ w : World (.windows Sample.log), Reachable w → w.Matches) := by
  constructor
  · intro hmatches
    have hmatch := hmatches (Sample.switched (Sample.pair Sample.unrotatedFaults))
      ⟨_, Sample.pair_starts _, Sample.switched_reached _⟩
    have hcurrent : (Sample.switched (Sample.pair Sample.unrotatedFaults)).state.current.isSome =
        true := by decide +kernel
    have hpeer : Linux.programmed (Sample.switched (Sample.pair Sample.unrotatedFaults)).machine =
        none := by decide +kernel
    obtain ⟨c, hc⟩ := Option.isSome_iff_exists.mp hcurrent
    cases hpeer.symm.trans (hmatch c hc)
  · intro hmatches
    have hmatch := hmatches (Sample.switched (Sample.windowsPair Sample.unwrittenFaults))
      ⟨_, Sample.windowsPair_starts _, Sample.switched_reached _⟩
    have hcurrent : (Sample.switched (Sample.windowsPair Sample.unwrittenFaults)).state.current.map
        (fun c => c.endpoint.ip) = some (.v4 0x0a000001) := by decide +kernel
    have hpeer : (Windows.programmed (Sample.switched
        (Sample.windowsPair Sample.unwrittenFaults)).machine).map SocketAddr.ip =
          some (.v4 0x0a000002) := by decide +kernel
    obtain ⟨c, hc, hip⟩ := Option.map_eq_some_iff.mp hcurrent
    have hsame := hpeer.symm.trans (congrArg (Option.map SocketAddr.ip) (hmatch c hc))
    rw [Option.map_some, hip] at hsame
    exact absurd hsame (by decide)

end Vpnmgr
