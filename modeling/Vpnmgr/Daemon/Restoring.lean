import Vpnmgr.Daemon.Candidates
import Vpnmgr.Library.Noting

/-! A baseline that takes the tunnel down puts it back, or tries to, as long as taking it down
reports no failure. The calls it makes on the way are noted. -/

namespace Vpnmgr

open Ieee Stateful Stateful.Action Text
open Stateful.Noting (quiet note Erases)

variable {P : Platform} {α : Type}

/-! ### When taking a tunnel down reports no failure -/

namespace Linux

/-- The interface is removed, and a kill switch is released. -/
def TeardownFault.Clean (f : TeardownFault) (t : LinuxTunnel) : Prop :=
  f.removeInterface = none ∧ (t.killswitch.isSome = true → f.release = none)

theorem down_isOk (f : TeardownFault) (t : LinuxTunnel) (m : LinuxMachine) :
    (down f (t, m)).1.isOk = true ↔ f.Clean t := by
  obtain ⟨remove, deleted, released⟩ := f
  unfold TeardownFault.Clean down
  cases remove <;> cases hk : t.killswitch <;> cases released <;>
    simp [removeInterface, removeRoutes, release, hk, Except.isOk, Except.toBool]

end Linux

namespace Windows

/-- PowerShell runs, and the last statement of the releasing script has its effect. -/
def ReleaseFault.Clean (f : ReleaseFault) (fw : Firewall) : Prop :=
  f.launch = none ∧ f.fails (if fw.restore.isSome then .deleteRecord else .allowAll) = none

theorem release_isOk (f : ReleaseFault) (fw : Firewall) :
    (release f fw).1.isOk = true ↔ f.Clean fw := by
  unfold ReleaseFault.Clean release
  cases hlaunch : f.launch with
  | some e => simp [Except.isOk, Except.toBool]
  | none =>
    cases fw.restore with
    | some saved => cases hfails : f.fails .deleteRecord <;> simp [hfails, Except.isOk, Except.toBool]
    | none => cases hfails : f.fails .allowAll <;> simp [hfails, Except.isOk, Except.toBool]

/-- The service is removed, and a kill switch is released. -/
def DownFault.Clean (f : DownFault) (t : Tunnel) (m : Machine) : Prop :=
  f.removeService = none ∧ (t.killswitch.isSome = true → f.release.Clean m.firewall)

theorem releaseOwn_isOk (f : ReleaseFault) (t : Tunnel) (m : Machine) :
    (releaseOwn f (t, m)).1.isOk = true ↔ (t.killswitch.isSome = true → f.Clean m.firewall) := by
  cases hk : t.killswitch with
  | none => simp [releaseOwn, hk, Except.isOk, Except.toBool]
  | some k =>
    rw [← release_isOk]
    rcases h : release f m.firewall with ⟨_ | _, fw⟩ <;>
      simp [releaseOwn, releaseFirewall, hk, h, Except.mapError, Except.isOk, Except.toBool]

theorem down_isOk (f : DownFault) (t : Tunnel) (m : Machine) :
    (down f (t, m)).1.isOk = true ↔ f.Clean t m := by
  unfold DownFault.Clean down removeService
  cases hremove : f.removeService with
  | some e => simp [bind_run, run, Except.isOk, Except.toBool]
  | none =>
    have hown := releaseOwn_isOk f.release t { m with adapter := none }
    simp only [true_and]
    rw [← hown]
    rcases h : releaseOwn f.release (t, { m with adapter := none }) with ⟨_ | _, s⟩ <;>
      simp [bind_run, run, h, Except.isOk, Except.toBool]

end Windows

/-! ### The calls of a baseline -/

/-- A call that the baseline makes: it takes the tunnel's handle to bring it down, or it has asked for
a connection. -/
inductive Call where
  | takenDown
  | connected (server : String) (result : Except Error RankedServer)

namespace Traced

abbrev Operation (P : Platform) := Noting Call (World P) Error

def disconnect : Operation P Unit := do
  if (← quiet self).tunnel.isSome then note .takenDown
  quiet Vpnmgr.disconnect

def connect (server : String) (measureFirst : Option Bool) : Operation P RankedServer := do
  let result ← attempt (quiet (Vpnmgr.connect (some server) measureFirst))
  note (.connected server result)
  lift result

def baseline : Operation P SpeedReport := do
  let s ← quiet self
  match s.current with
  | none => quiet speedtest
  | some current =>
    let minMbps := s.config.autotune.minMbps
    let tunnelled ← quiet (measure s.throughputRequest)
    quiet (recordThroughput current.server tunnelled.mbps)
    disconnect
    let direct ← attempt (quiet (measure s.throughputRequest))
    let restored ← attempt (connect current.server (some false))
    let direct ← lift direct
    let _ ← lift restored
    quiet (recordDirect direct.mbps)
    return {
      tunnelled := some tunnelled
      direct := some direct
      server := some current.server
      minMbps
      meetsTarget := decide (minMbps ≤ tunnelled.mbps)
      verdict := baselineVerdict current.server tunnelled.mbps direct.mbps minMbps }

theorem disconnect_erases : Erases id (disconnect : Operation P Unit) Vpnmgr.disconnect := by
  refine .read_bind _ fun s => ?_
  dsimp only
  split
  · exact .note_bind _ (.quiet _)
  · exact .quiet _

theorem connect_erases (server : String) (measureFirst : Option Bool) :
    Erases id (connect server measureFirst : Operation P RankedServer)
      (Vpnmgr.connect (some server) measureFirst) := fun p => by
  rw [connect, attempt_bind, Noting.quiet_run]
  rcases h : Vpnmgr.connect (some server) measureFirst p.1 with ⟨_ | _, w⟩ <;> rfl

/-- Without the notes the baseline is the one of the runs. -/
theorem baseline_erases : Erases id (baseline : Operation P SpeedReport) Vpnmgr.baseline := by
  refine .bind (.quiet _) fun s => ?_
  dsimp only [id]
  cases s.current with
  | none => exact .quiet _
  | some current =>
    refine .bind (.quiet _) fun tunnelled => .bind (.quiet _) fun _ => ?_
    refine .bind disconnect_erases fun _ => .bind (.attempt (.quiet _)) fun direct => ?_
    refine .bind (.attempt (connect_erases _ _)) fun restored => ?_
    refine .bind (.lift direct id) fun direct => .bind (.lift restored id) fun _ => ?_
    exact .bind (.quiet _) fun _ => .pure _ _

end Traced

/-- The calls of a baseline that begins here, the latest first. -/
def World.baselineCalls (w : World P) : List Call := (Traced.baseline (w, [])).2.2

/-- A baseline that took the tunnel down, or leaves no connection, has asked for the server again
after that; where that succeeds, the connection is to the server it found. -/
structure World.Restores (w : World P) (name : String) : Prop where
  asks : .takenDown ∈ w.baselineCalls ∨ (after baseline w).state.current = none →
    ∃ result, w.baselineCalls = [.connected name result, .takenDown]
  connects : ∀ chosen, .connected name (.ok chosen) ∈ w.baselineCalls →
    eqIgnoreAsciiCase chosen.name name = true ∧
      (after baseline w).state.current = some (.of chosen) ∧
      (after baseline w).state.tunnel.isSome = true

/-- Where the baseline gets as far as taking the tunnel down, that reports no failure. -/
def World.TearsDown (clean : P.DownFault → P.Tunnel → P.Machine → Prop) (w : World P) : Prop :=
  ∀ sample tunnel, w.outside.download 0 w.state.throughputRequest = .ok sample →
    w.state.tunnel = some tunnel → clean (w.outside.faults.downs 0) tunnel w.machine

/-- A connection to a named server is to the server of that name in the list. -/
theorem connect_named {name : String} {measureFirst : Option Bool} {chosen : RankedServer}
    {w w' : World P} (hw : w.state.current = none)
    (h : connect (some name) measureFirst w = (.ok chosen, w')) :
    eqIgnoreAsciiCase chosen.name name = true ∧ w'.state.current = some (.of chosen) ∧
      w'.state.tunnel.isSome = true := by
  rw [connect_some_run hw] at h
  obtain ⟨server, v, hprobe, h⟩ := bind_ok h
  obtain ⟨_, u, hestablish, h⟩ := bind_ok h
  cases h
  obtain ⟨list, _, found, _, hget, hplace⟩ := probeNamed_ok hprobe
  have hname : chosen.name = found.name := congrArg Prod.fst hplace
  refine ⟨?_, ?_⟩
  · rw [hname]
    exact ServerList.get_name hget
  · rcases establish_cases hestablish with ⟨_, _, hr, _⟩ | ⟨_, _, _, _, _, _, hr, _⟩ |
      ⟨_, _, _, _, _, hstate, _⟩
    · cases hr
    · cases hr
    · rw [hstate]
      exact ⟨rfl, rfl⟩

/-- What a baseline does once the tunnel is down. -/
def Traced.measureDirect (current : Connection) (before : State P) (tunnelled : SpeedSample) :
    Traced.Operation P SpeedReport := do
  let direct ← attempt (quiet (measure before.throughputRequest))
  let restored ← attempt (Traced.connect current.server (some false))
  let direct ← lift direct
  let _ ← lift restored
  quiet (recordDirect direct.mbps)
  return {
    tunnelled := some tunnelled
    direct := some direct
    server := some current.server
    minMbps := before.config.autotune.minMbps
    meetsTarget := decide (before.config.autotune.minMbps ≤ tunnelled.mbps)
    verdict := baselineVerdict current.server tunnelled.mbps direct.mbps
      before.config.autotune.minMbps }

/-- Whatever the direct measurement does, the server is asked for once, and what that connects to
stays. -/
theorem Traced.measureDirect_asks (current : Connection) (before : State P)
    (tunnelled : SpeedSample) {u w' : World P} {calls calls' : List Call}
    {r : Except Error SpeedReport} (hu : u.state.current = none)
    (h : Traced.measureDirect current before tunnelled (u, calls) = (r, (w', calls'))) :
    ∃ result, calls' = .connected current.server result :: calls ∧
      ∀ chosen, result = .ok chosen → eqIgnoreAsciiCase chosen.name current.server = true ∧
        w'.state.current = some (.of chosen) ∧ w'.state.tunnel.isSome = true := by
  rw [measureDirect, attempt_bind, Noting.quiet_run] at h
  rcases hmeasure : measure before.throughputRequest u with ⟨direct, v⟩
  have hv : v.state.current = none := by
    have hsamples := measure_samples before.throughputRequest u
    rw [hmeasure] at hsamples
    exact hsamples.current.trans hu
  rcases hconnect : Vpnmgr.connect (some current.server) (some false) v with ⟨result, x⟩
  have hrun : Traced.connect current.server (some false) (v, calls) =
      (result, (x, .connected current.server result :: calls)) := by
    rw [Traced.connect, attempt_bind, Noting.quiet_run, hconnect]
    rfl
  rw [hmeasure, attempt_bind, hrun] at h
  refine ⟨result, ?_⟩
  -- what follows records a rate at most
  have hrest : Noting.Quietly Samples (x, .connected current.server result :: calls) (w', calls') := by
    refine Within.run (x := _) ?_ h
    refine Within.bind (Within.lift _) fun direct => Within.bind (Within.lift _) fun _ => ?_
    exact Within.bind (Noting.quiet_within (recordDirect_samples _)) fun _ => Within.pure _
  refine ⟨hrest.2, fun chosen hchosen => ?_⟩
  obtain ⟨hname, hcurrent, htunnel⟩ := connect_named hv (hchosen ▸ hconnect)
  exact ⟨hname, hrest.1.current.trans hcurrent, by rw [hrest.1.tunnel]; exact htunnel⟩

theorem Traced.disconnect_run {w v : World P} {r : Except Error Unit} (calls : List Call)
    (h : Vpnmgr.disconnect w = (r, v)) : Traced.disconnect (w, calls) =
      (r, (v, if w.state.tunnel.isSome then .takenDown :: calls else calls)) := by
  rw [disconnect, Noting.quiet_bind_ok (read_run World.state w)]
  cases w.state.tunnel with
  | none =>
    show quiet Vpnmgr.disconnect (w, calls) = _
    rw [Noting.quiet_run, h]
    rfl
  | some tunnel =>
    show quiet Vpnmgr.disconnect (w, .takenDown :: calls) = _
    rw [Noting.quiet_run, h]
    rfl

/-- How a baseline goes on a connection: it stops before it disconnects, disconnecting fails, or the
server is asked for again. -/
theorem World.baselineCalls_cases {w : World P} {current : Connection}
    (hcurrent : w.state.current = some current) :
    (w.baselineCalls = [] ∧ (after baseline w).state.current = some current ∧
      ∀ sample tunnel, w.outside.download 0 w.state.throughputRequest = .ok sample →
        w.state.tunnel ≠ some tunnel) ∨
    ∃ sample tunnel, w.outside.download 0 w.state.throughputRequest = .ok sample ∧
      w.state.tunnel = some tunnel ∧
      ((P.down (w.outside.faults.downs 0) (tunnel, w.machine)).1.isOk = false ∧
          w.baselineCalls = [.takenDown] ∨
        (P.down (w.outside.faults.downs 0) (tunnel, w.machine)).1.isOk = true ∧
          ∃ result, w.baselineCalls = [.connected current.server result, .takenDown] ∧
            ∀ chosen, result = .ok chosen → eqIgnoreAsciiCase chosen.name current.server = true ∧
              (after baseline w).state.current = some (.of chosen) ∧
              (after baseline w).state.tunnel.isSome = true) := by
  have hafter : after baseline w = (Traced.baseline (w, [])).2.1 := Traced.baseline_erases.state (w, [])
  have hrun : Traced.baseline (w, []) = (do
      let tunnelled ← quiet (measure w.state.throughputRequest)
      quiet (recordThroughput current.server tunnelled.mbps)
      Traced.disconnect
      Traced.measureDirect current w.state tunnelled : Traced.Operation P SpeedReport) (w, []) := by
    rw [Traced.baseline, Noting.quiet_bind_ok (read_run World.state w), hcurrent]
    rfl
  rw [hafter, World.baselineCalls, hrun]
  have hmeasure := measure_samples w.state.throughputRequest w
  cases hdownload : w.outside.download 0 w.state.throughputRequest with
  | error e =>
    left
    have hfails : ∃ e v, measure w.state.throughputRequest w = (.error e, v) :=
      ⟨_, _, by simp only [measure, nextDownload, draw, bind_run, hdownload]; rfl⟩
    obtain ⟨e', v, hfails⟩ := hfails
    rw [hfails] at hmeasure
    rw [Noting.quiet_bind_error hfails]
    exact ⟨rfl, hmeasure.current.trans hcurrent, fun _ _ h => by cases h⟩
  | ok sample =>
    have hreads : ∃ v, measure w.state.throughputRequest w = (.ok sample, v) :=
      ⟨_, by simp only [measure, nextDownload, draw, bind_run, hdownload]; rfl⟩
    obtain ⟨v, hreads⟩ := hreads
    rw [hreads] at hmeasure
    have hrecord : recordThroughput current.server sample.mbps v =
        (.ok (), after (recordThroughput current.server sample.mbps) v) := rfl
    have hsamples : Samples w (after (recordThroughput current.server sample.mbps) v) :=
      trans_of Samples hmeasure (recordThroughput_samples current.server sample.mbps v)
    rw [Noting.quiet_bind_ok hreads, Noting.quiet_bind_ok hrecord]
    generalize after (recordThroughput current.server sample.mbps) v = x at hsamples ⊢
    rcases hdisconnect : disconnect x with ⟨r, u⟩
    have htraced := Traced.disconnect_run [] hdisconnect
    rw [hsamples.tunnel] at htraced
    rcases disconnect_cases hdisconnect with ⟨htunnel, rfl, rfl⟩ |
      ⟨tunnel, result, _, _, htunnel, hdown, rfl, hstate, _, _⟩
    · rw [hsamples.tunnel] at htunnel
      rw [htunnel] at htraced
      rw [bind_run_error htraced]
      refine .inl ⟨rfl, hsamples.current.trans hcurrent, fun _ _ _ h => ?_⟩
      rw [htunnel] at h
      cases h
    · rw [hsamples.tunnel] at htunnel
      rw [hsamples.faults, hsamples.machine] at hdown
      refine .inr ⟨sample, tunnel, rfl, htunnel, ?_⟩
      rw [hdown]
      rw [htunnel] at htraced
      have hu : u.state.current = none := by rw [hstate]
      cases result with
      | error e =>
        rw [bind_run_error htraced]
        exact .inl ⟨rfl, rfl⟩
      | ok =>
        rw [bind_run_ok htraced]
        exact .inr ⟨rfl, Traced.measureDirect_asks current w.state sample hu rfl⟩

/-- A baseline restores the connection exactly when taking the tunnel down, where it gets so far,
reports no failure. -/
theorem World.restores_iff {clean : P.DownFault → P.Tunnel → P.Machine → Prop}
    (hclean : ∀ f t m, (P.down f (t, m)).1.isOk = true ↔ clean f t m) {w : World P}
    {current : Connection} (hcurrent : w.state.current = some current) :
    w.Restores current.server ↔ w.TearsDown clean := by
  rcases w.baselineCalls_cases hcurrent with ⟨hcalls, hstays, huntouched⟩ |
    ⟨sample, tunnel, hsample, htunnel, ⟨hfails, hcalls⟩ | ⟨hdown, result, hcalls, hback⟩⟩
  · refine iff_of_true ⟨fun h => ?_, fun chosen h => ?_⟩ fun sample tunnel hsample htunnel => ?_
    · rw [hcalls, hstays] at h
      rcases h with h | h <;> cases h
    · rw [hcalls] at h
      cases h
    · exact absurd htunnel (huntouched sample tunnel hsample)
  · refine iff_of_false (fun h => ?_) fun h => ?_
    · obtain ⟨result, hasked⟩ := h.asks (.inl (by rw [hcalls]; exact List.mem_cons_self))
      rw [hcalls] at hasked
      cases hasked
    · have hok := (hclean _ _ _).mpr (h sample tunnel hsample htunnel)
      exact Bool.false_ne_true (hfails.symm.trans hok)
  · refine iff_of_true ⟨fun _ => ⟨result, hcalls⟩, fun chosen h => hback chosen ?_⟩ ?_
    · rw [hcalls] at h
      cases h with
      | head => rfl
      | tail _ h =>
        cases List.mem_singleton.mp h
    · intro sample' tunnel' _ htunnel'
      cases htunnel.symm.trans htunnel'
      exact (hclean _ _ _).mp hdown

/-- On both systems a baseline restores the connection exactly when neither the removal of the
interface or service nor the release of a kill switch reports a failure, where it gets so far. -/
theorem baseline_restores_iff (log : Logarithm) :
    (∀ (w : World (.linux log)) current, w.state.current = some current →
      (w.Restores current.server ↔
        w.TearsDown fun (f : Linux.TeardownFault) (t : LinuxTunnel) _ => f.Clean t)) ∧
    ∀ (w : World (.windows log)) current, w.state.current = some current →
      (w.Restores current.server ↔
        w.TearsDown fun (f : Windows.DownFault) (t : Windows.Tunnel) m => f.Clean t m) :=
  ⟨fun _ _ => World.restores_iff Linux.down_isOk, fun _ _ => World.restores_iff Windows.down_isOk⟩

namespace Sample

/-- Two servers that answer probes, and downloads that are measured, connected to the first. -/
def measured (faults : Faults (.linux log)) : World (.linux log) :=
  step (world config linuxMachine
    { outside config pairList pairReply faults with
      download := fun _ _ => .ok { mbps := 90, bytes := 25000000, elapsedMs := 2222, truncated := false } })
    (.connect (some "Achernar") none)

theorem measured_reachable (faults : Faults (.linux log)) : Reachable (measured faults) :=
  ⟨_, world_starts config_valid rfl _ _, .next .here trivial⟩

/-- A backend whose interface is busy when it is to be removed. -/
def busyFaults : Faults (.linux log) :=
  { linuxFaults with downs := fun _ => { removeInterface := some "Device or resource busy" } }

end Sample

theorem measured_restores : (Sample.measured Sample.linuxFaults).Restores "Achernar" := by
  have hserver : (Sample.measured Sample.linuxFaults).state.current.map Connection.server =
      some "Achernar" := by decide +kernel
  obtain ⟨current, hcurrent, hname⟩ := Option.map_eq_some_iff.mp hserver
  rw [← hname]
  exact ((baseline_restores_iff Sample.log).1 _ current hcurrent).mpr fun _ _ _ _ =>
    ⟨rfl, fun _ => rfl⟩

/-- An interface that cannot be removed keeps the baseline from restoring the connection, which is no
longer recorded. -/
theorem baseline_strands : ¬∀ (w : World (.linux Sample.log)) current, Reachable w →
    w.state.current = some current → w.Restores current.server := by
  intro hrestores
  have hserver : (Sample.measured Sample.busyFaults).state.current.map Connection.server =
      some "Achernar" := by decide +kernel
  obtain ⟨current, hcurrent, -⟩ := Option.map_eq_some_iff.mp hserver
  have hnone : (after baseline (Sample.measured Sample.busyFaults)).state.current.isNone = true := by
    decide +kernel
  obtain ⟨result, hcalls⟩ := (hrestores _ current (Sample.measured_reachable _) hcurrent).asks
    (.inr (Option.isNone_iff_eq_none.mp hnone))
  have hlength : (Sample.measured Sample.busyFaults).baselineCalls.length = 1 := by decide +kernel
  rw [hcalls] at hlength
  cases hlength

end Vpnmgr
