import Vpnmgr.Daemon.Connect
import Vpnmgr.Library.Run

/-! The remaining requests, the tuning pass and its schedule, and the runs of the daemon: any order
of requests and passes, from the state that was loaded. -/

namespace Vpnmgr

open Ieee Stateful Stateful.Action Tuner

variable {P : Platform}

/-- The outcome of a throughput measurement, for the client. -/
structure SpeedReport where
  tunnelled : Option SpeedSample
  direct : Option SpeedSample
  server : Option String
  minMbps : F64
  meetsTarget : Bool
  verdict : String

/-- The conclusion from one measurement, through the server that was connected if one was. -/
def speedVerdict (server : Option String) (mbps minMbps : F64) : String :=
  match server with
  | some server => F64.fixed 1 mbps ++ " Mbps through " ++ server ++ " (" ++
      (if minMbps ≤ mbps then "meets" else "below") ++ " the " ++ F64.fixed 0 minMbps ++
      " Mbps target)"
  | none => F64.fixed 1 mbps ++ " Mbps with no tunnel up; this is your direct connection"

/-- The conclusion from a measurement through the tunnel and one without it. -/
def baselineVerdict (server : String) (tunnelled direct minMbps : F64) : String :=
  let retained := if 0 < direct then tunnelled / direct else 0
  F64.fixed 1 tunnelled ++ " Mbps through " ++ server ++ " vs " ++ F64.fixed 1 direct ++
    " Mbps direct — the tunnel keeps " ++ F64.fixed 0 (retained * 100) ++
    "% of your connection. " ++
    if 0.7 ≤ retained then
      "That is normal overhead; a slow link here is your connection, not the VPN."
    else if direct < minMbps then
      "Your connection itself is below the target, so no server can fix it."
    else "The VPN is costing you a lot; a different server may do better."

/-- Measure throughput on whatever path is currently in use. -/
def speedtest : Daemon P SpeedReport := do
  let s ← self
  let minMbps := s.config.autotune.minMbps
  let sample ← measure s.throughputRequest
  match s.current with
  | some current => recordThroughput current.server sample.mbps
  | none => recordDirect sample.mbps
  return {
    tunnelled := if s.current.isSome then some sample else none
    direct := if s.current.isNone then some sample else none
    server := s.current.map Connection.server
    minMbps
    meetsTarget := decide (minMbps ≤ sample.mbps)
    verdict := speedVerdict (s.current.map Connection.server) sample.mbps minMbps }

/-- Measure through the tunnel, then without it, then restore the tunnel. -/
def baseline : Daemon P SpeedReport := do
  let s ← self
  match s.current with
  | none => speedtest
  | some current =>
    let minMbps := s.config.autotune.minMbps
    let tunnelled ← measure s.throughputRequest
    recordThroughput current.server tunnelled.mbps
    disconnect
    let direct ← attempt (measure s.throughputRequest)
    let restored ← attempt (connect (some current.server) (some false))
    let direct ← lift direct
    let _ ← lift restored
    recordDirect direct.mbps
    return {
      tunnelled := some tunnelled
      direct := some direct
      server := some current.server
      minMbps
      meetsTarget := decide (minMbps ≤ tunnelled.mbps)
      verdict := baselineVerdict current.server tunnelled.mbps direct.mbps minMbps }

structure KillswitchReport where
  engaged : Bool
  configured : Bool
  dropped : Option Nat

/-- Run a call on the machine alone. -/
def onMachine (x : P.Machine → Except TunnelError Unit × P.Machine) : Daemon P Unit := fun w =>
  let (r, machine) := x w.machine
  (r.mapError .tunnel, { w with machine })

def State.setKillswitch (s : State P) (enabled : Bool) : State P :=
  { s with config := { s.config with killswitch := { s.config.killswitch with enabled } } }

/-- Turn the kill switch on or off. -/
def turnKillswitch : Option Bool → Daemon P Unit
  | some true => do
    let allowLan := (← self).config.killswitch.allowLan
    onMachine (P.engage allowLan (← nextEngage))
    modify fun s => s.setKillswitch true
  | some false => do
    onMachine (P.release (← nextRelease))
    modify fun s => s.setKillswitch false
  | none => pure ()

/-- Turn the kill switch on or off, or just report on it. -/
def killswitch (enable : Option Bool) : Daemon P KillswitchReport := do
  turnKillswitch enable
  let m ← read World.machine
  return {
    engaged := P.isEngaged m
    configured := (← self).config.killswitch.enabled
    dropped := P.dropped m }

/-- Drop what the filters no longer allow from the stored ranking and the proposal. -/
def State.applyFiltersToCachedResults (s : State P) : State P :=
  let rules := Ruleset.new s.config.filters
  { s with
    lastRanking := s.lastRanking.filter fun r => rules.accepts r.name r.countryCode r.load
    pending := s.pending.filter fun p => rules.accepts p.1.name p.1.countryCode p.1.load }

/-- The settings and credentials on disk. -/
def loadDisk : Daemon P (Config × ClientConfig) := do
  let disk ← nextDisk
  let config ← lift ((Config.load disk).mapError .load)
  let client ← lift ((Config.loadClientConfig disk config).mapError .load)
  return (config, client)

/-- Read the settings again. The list is forgotten so that fresh data meets the new filters. -/
def reload : Daemon P Unit := do
  let (config, client) ← loadDisk
  modify fun s => { s with config, client, servers := none }
  modify State.applyFiltersToCachedResults

/-- How long until the next scheduled pass, at a reading of the clock. Zero when one is due. -/
def State.timeUntilNextTune (s : State P) (t : Instant) : Duration :=
  let interval := s.config.autotune.interval
  match s.lastTuneAt with
  | none => min interval (.ofSecs 60)
  | some at_ => interval - (t - at_)

structure PendingSwitch where
  target : RankedServer
  reason : String
  ageSecs : Nat

structure TuneReport where
  summary : String
  switched : Bool
  nothingReachable : Bool
  pending : Option PendingSwitch

def pendingSwitch : Daemon P (Option PendingSwitch) := do
  match (← self).pending with
  | none => pure none
  | some (target, reason, at_) =>
    return some { target, reason, ageSecs := Duration.asSecs (← elapsed at_) }

/-- Park a proposal. Any other decision makes an earlier one stale. -/
def setPending : Decision → Daemon P Unit
  | .propose target reason => do
    let t ← now
    modify fun s => { s with pending := some (target, reason.describe, t) }
    emit (.proposed target.name)
  | _ => modify fun s => { s with pending := none }

/-- Fold a decision into the state and report it. -/
def record (decision : Decision) : Daemon P TuneReport := do
  setPending decision
  modify fun s => { s with lastTune := some decision.describe }
  return {
    summary := decision.describe
    switched := decision.isActionable
    nothingReachable := match decision with
      | .nothingReachable _ => true
      | _ => false
    pending := ← pendingSwitch }

/-- The server under an unexpired dismissal, if any. -/
def activeDismissal : Daemon P (Option String) := do
  match (← self).dismissed with
  | none => pure none
  | some (name, at_) => return if (← elapsed at_) < dismissalCooldown then some name else none

/-- What a pass observed, from the time of the current server and the ranking. -/
def assess (current : Connection) (currentRtt : Option F64) (ranked : List RankedServer) :
    Daemon P Assessment := do
  let declinedFrom ← activeDismissal
  let s ← self
  return {
    current := some {
      name := current.server
      rttMs := currentRtt
      score := (ranked.find? fun r => r.name = current.server).map RankedServer.score }
    best := ranked.head?
    probed := (s.lastSweep.map fun sweep => sweep.1.probed).getD ranked.length
    declinedFrom }

/-- Move if the decision says so. -/
def followDecision (decision : Decision) : Daemon P Unit := do
  match decision.isActionable, decision.target with
  | true, some target => let _ ← switch target.name
  | _, _ => pure ()

/-- The part of a pass that follows a current server found slow or silent. -/
def tuneDegraded (current : Connection) (currentRtt : Option F64) : Daemon P TuneReport := do
  match ← attempt (sweep none) with
  | .error (.allUnreachable probed) => record (.nothingReachable probed)
  | .error e => fail e
  | .ok ranked =>
    let decision := decide (← assess current currentRtt ranked) (← self).config.autotune
    followDecision decision
    record decision

/-- Whether a time is within the latency the configuration accepts. -/
def State.isFast (s : State P) (rttMs : Option F64) : Bool :=
  rttMs.any fun r => r ≤ F64.ofNat s.config.autotune.maxLatencyMs

/-- Check the current server, and only sweep if it is struggling. -/
def tune : Daemon P TuneReport := do
  match (← self).current with
  | none => record .notConnected
  | some current =>
    let currentRtt ← probeCurrent current.server
    match currentRtt, (← self).isFast currentRtt with
    | some rttMs, true => record (.healthy current.server rttMs)
    | _, _ => tuneDegraded current currentRtt

/-- One tuning pass, which notes its own time first. -/
def autotune : Daemon P TuneReport := do
  let t ← now
  modify fun s => { s with lastTuneAt := some t }
  tune

/-- The scheduler's re-check once it has slept: a pass, if one is due. -/
def scheduledPass : Daemon P (Option TuneReport) := do
  let t ← now
  if (← self).timeUntilNextTune t = 0 then return some (← autotune) else pure none

/-- Carry out the pending proposal. -/
def approve : Daemon P RankedServer := do
  match (← self).pending with
  | none => fail .noPendingSwitch
  | some (target, _, _) =>
    modify fun s => { s with pending := none }
    let moved ← switch target.name
    modify fun s => { s with lastTune := some ("switched to " ++ moved.name ++ " on approval") }
    pure moved

/-- Remember where the user chose to stay. -/
def rememberDismissal : Daemon P Unit := do
  match (← self).current with
  | some current =>
    let t ← now
    modify fun s => { s with dismissed := some (current.server, t) }
  | none => pure ()

/-- Drop the pending proposal without moving. -/
def dismiss : Daemon P String := do
  match (← self).pending with
  | none => fail .noPendingSwitch
  | some (target, _, _) =>
    modify fun s => { s with pending := none }
    rememberDismissal
    modify fun s =>
      { s with lastTune := some ("dismissed the proposal to move to " ++ target.name) }
    pure target.name

structure ServerSummary where
  name : String
  countryCode : String
  countryName : String
  location : String
  load : Nat
  users : Nat
  healthy : Bool
  headroomMbps : Nat

def Server.summary (s : Server) : ServerSummary where
  name := s.name
  countryCode := s.countryCode
  countryName := s.countryName
  location := s.location
  load := s.load
  users := s.users
  healthy := s.isHealthy
  headroomMbps := s.headroomMbps

/-- Known servers, narrowed by the configured filters unless `all` is set. -/
def servers (country : Option String) (limit : Option Nat) (all : Bool) :
    Daemon P (List ServerSummary) := do
  let wanted := country.map lower
  let filters := (← self).sweepFilters wanted
  let rules := Ruleset.new filters
  let list ← serverList
  let shown := list.servers.filter fun s =>
    if all then wanted.all fun c => Text.eqIgnoreAsciiCase s.countryCode c
    else s.isHealthy && rules.accepts s.name s.countryCode s.load
  let out := (shown.map Server.summary).insertionSort fun a b =>
    a.load < b.load ∨ (a.load = b.load ∧ a.name ≤ b.name)
  return match limit with
    | some n => out.take n
    | none => out

/-- The cached ranking, with rates as old as they are at a reading of the clock. -/
def State.lastRankingAt (s : State P) (t : Instant) (limit : Option Nat) : List RankedServer :=
  let out := s.lastRanking.map fun r =>
    match s.throughputSeen r.name with
    | some (mbps, at_) => { r with mbps := some mbps, mbpsAgeSecs := some (Duration.asSecs (t - at_)) }
    | none => r
  match limit with
  | some n => out.take n
  | none => out

theorem State.lastRankingAt_subset {s : State P} {t : Instant} {limit : Option Nat}
    {r : RankedServer} (h : r ∈ s.lastRankingAt t limit) : r ∈ s.lastRankingAt t none := by
  cases limit with
  | none => exact h
  | some n => exact List.mem_of_mem_take h

/-- What clients ask of the daemon, and the pass that its scheduler runs. Requests that only report
the state are left out. -/
inductive Op where
  | connect (server : Option String) (measure : Option Bool)
  | disconnect
  | switch (server : String)
  | test (country : Option String)
  | servers (country : Option String) (limit : Option Nat) (all : Bool)
  | reload
  | autotune
  | approve
  | dismiss
  | speedtest
  | baseline (confirm : Bool)
  | killswitch (enable : Option Bool)
  | scheduledPass
  deriving DecidableEq

/-- The world an operation leaves, whatever it returned. -/
def after {α : Type} (x : Daemon P α) (w : World P) : World P := (x w).2

/-- The re-check only reads the clock before it finds a pass due or not. -/
theorem scheduledPass_now (w : World P) : scheduledPass w =
    (if w.state.timeUntilNextTune (after now w).clock = 0 then return some (← autotune)
      else pure none : Daemon P (Option TuneReport)) (after now w) := rfl

theorem after_scheduledPass (w : World P) : after scheduledPass w =
    if w.state.timeUntilNextTune (after now w).clock = 0 then after autotune (after now w)
    else after now w := by
  rw [after, scheduledPass_now]
  split
  · exact bind_pure_snd _ _ _
  · rfl

/-- Carry out one operation. -/
def step (w : World P) : Op → World P
  | .connect server measure => after (Vpnmgr.connect server measure) w
  | .disconnect => after Vpnmgr.disconnect w
  | .switch server => after (Vpnmgr.switch server) w
  | .test country => after (sweep country) w
  | .servers country limit all => after (Vpnmgr.servers country limit all) w
  | .reload => after Vpnmgr.reload w
  | .autotune => after Vpnmgr.autotune w
  | .approve => after Vpnmgr.approve w
  | .dismiss => after Vpnmgr.dismiss w
  | .speedtest => after Vpnmgr.speedtest w
  | .baseline confirm => if confirm then after Vpnmgr.baseline w else w
  | .killswitch enable => after (Vpnmgr.killswitch enable) w
  | .scheduledPass => after Vpnmgr.scheduledPass w

/-- The state right after loading: nothing measured, nothing connected. -/
def State.loaded (config : Config) (client : ClientConfig) : State P := { config, client }

/-- A world in which the daemon has just been loaded from the files on disk. -/
structure Starts (w : World P) : Prop where
  loads : ∃ disk config client, Config.load disk = .ok config ∧
    Config.loadClientConfig disk config = .ok client ∧ w.state = .loaded config client
  events : w.events = []

/-- A world that some order of operations reaches from a start, each operation as `allowed` says. -/
def ReachableBy (allowed : World P → Op → Prop) (w : World P) : Prop :=
  ∃ start, Starts start ∧ Reaches step allowed start w

/-- A world that some order of operations reaches from a start. -/
def Reachable (w : World P) : Prop := ReachableBy (fun _ _ => True) w

/-- What holds at a start and is kept by every admitted operation holds wherever they lead. -/
theorem ReachableBy.holds {allowed : World P → Op → Prop} {I : World P → Prop}
    (hstart : ∀ w, Starts w → I w) (hstep : ∀ w op, allowed w op → I w → I (step w op))
    {w : World P} (h : ReachableBy allowed w) : I w := by
  obtain ⟨start, hs, hrun⟩ := h
  exact hrun.keeps hstep (hstart start hs)

/-! ### A daemon to run -/

namespace Sample

/-- The doubles nearest to the natural logarithms of 2 and 20, and straight lines between them. -/
def ln (q : ℚ) : ℚ :=
  if q ≤ 1 then q - 1
  else if q ≤ 2 then 0.6931471805599453 * (q - 1)
  else 0.6931471805599453 + (2.995732273553991 - 0.6931471805599453) / 18 * (q - 2)

def log : Logarithm where
  at_ := ln
  one := by norm_num [ln]
  increasing a b _ hab := by
    unfold ln
    split_ifs <;> nlinarith

/-- A server of the list, healthy and idle. -/
def server (name countryCode : String) (ip : BitVec 32) (alt : Option (BitVec 32)) : Server where
  name := name
  countryName := countryCode
  countryCode := countryCode
  location := countryCode
  bw := 0
  bwMax := 0
  users := 0
  load := 10
  health := .ok
  warning := none
  wgIpv4 := ip
  wgIpv4Alt := alt

/-- A network in which each endpoint answers every handshake alike, or none. -/
def network (reply : SocketAddr → Option Duration) : Network := fun _ _ endpoint _ =>
  match reply endpoint with
  | some rtt => .ok (rtt, .reachable)
  | none => .error .unreachable

theorem network_fixed (reply : SocketAddr → Option Duration) :
    (network reply).Fixed reply := fun _ _ _ _ => rfl

def installs : InstallFaults := ⟨fun _ => true, fun _ => true⟩

/-- A backend whose every call succeeds. -/
def linuxFaults : Faults (.linux log) where
  opens := fun _ => none
  ups := fun _ => { install := installs }
  switches := fun _ => none
  downs := fun _ => {}
  drops := fun _ => {}
  engages := fun _ => none
  releases := fun _ => none

/-- A backend that brings a tunnel up and cannot move it. -/
def stuckFaults : Faults (.linux log) :=
  { linuxFaults with switches := fun _ => some (.removePeer, "Device or resource busy") }

def windowsFaults : Faults (.windows log) where
  opens := fun _ => ()
  ups := fun _ => { install := installs }
  switches := fun _ => {}
  downs := fun _ => {}
  drops := fun _ => {}
  engages := fun _ => {}
  releases := fun _ => {}

/-- A world that gives the same answers for ever, with the clock standing still. -/
def outside (c : Config) (list : ServerList) (reply : SocketAddr → Option Duration)
    (faults : Faults P) : Outside P where
  pace := fun _ => 0
  fetch := fun _ => .fetched list
  network := fun _ => network reply
  download := fun _ _ => .error "timed out"
  trial := fun _ => { since := 0, polls := [], download := fun _ => .error "timed out" }
  surroundings := fun _ =>
    { defaultGateways := [], otherVpnRoutes := fun _ => [], resolve := fun _ => [] }
  disk := fun _ => disk c
  faults

def linuxMachine : LinuxMachine := { device := none, main := [], firewall := none }

def windowsMachine : Windows.Machine where
  wireguardExe := true
  adapter := none
  conf := none
  main := []
  firewall := { rules := [], outbound := fun _ => .notConfigured, restore := none }

def world (c : Config) (machine : P.Machine) (outside : Outside P) : World P where
  state := .loaded c (client c)
  machine
  clock := 0
  outside
  events := []

/-- A Linux machine with nothing set up, and an empty server list. -/
def idle : World (.linux log) :=
  world config linuxMachine (outside config ⟨[]⟩ (fun _ => none) linuxFaults)

/-- The replies of two servers, the first of them the faster. -/
def pairReply (a : SocketAddr) : Option Duration :=
  if a.ip = .v4 0x0a000001 then some (.ofMillis 20)
  else if a.ip = .v4 0x0a000002 then some (.ofMillis 30)
  else none

def pairList : ServerList :=
  ⟨[server "Achernar" "nl" 0x0a000001 none, server "Bellatrix" "nl" 0x0a000002 none]⟩

/-- Two servers that answer probes and then carry no traffic. -/
def pair (faults : Faults (.linux log)) : World (.linux log) :=
  world config linuxMachine (outside config pairList pairReply faults)

/-- The same on Windows. -/
def windowsPair (faults : Faults (.windows log)) : World (.windows log) :=
  world config windowsMachine (outside config pairList pairReply faults)

/-- Settings that pass every check, and name no preshared key, are loaded as they stand. -/
theorem world_starts {c : Config} (hc : c.validate = .ok ())
    (hkey : c.provider.airvpn.presharedKeyFile = none) (machine : P.Machine)
    (outside : Outside P) : Starts (world c machine outside) where
  loads := by
    refine ⟨disk c, c, client c, ?_, ?_, rfl⟩
    · simp [Config.load, disk, hc]
    · simp [Config.loadClientConfig, disk, hkey, client]
      rfl
  events := rfl

theorem idle_starts : Starts idle := world_starts config_valid rfl _ _

end Sample

end Vpnmgr
