import Vpnmgr.Daemon.Tuner
import Vpnmgr.Probe
import Vpnmgr.Tunnel.Platform

/-! The daemon's state, the machine and the world around it, and the draws by which an operation
learns what the world answers. -/

namespace Vpnmgr

open Ieee Stateful Stateful.Action

/-- A reading of the monotonic clock. -/
abbrev Instant := Nat

/-- A reading of the wall clock. -/
abbrev SystemTime := Nat

/-- How long the server list is reused before refetching. -/
def serverCacheTtl : Duration := .ofSecs 300

/-- How long a dismissed proposal stays dismissed. -/
def dismissalCooldown : Duration := .ofSecs (4 * 60 * 60)

/-- How long to wait for a retargeted tunnel to complete a handshake. -/
def candidateReadyTimeout : Duration := .ofSecs 30

/-- What the daemon is currently connected to. -/
structure Connection where
  server : String
  location : String
  countryCode : String
  endpoint : SocketAddr
  entry : Nat
  deriving DecidableEq

def Connection.of (s : RankedServer) : Connection where
  server := s.name
  location := s.location
  countryCode := s.countryCode
  endpoint := s.endpoint
  entry := s.entry

structure SweepSummary where
  probed : Nat
  reachable : Nat
  elapsedMs : Nat
  ageSecs : Nat
  best : Option RankedServer
  allUnreachable : Bool

structure State (P : Platform) where
  config : Config
  client : ClientConfig
  servers : Option (ServerList × Instant) := none
  tunnel : Option P.Tunnel := none
  current : Option Connection := none
  lastSweep : Option (SweepSummary × Instant) := none
  lastRanking : List RankedServer := []
  pending : Option (RankedServer × String × Instant) := none
  dismissed : Option (String × Instant) := none
  throughputSeen : String → Option (F64 × Instant) := fun _ => none
  directMbps : Option (F64 × Instant) := none
  lastTune : Option String := none
  lastTuneAt : Option Instant := none

inductive Error where
  | load (error : LoadError)
  | fetch (reason : String)
  | tunnel (error : TunnelError)
  | notConnected
  | alreadyConnected (server : String)
  | unknownServer (name : String)
  | serverUnreachable (server : String)
  | allUnreachable (probed : Nat)
  | noCandidates (summary : String)
  | noPendingSwitch
  | throughput (reason : String)
  | consentRequired
  deriving DecidableEq

/-- What became of one request for the server list. -/
inductive Fetch where
  /-- The HTTP client itself could not be built. -/
  | noClient (reason : String)
  | failed (reason : String)
  | fetched (list : ServerList)

/-- What is downloaded to measure throughput. -/
structure ThroughputRequest where
  url : String
  bytes : Nat
  timeout : Duration

structure SpeedSample where
  mbps : F64
  bytes : Nat
  elapsedMs : Nat
  truncated : Bool
  deriving DecidableEq

/-- How a download to measure throughput ends. -/
abbrev Download := ThroughputRequest → Except String SpeedSample

/-- One look at the tunnel while waiting for it to carry traffic: the time waited so far, and the
last handshake if the status could be read. -/
structure Poll where
  waited : Duration
  lastHandshake : Option SystemTime

/-- How the trial of one candidate goes: the time it starts at, the looks at the tunnel after it is
pointed there, and the measurement. -/
structure Trial where
  since : SystemTime
  polls : List Poll
  download : Download

/-- How the calls of the backend fare, each kind in the order the calls are made. -/
structure Faults (P : Platform) where
  opens : Nat → P.OpenFault
  ups : Nat → P.UpFault
  switches : Nat → P.SwitchFault
  downs : Nat → P.DownFault
  drops : Nat → P.DropFault
  engages : Nat → P.EngageFault
  releases : Nat → P.ReleaseFault

/-- What the world answers, each answer in the order it is asked for. -/
structure Outside (P : Platform) where
  pace : Nat → Duration
  fetch : Nat → Fetch
  network : Nat → Network
  download : Nat → Download
  trial : Nat → Trial
  surroundings : Nat → Surroundings
  disk : Nat → Disk
  faults : Faults P

/-- What happened to the connection and to the proposal, for stating what came after what. -/
inductive Event where
  | up (endpoint : SocketAddr)
  | switched (endpoint : SocketAddr)
  | down
  | proposed (server : String)
  deriving DecidableEq

/-- The daemon, its machine, the clock, the answers still to come, and the events so far with the
latest first. -/
structure World (P : Platform) where
  state : State P
  machine : P.Machine
  clock : Instant
  outside : Outside P
  events : List Event

/-- An operation of the daemon. -/
abbrev Daemon (P : Platform) := Action (World P) Error

variable {P : Platform} {α : Type}

/-- The answers after the first one. -/
def later (answers : Nat → α) : Nat → α := fun n => answers (n + 1)

/-- Take the next answer of one kind. -/
def draw (get : Outside P → Nat → α) (put : (Nat → α) → Outside P → Outside P) : Daemon P α :=
  fun w => (.ok (get w.outside 0), { w with outside := put (later (get w.outside)) w.outside })

/-- `Instant::now`: the clock has moved on since it was read last. -/
def now : Daemon P Instant := fun w =>
  let t := w.clock + w.outside.pace 0
  (.ok t, { w with clock := t, outside := { w.outside with pace := later w.outside.pace } })

/-- The time since an earlier reading. -/
def elapsed (at_ : Instant) : Daemon P Duration := do return (← now) - at_

def nextFetch : Daemon P Fetch := draw Outside.fetch fun a o => { o with fetch := a }

def nextNetwork : Daemon P Network := draw Outside.network fun a o => { o with network := a }

def nextDownload : Daemon P Download := draw Outside.download fun a o => { o with download := a }

def nextTrial : Daemon P Trial := draw Outside.trial fun a o => { o with trial := a }

def nextSurroundings : Daemon P Surroundings :=
  draw Outside.surroundings fun a o => { o with surroundings := a }

def nextDisk : Daemon P Disk := draw Outside.disk fun a o => { o with disk := a }

def nextOpen : Daemon P P.OpenFault :=
  draw (·.faults.opens) fun a o => { o with faults.opens := a }

def nextUp : Daemon P P.UpFault :=
  draw (·.faults.ups) fun a o => { o with faults.ups := a }

def nextSwitch : Daemon P P.SwitchFault :=
  draw (·.faults.switches) fun a o => { o with faults.switches := a }

def nextDown : Daemon P P.DownFault :=
  draw (·.faults.downs) fun a o => { o with faults.downs := a }

def nextDrop : Daemon P P.DropFault :=
  draw (·.faults.drops) fun a o => { o with faults.drops := a }

def nextEngage : Daemon P P.EngageFault :=
  draw (·.faults.engages) fun a o => { o with faults.engages := a }

def nextRelease : Daemon P P.ReleaseFault :=
  draw (·.faults.releases) fun a o => { o with faults.releases := a }

/-- The daemon's own state. -/
def self : Daemon P (State P) := read World.state

/-- Change the daemon's own state. -/
def modify (f : State P → State P) : Daemon P Unit := update fun w => { w with state := f w.state }

def emit (e : Event) : Daemon P Unit := update fun w => { w with events := e :: w.events }

/-- Run a call of the backend on a tunnel and the machine. -/
def call (tunnel : P.Tunnel) (x : Action (P.Tunnel × P.Machine) TunnelError Unit) :
    Daemon P (Except TunnelError Unit × P.Tunnel) := fun w =>
  let (r, tunnel, machine) := x (tunnel, w.machine)
  (.ok (r, tunnel), { w with machine })

/-- Drop a tunnel value. -/
def dropTunnel (tunnel : P.Tunnel) : Daemon P Unit := do
  let fault ← nextDrop
  update fun w => { w with machine := P.drop fault tunnel w.machine }

end Vpnmgr
