import Vpnmgr.Tunnel.Linux
import Vpnmgr.Tunnel.KillswitchWindows

/-! The Windows tunnel: a tunnel service installed from a configuration file, the commands that
retarget it, and what is left when one of them fails. -/

namespace Vpnmgr

open Text Stateful Stateful.Action

namespace Windows

/-- A program that failed or did not run. -/
structure CommandError where
  program : String
  status : Option Int
  stderr : String
  deriving DecidableEq

/-- Whether this looks like a privilege problem. -/
def CommandError.denied (e : CommandError) : Bool :=
  let s := toAsciiLowercase e.stderr
  hasText s "access is denied" || hasText s "administrator" || hasText s "elevat" ||
    e.status == some 5

def CommandError.display (e : CommandError) : String :=
  e.program ++ (match e.status with
    | some code => s!" exited {code}"
    | none => " did not run") ++
    (if trim e.stderr = "" then "" else ": " ++ trim e.stderr)

def classify (operation interface : String) (e : CommandError) : TunnelError :=
  if e.denied then .permissionDenied operation interface
  else .wireguard operation interface e.display

/-- The parts of a Windows machine that the tunnel writes: the peers of the service's adapter with
the last programmed first, and the configuration file it is installed from. -/
structure Machine where
  wireguardExe : Bool
  adapter : Option (List Peer)
  conf : Option (ClientConfig × SocketAddr)
  main : RouteTable
  firewall : Firewall

structure Tunnel where
  interface : String
  installed : Bool
  bypassPlan : List Route
  bypass : Bypass
  killswitch : Option Killswitch
  deriving DecidableEq

/-- How the commands of writing the configuration fare. -/
structure ConfFault where
  createDir : Option String := none
  write : Option String := none

structure UpFault where
  removeService : Option CommandError := none
  install : InstallFaults
  conf : ConfFault := {}
  installService : Option CommandError := none
  engage : EngageFault := {}

structure SwitchFault where
  setEndpoint : Option CommandError := none
  conf : ConfFault := {}

structure DownFault where
  removeService : Option CommandError := none
  release : ReleaseFault := {}
  deleted : Route → Bool := fun _ => true
  removeConf : Bool := true

/-- Dropping a tunnel brings it down if it is installed, and drops its bypass after that. -/
structure DropFault where
  down : DownFault := {}
  deleted : Route → Bool := fun _ => true

abbrev Backend := Action (Tunnel × Machine) TunnelError

/-- A copy of the credentials whose default routes are expressed as two halves. -/
def splitDefaultRoutes (client : ClientConfig) : ClientConfig :=
  { client with
    allowedIps := client.allowedIps.flatMap fun c =>
      match c.addr, c.prefixLen with
      | .v4 0, 0 => [⟨.v4 0, 1, by decide⟩, ⟨.v4 (BitVec.twoPow 32 31), 1, by decide⟩]
      | .v6 0, 0 => [⟨.v6 0, 1, by decide⟩, ⟨.v6 (BitVec.twoPow 128 127), 1, by decide⟩]
      | _, _ => [c] }

/-- Write the file the tunnel service reads. -/
def writeConfig (spec : TunnelSpec) (f : ConfFault) : Backend Unit := fun s =>
  match f.createDir, f.write with
  | some e, _ => (.error (.killswitch "creating the configuration directory" e), s)
  | none, some e => (.error (.killswitch "writing the tunnel configuration" e), s)
  | none, none =>
    let client :=
      if s.1.bypass.isEmpty then spec.client else splitDefaultRoutes spec.client
    (.ok (), s.1, { s.2 with conf := some (client, spec.endpoint) })

/-- Run a program and apply its effect, unless it fails. -/
def run (operation : String) (fault : Option CommandError) (effect : Machine → Machine) :
    Backend Unit := fun s =>
  match fault with
  | some e => (.error (classify operation s.1.interface e), s)
  | none => (.ok (), s.1, effect s.2)

/-- The peer that a configuration file describes. -/
def confPeer (conf : ClientConfig × SocketAddr) : Peer where
  publicKey := conf.1.peerPublicKey
  endpoint := conf.2
  presharedKey := conf.1.presharedKey
  persistentKeepalive := conf.1.persistentKeepalive
  allowedIps := conf.1.allowedIps

/-- Set the endpoint of a peer, adding the peer if there is none of that key. -/
def setEndpoint (key : PublicKey) (endpoint : SocketAddr) (peers : List Peer) : List Peer :=
  let peer := (peers.find? fun p => p.publicKey = key).getD
    { publicKey := key, endpoint, presharedKey := none, persistentKeepalive := none,
      allowedIps := [] }
  { peer with endpoint } :: peers.filter fun p => p.publicKey ≠ key

def removeService (fault : Option CommandError) : Backend Unit :=
  run "removing the tunnel service" fault fun m => { m with adapter := none }

def installPlan (f : InstallFaults) (s : Tunnel × Machine) : Tunnel × Machine :=
  let (bypass, main) := s.1.bypass.install f s.1.bypassPlan s.2.main
  ({ s.1 with bypass, bypassPlan := [] }, { s.2 with main })

def removeRoutes (deleted : Route → Bool) (s : Tunnel × Machine) : Tunnel × Machine :=
  let (bypass, main) := s.1.bypass.remove deleted s.2.main
  ({ s.1 with bypass }, { s.2 with main })

/-- `Killswitch::engage` on the machine. -/
def engage (k : Killswitch) (f : EngageFault) (m : Machine) :
    Except TunnelError Unit × Machine :=
  let (r, firewall) := k.engage f m.adapter.isSome m.firewall
  (r.mapError (.killswitch "engaging"), { m with firewall })

/-- `Killswitch::release` on the machine. -/
def releaseFirewall (f : ReleaseFault) (m : Machine) : Except TunnelError Unit × Machine :=
  let (r, firewall) := release f m.firewall
  (r.mapError (.killswitch "releasing"), { m with firewall })

/-- Engage the tunnel's kill switch; a failed engagement forgets it. -/
def engageOwn (f : EngageFault) : Backend Unit := fun s =>
  match s.1.killswitch with
  | none => (.ok (), s)
  | some k =>
    let k := k.allowing s.1.bypass.destinations
    match engage k f s.2 with
    | (.ok (), m) => (.ok (), { s.1 with killswitch := some k }, m)
    | (.error e, m) => (.error e, { s.1 with killswitch := none }, m)

/-- Remove a service left over from an unclean shutdown, as far as that succeeds. -/
def removeLeftover (fault : Option CommandError) : Backend Unit := fun s =>
  if s.2.adapter.isSome then (.ok (), (removeService fault s).2) else (.ok (), s)

/-- Bypass routes and the configuration file first, then the service, then the kill switch. -/
def up (spec : TunnelSpec) (f : UpFault) : Backend Unit := do
  lift spec.validate
  removeLeftover f.removeService
  update (installPlan f.install)
  writeConfig spec f.conf
  run "installing the tunnel service" f.installService fun m =>
    { m with adapter := some ((m.conf.map confPeer).toList) }
  engageOwn f.engage
  update fun s => ({ s.1 with installed := true }, s.2)

/-- Set the endpoint of the running adapter, then move the configuration file along. The listen
port is rotated between the two, as far as that succeeds. -/
def switchEndpoint (spec : TunnelSpec) (f : SwitchFault) : Backend Unit := do
  lift spec.validate
  run "retargeting the peer" f.setEndpoint fun m =>
    { m with adapter := m.adapter.map (setEndpoint spec.client.peerPublicKey spec.endpoint) }
  writeConfig spec f.conf

/-- Release the kill switch if the tunnel has one. -/
def releaseOwn (f : ReleaseFault) : Backend Unit := fun s =>
  if s.1.killswitch.isSome then
    let (r, m) := releaseFirewall f s.2
    (r, s.1, m)
  else (.ok (), s)

/-- The service first, then the kill switch, then the routes and the configuration file. -/
def down (f : DownFault) : Backend Unit := do
  removeService f.removeService
  releaseOwn f.release
  update fun s =>
    let (t, m) := removeRoutes f.deleted s
    ({ t with installed := false }, { m with conf := if f.removeConf then none else m.conf })

/-- `Drop`. -/
def drop (f : DropFault) (t : Tunnel) (m : Machine) : Machine :=
  let s := if t.installed then (down f.down (t, m)).2 else (t, m)
  (removeRoutes f.deleted s).2

/-- `WindowsTunnel::new`. -/
def new (interface : String) (m : Machine) : Except TunnelError Tunnel :=
  if m.wireguardExe then
    .ok { interface, installed := false, bypassPlan := [], bypass := Bypass.new,
          killswitch := none }
  else
    .error (.wireguard "locating wireguard.exe" interface
      ("C:\\Program Files\\WireGuard\\wireguard.exe not found. Install WireGuard for Windows " ++
        "(winget install WireGuard.WireGuard)"))

def withBypass (plan : List Route) (t : Tunnel) : Tunnel := { t with bypassPlan := plan }

def withKillswitch (k : Killswitch) (t : Tunnel) : Tunnel := { t with killswitch := some k }

/-- The endpoint last programmed for a peer of the adapter. -/
def programmed (m : Machine) : Option SocketAddr :=
  (m.adapter.bind List.head?).map Peer.endpoint

end Windows

end Vpnmgr
