import Vpnmgr.Tunnel.Killswitch
import Vpnmgr.Library.Action

/-! The Linux tunnel: bringing the interface up, moving its peer, tearing it down, and what is left
when one of the commands fails. -/

namespace Vpnmgr

open Text Stateful Stateful.Action

/-- Firewall mark of the interface and of probe sockets. -/
def defaultFwmark : Nat := 51820

def defaultInterface : String := "vpnmgr0"

inductive TunnelError where
  | wireguard (operation interface source : String)
  | permissionDenied (operation interface : String)
  | notUp
  | badInterfaceName (name reason : String)
  | killswitch (operation source : String)
  deriving DecidableEq

/-- Everything needed to bring up or retarget a tunnel. -/
structure TunnelSpec where
  interface : String := defaultInterface
  client : ClientConfig
  endpoint : SocketAddr
  fwmark : Nat := defaultFwmark

/-- Reject names the kernel will not accept. -/
def TunnelSpec.validate (spec : TunnelSpec) : Except TunnelError Unit :=
  let name := spec.interface
  if name = "" then .error (.badInterfaceName name "it is empty")
  else if 16 ≤ name.utf8ByteSize then
    .error (.badInterfaceName name "Linux limits interface names to 15 characters")
  else if ¬name.toList.all (fun c => c.isAlphanum || c == '-' || c == '_') then
    .error (.badInterfaceName name "only letters, digits, '-' and '_' are allowed")
  else .ok ()

/-- Map a backend error, with permission failures in a variant of their own. -/
def wgErr (operation interface source : String) : TunnelError :=
  if hasText source "Operation not permitted" ∨ hasText source "permission denied" ∨
      hasText source "Permission denied" then .permissionDenied operation interface
  else .wireguard operation interface source

/-- A peer, the same for every server but for the endpoint. -/
structure Peer where
  publicKey : PublicKey
  endpoint : SocketAddr
  presharedKey : Option SecretKey
  persistentKeepalive : Option Nat
  allowedIps : List Cidr
  deriving DecidableEq

/-- The interface settings that are applied together. Port 0 asks for a fresh one. -/
structure InterfaceConfiguration where
  privateKey : SecretKey
  addresses : List Cidr
  port : Nat
  mtu : Option Nat
  fwmark : Nat
  deriving DecidableEq

/-- A WireGuard interface, its peers with the last programmed first. -/
structure Device where
  config : Option InterfaceConfiguration := none
  peers : List Peer := []
  policyRoutes : List Cidr := []
  dns : Option (List IpAddr × List String) := none
  deriving DecidableEq

/-- The kill switch's table, as it was installed. -/
structure NftTable where
  ruleset : Killswitch
  dropped : Nat
  deriving DecidableEq

/-- The parts of a Linux machine that the tunnel writes. -/
structure LinuxMachine where
  device : Option Device
  main : RouteTable
  firewall : Option NftTable
  deriving DecidableEq

structure LinuxTunnel where
  interface : String
  created : Bool
  killswitch : Option Killswitch
  bypass : Bypass
  bypassPlan : List Route
  deriving DecidableEq

namespace Linux

/-- `Killswitch::engage`: the table is replaced as one transaction, or not at all. -/
def engage (k : Killswitch) (fault : Option String) (m : LinuxMachine) :
    Except TunnelError Unit × LinuxMachine :=
  match fault with
  | some e => (.error (.killswitch "engaging" e), m)
  | none => (.ok (), { m with firewall := some ⟨k, 0⟩ })

/-- `Killswitch::release`, which succeeds when no table was installed. -/
def release (fault : Option String) (m : LinuxMachine) : Except TunnelError Unit × LinuxMachine :=
  match fault with
  | some e => (.error (.killswitch "releasing" e), m)
  | none => (.ok (), { m with firewall := none })

inductive BringUpStep where
  | createInterface
  | configureInterface
  | configurePeerRouting
  | configureDns
  deriving DecidableEq

inductive RetargetStep where
  | removePeer
  | rotateListenPort
  | configurePeer
  | configurePeerRouting
  deriving DecidableEq

/-- How the commands of `up` fare: the step at which it fails and the text of the failure, and what
the cleanup after a failure manages. -/
structure UpFault where
  install : InstallFaults
  engage : Option String := none
  bringUp : Option (BringUpStep × String) := none
  deleted : Route → Bool := fun _ => true
  release : Option String := none

/-- How the commands of `down`, or of dropping the tunnel, fare. -/
structure TeardownFault where
  removeInterface : Option String := none
  deleted : Route → Bool := fun _ => true
  release : Option String := none

/-- A tunnel handle, its machine, and an error. -/
abbrev Backend := Action (LinuxTunnel × LinuxMachine) TunnelError

/-- Carry out one command, unless the fault names it. -/
def command {step : Type} [DecidableEq step] (fault : Option (step × String)) (name : step)
    (operation : String) (effect : LinuxTunnel × LinuxMachine → LinuxTunnel × LinuxMachine) :
    Backend Unit := fun s =>
  match fault with
  | some (failing, e) =>
    if failing = name then (.error (wgErr operation s.1.interface e), s) else (.ok (), effect s)
  | none => (.ok (), effect s)

/-- Change the interface, where there is one. -/
def onDevice (f : Device → Device) (s : LinuxTunnel × LinuxMachine) : LinuxTunnel × LinuxMachine :=
  (s.1, { s.2 with device := s.2.device.map f })

def peer (spec : TunnelSpec) : Peer where
  publicKey := spec.client.peerPublicKey
  endpoint := spec.endpoint
  presharedKey := spec.client.presharedKey
  persistentKeepalive := spec.client.persistentKeepalive
  allowedIps := spec.client.allowedIps

def interfaceConfiguration (spec : TunnelSpec) : InterfaceConfiguration where
  privateKey := spec.client.privateKey
  addresses := spec.client.addresses
  port := 0
  mtu := spec.client.mtu
  fwmark := spec.fwmark

def Device.removePeer (key : PublicKey) (d : Device) : Device :=
  { d with peers := d.peers.filter fun p => p.publicKey ≠ key }

def Device.configurePeer (p : Peer) (d : Device) : Device :=
  { d with peers := p :: d.peers.filter fun q => q.publicKey ≠ p.publicKey }

/-- Apply interface settings, which flushes the policy routes. -/
def Device.configureInterface (c : InterfaceConfiguration) (d : Device) : Device :=
  { d with config := some c, policyRoutes := [] }

def Device.configurePeerRouting (p : Peer) (d : Device) : Device :=
  { d with policyRoutes := p.allowedIps }

def bringUp (spec : TunnelSpec) (fault : Option (BringUpStep × String)) : Backend Unit := do
  command fault .createInterface "creating the interface" fun s =>
    ({ s.1 with created := true }, { s.2 with device := some (s.2.device.getD {}) })
  command fault .configureInterface "configuring the interface" <| onDevice fun d =>
    Device.configurePeer (peer spec) (Device.configureInterface (interfaceConfiguration spec) d)
  command fault .configurePeerRouting "installing routes" <| onDevice
    (Device.configurePeerRouting (peer spec))
  if spec.client.dns ≠ [] ∨ spec.client.searchDomains ≠ [] then
    command fault .configureDns "configuring DNS" <| onDevice fun d =>
      { d with dns := some (spec.client.dns, spec.client.searchDomains) }

/-- Engage the tunnel's kill switch, told what the bypass diverted. -/
def engageOwn (fault : Option String) : Backend Unit := fun s =>
  match s.1.killswitch with
  | none => (.ok (), s)
  | some k =>
    let (r, m) := engage (k.allowing s.1.bypass.destinations) fault s.2
    (r, s.1, m)

def installPlan (f : InstallFaults) (s : LinuxTunnel × LinuxMachine) : LinuxTunnel × LinuxMachine :=
  let (bypass, main) := s.1.bypass.install f s.1.bypassPlan s.2.main
  ({ s.1 with bypass, bypassPlan := [] }, { s.2 with main })

def removeRoutes (deleted : Route → Bool) (s : LinuxTunnel × LinuxMachine) :
    LinuxTunnel × LinuxMachine :=
  let (bypass, main) := s.1.bypass.remove deleted s.2.main
  ({ s.1 with bypass }, { s.2 with main })

/-- Release the kill switch if the tunnel has one, whatever comes of it. -/
def releaseOwn (fault : Option String) (s : LinuxTunnel × LinuxMachine) :
    LinuxTunnel × LinuxMachine :=
  if s.1.killswitch.isSome then (s.1, (release fault s.2).2) else s

/-- Bypass routes first, then the kill switch, then the interface. A failure to bring the interface
up withdraws the routes and releases the kill switch. -/
def up (spec : TunnelSpec) (f : UpFault) : Backend Unit := do
  lift spec.validate
  update (installPlan f.install)
  engageOwn f.engage
  match ← attempt (bringUp spec f.bringUp) with
  | .ok () => pure ()
  | .error e =>
    update fun s => releaseOwn f.release (removeRoutes f.deleted s)
    fail e

/-- Forget the old session, rotate the listen port, add the peer again, reinstall its routes. -/
def retarget (spec : TunnelSpec) (fault : Option (RetargetStep × String)) : Backend Unit := do
  command fault .removePeer "clearing the previous session" <| onDevice
    (Device.removePeer spec.client.peerPublicKey)
  command fault .rotateListenPort "rotating the listen port" <| onDevice
    (Device.configureInterface (interfaceConfiguration spec))
  command fault .configurePeer "retargeting the peer" <| onDevice
    (Device.configurePeer (peer spec))
  command fault .configurePeerRouting "reinstalling routes" <| onDevice
    (Device.configurePeerRouting (peer spec))

def switchEndpoint (spec : TunnelSpec) (fault : Option (RetargetStep × String)) : Backend Unit :=
  retarget spec fault

/-- Remove the interface, unless that fails. -/
def removeInterface (fault : Option String) (s : LinuxTunnel × LinuxMachine) :
    Except TunnelError Unit × LinuxMachine :=
  match fault with
  | some e => (.error (wgErr "removing the interface" s.1.interface e), s.2)
  | none => (.ok (), { s.2 with device := none })

/-- Remove the interface, then the routes, then the kill switch; a release that fails hides the
result of the removal. -/
def down (f : TeardownFault) : Backend Unit := fun s =>
  let (result, m) := removeInterface f.removeInterface s
  let (t, m) := removeRoutes f.deleted ({ s.1 with created := false }, m)
  if t.killswitch.isSome then
    match release f.release m with
    | (.error e, m) => (.error e, t, m)
    | (.ok (), m) => (result, t, m)
  else (result, t, m)

/-- `Drop`: the interface if it was created, the kill switch if there is one, then the routes. -/
def drop (f : TeardownFault) (t : LinuxTunnel) (m : LinuxMachine) : LinuxMachine :=
  let m := if t.created then (removeInterface f.removeInterface (t, m)).2 else m
  (removeRoutes f.deleted (releaseOwn f.release (t, m))).2

/-- `LinuxTunnel::new`. -/
def new (interface : String) (fault : Option String) : Except TunnelError LinuxTunnel :=
  match fault with
  | some e => .error (wgErr "open" interface e)
  | none =>
    .ok { interface, created := false, killswitch := none, bypass := Bypass.new, bypassPlan := [] }

def withBypass (plan : List Route) (t : LinuxTunnel) : LinuxTunnel := { t with bypassPlan := plan }

def withKillswitch (k : Killswitch) (t : LinuxTunnel) : LinuxTunnel :=
  { t with killswitch := some k }

/-- The endpoint last programmed for a peer of the interface. -/
def programmed (m : LinuxMachine) : Option SocketAddr :=
  (m.device.bind (·.peers.head?)).map Peer.endpoint

end Linux

end Vpnmgr
