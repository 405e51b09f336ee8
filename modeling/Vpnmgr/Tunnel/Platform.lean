import Vpnmgr.Tunnel.Windows
import Vpnmgr.Library.Ieee

/-! What the daemon is built against: one tunnel backend with its kill switch, and a logarithm. -/

namespace Vpnmgr

open Stateful

/-- A tunnel backend and a kill switch, the faults their calls may meet, and what can be observed of
the machine they work on. -/
structure Platform where
  log : Ieee.Logarithm
  Machine : Type
  Tunnel : Type
  OpenFault : Type
  UpFault : Type
  SwitchFault : Type
  DownFault : Type
  DropFault : Type
  EngageFault : Type
  ReleaseFault : Type
  new : OpenFault → Machine → Except TunnelError Tunnel
  withBypass : List Route → Tunnel → Tunnel
  /-- A kill switch for the default interface and mark, by whether it allows the LAN. -/
  withKillswitch : Bool → Tunnel → Tunnel
  up : TunnelSpec → UpFault → Action (Tunnel × Machine) TunnelError Unit
  switchEndpoint : TunnelSpec → SwitchFault → Action (Tunnel × Machine) TunnelError Unit
  down : DownFault → Action (Tunnel × Machine) TunnelError Unit
  drop : DropFault → Tunnel → Machine → Machine
  engage : Bool → EngageFault → Machine → Except TunnelError Unit × Machine
  release : ReleaseFault → Machine → Except TunnelError Unit × Machine
  isEngaged : Machine → Bool
  /-- The kill switch is engaged, and what it does not let out is blocked. -/
  Enforces : Machine → Prop
  dropped : Machine → Option Nat
  /-- The endpoint last programmed for a peer of the tunnel. -/
  programmed : Machine → Option SocketAddr
  destinations : Tunnel → List String
  /-- Whether the machine's firewall lets every packet to a destination out. -/
  LetsOut : Machine → String → Prop

/-- The daemon built for Linux. -/
def Platform.linux (log : Ieee.Logarithm) : Platform where
  log
  Machine := LinuxMachine
  Tunnel := LinuxTunnel
  OpenFault := Option String
  UpFault := Linux.UpFault
  SwitchFault := Option (Linux.RetargetStep × String)
  DownFault := Linux.TeardownFault
  DropFault := Linux.TeardownFault
  EngageFault := Option String
  ReleaseFault := Option String
  new := fun f _ => Linux.new defaultInterface f
  withBypass := Linux.withBypass
  withKillswitch := fun allowLan =>
    Linux.withKillswitch (.new defaultInterface defaultFwmark allowLan)
  up := Linux.up
  switchEndpoint := Linux.switchEndpoint
  down := Linux.down
  drop := Linux.drop
  engage := fun allowLan => Linux.engage (.new defaultInterface defaultFwmark allowLan)
  release := Linux.release
  isEngaged := fun m => m.firewall.isSome
  Enforces := fun m => m.firewall.isSome = true
  dropped := fun m => m.firewall.map NftTable.dropped
  programmed := Linux.programmed
  destinations := fun t => t.bypass.destinations
  LetsOut := fun m d => ∀ table, m.firewall = some table → table.ruleset.LetsOut d

/-- The daemon built for Windows. -/
def Platform.windows (log : Ieee.Logarithm) : Platform where
  log
  Machine := Windows.Machine
  Tunnel := Windows.Tunnel
  OpenFault := Unit
  UpFault := Windows.UpFault
  SwitchFault := Windows.SwitchFault
  DownFault := Windows.DownFault
  DropFault := Windows.DropFault
  EngageFault := Windows.EngageFault
  ReleaseFault := Windows.ReleaseFault
  new := fun _ m => Windows.new defaultInterface m
  withBypass := Windows.withBypass
  withKillswitch := fun allowLan =>
    Windows.withKillswitch (.new defaultInterface defaultFwmark allowLan)
  up := Windows.up
  switchEndpoint := Windows.switchEndpoint
  down := Windows.down
  drop := Windows.drop
  engage := fun allowLan => Windows.engage (.new defaultInterface defaultFwmark allowLan)
  release := Windows.releaseFirewall
  isEngaged := fun m => m.firewall.isEngaged
  Enforces := fun m => m.firewall.Enforces
  dropped := fun _ => none
  programmed := Windows.programmed
  destinations := fun t => t.bypass.destinations
  LetsOut := fun m d => m.firewall.LetsOut d

end Vpnmgr
