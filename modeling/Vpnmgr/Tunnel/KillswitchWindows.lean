import Vpnmgr.Tunnel.Bypass

/-! The Windows kill switch: a script of firewall statements that may stop at any of them, its
rollback, and which packets the firewall lets out. -/

namespace Vpnmgr

open Text

namespace Windows

/-- A firewall profile. -/
inductive Profile where
  | domainNet
  | privateNet
  | publicNet
  deriving DecidableEq, Repr, Inhabited

/-- What a profile does with outbound traffic that no rule names. -/
inductive DefaultAction where
  | allow
  | block
  | notConfigured
  deriving DecidableEq, Repr

/-- What an allowing rule is restricted to. -/
inductive Scope where
  | interfaceAlias (name : String)
  | udpRemotePort (ports : List Nat)
  | remoteAddress (set : List String)
  deriving DecidableEq

/-- An outbound allowing rule of the `vpnmgr` group. -/
structure AllowRule where
  name : String
  scope : Scope
  deriving DecidableEq

/-- The outbound firewall: the rules of the group, the default of each profile, and the file that
records the defaults from before. -/
structure Firewall where
  rules : List AllowRule
  outbound : Profile → DefaultAction
  restore : Option (Profile → DefaultAction)

/-- A packet about to leave through an adapter, under the adapter's profile. -/
structure OutboundPacket where
  adapter : String
  profile : Profile
  dst : IpAddr
  udpRemotePort : Option Nat

def Scope.hits (p : OutboundPacket) : Scope → Bool
  | interfaceAlias name => p.adapter == name
  | udpRemotePort ports => p.udpRemotePort.any ports.contains
  | remoteAddress set => set.any (covers · p.dst)

namespace Firewall

/-- An allowing rule lets a packet out; without one the profile's default decides. -/
def accepts (fw : Firewall) (p : OutboundPacket) : Bool :=
  fw.rules.any (·.scope.hits p) || fw.outbound p.profile != .block

/-- Whether every packet to the destination is let out. -/
def LetsOut (fw : Firewall) (destination : String) : Prop :=
  ∀ p : OutboundPacket, covers destination p.dst = true → fw.accepts p = true

/-- Whether rules of the group are installed. -/
def isEngaged (fw : Firewall) : Bool := fw.rules ≠ []

/-- The rules of the group are in force: what they do not allow is blocked under every profile. -/
def Enforces (fw : Firewall) : Prop := fw.isEngaged = true ∧ ∀ p, fw.outbound p = .block

end Firewall

structure Killswitch where
  interface : String
  port : Nat
  allowLan : Bool
  allowed : List String
  deriving DecidableEq

/-- A statement of the engaging script. -/
inductive Statement where
  | clearRules
  | makeDirectory
  | recordDefaults
  | allow (rule : AllowRule)
  /-- Allow only if the adapter that the rule names exists. -/
  | allowAdapter (rule : AllowRule) (name : String)
  | blockByDefault
  deriving DecidableEq

/-- What one statement does, given whether the tunnel's adapter exists. -/
def Statement.run (adapterExists : Bool) (fw : Firewall) : Statement → Firewall
  | clearRules => { fw with rules := [] }
  | makeDirectory => fw
  | recordDefaults => { fw with restore := some (fw.restore.getD fw.outbound) }
  | allow rule => { fw with rules := fw.rules ++ [rule] }
  | allowAdapter rule _ => if adapterExists then { fw with rules := fw.rules ++ [rule] } else fw
  | blockByDefault => { fw with outbound := fun _ => .block }

/-- A step of the releasing script, which goes on after one that fails. -/
inductive ReleaseStep where
  | clearRules
  | restoreProfile (p : Profile)
  | deleteRecord
  | allowAll
  deriving DecidableEq

/-- How a release fares: whether PowerShell runs at all, and which steps have no effect. -/
structure ReleaseFault where
  launch : Option String := none
  fails : ReleaseStep → Option String := fun _ => none

/-- How an engagement fares: the statement it stops at with the reason, and its rollback. -/
structure EngageFault where
  stopsAt : Option (Nat × String) := none
  rollback : ReleaseFault := {}

/-- Put the recorded defaults back, profile by profile. -/
def ReleaseFault.restored (f : ReleaseFault) (saved outbound : Profile → DefaultAction) :
    Profile → DefaultAction := fun p =>
  if (f.fails (.restoreProfile p)).isNone then saved p else outbound p

/-- `Killswitch::release`. The last statement decides whether the script is said to have failed. -/
def release (f : ReleaseFault) (fw : Firewall) : Except String Unit × Firewall :=
  match f.launch with
  | some e => (.error e, fw)
  | none =>
    let rules := if (f.fails .clearRules).isNone then [] else fw.rules
    match fw.restore with
    | some saved =>
      let outbound := f.restored saved fw.outbound
      match f.fails .deleteRecord with
      | none => (.ok (), { rules, outbound, restore := none })
      | some e => (.error e, { rules, outbound, restore := some saved })
    | none =>
      match f.fails .allowAll with
      | none => (.ok (), { rules, outbound := fun _ => .allow, restore := none })
      | some e => (.error e, { rules, outbound := fw.outbound, restore := none })

namespace Killswitch

/-- The mark is accepted for parity with Linux. The tunnel's own traffic is known by its port. -/
def new (interface : String) (_fwmark : Nat) (allowLan : Bool) : Killswitch :=
  { interface, port := 1637, allowLan, allowed := [] }

def allowing (k : Killswitch) (destinations : List String) : Killswitch :=
  { k with allowed := destinations }

def lanV4 : List String := ["10.0.0.0/8", "172.16.0.0/12", "192.168.0.0/16"]

def lanV6 : List String := ["fc00::/7"]

def linkV4 : List String := ["169.254.0.0/16", "224.0.0.0/4", "255.255.255.255"]

def linkV6 : List String := ["fe80::/10", "ff00::/8"]

/-- The rules that name no adapter, in order. -/
def rules (k : Killswitch) : List AllowRule :=
  [⟨"vpnmgr-allow-wireguard", .udpRemotePort [k.port]⟩,
    ⟨"vpnmgr-allow-link-v4", .remoteAddress linkV4⟩,
    ⟨"vpnmgr-allow-link-v6", .remoteAddress linkV6⟩,
    ⟨"vpnmgr-allow-dhcp", .udpRemotePort [67, 68]⟩] ++
  (if k.allowLan then
    [⟨"vpnmgr-allow-lan-v4", .remoteAddress lanV4⟩, ⟨"vpnmgr-allow-lan-v6", .remoteAddress lanV6⟩]
  else []) ++
  (if k.allowed ≠ [] then [⟨"vpnmgr-allow-bypass", .remoteAddress k.allowed⟩] else [])

/-- The statements of the engaging script, the change of the default last. -/
def script (k : Killswitch) : List Statement :=
  [.clearRules, .makeDirectory, .recordDefaults,
    .allowAdapter ⟨"vpnmgr-allow-tunnel", .interfaceAlias k.interface⟩ k.interface] ++
  k.rules.map .allow ++ [.blockByDefault]

/-- `Killswitch::engage`: run the script, and roll back if a statement fails. -/
def engage (k : Killswitch) (f : EngageFault) (adapterExists : Bool) (fw : Firewall) :
    Except String Unit × Firewall :=
  match f.stopsAt with
  | none => (.ok (), k.script.foldl (Statement.run adapterExists) fw)
  | some (n, e) =>
    (.error e, (release f.rollback ((k.script.take n).foldl (Statement.run adapterExists) fw)).2)

/-- The destination addresses the rules let out on their own account. -/
def admits (k : Killswitch) (ip : IpAddr) : Bool :=
  (linkV4 ++ linkV6 ++ (if k.allowLan then lanV4 ++ lanV6 else []) ++ k.allowed).any (covers · ip)

end Killswitch

theorem foldl_allow (adapterExists : Bool) (rules : List AllowRule) (fw : Firewall) :
    (rules.map Statement.allow).foldl (Statement.run adapterExists) fw =
      { fw with rules := fw.rules ++ rules } := by
  induction rules generalizing fw with
  | nil => simp
  | cons r rules ih => rw [List.map_cons, List.foldl_cons, ih]; simp [Statement.run]

/-- A script that ran to its end leaves its own rules and blocks the rest. -/
theorem Killswitch.engage_done (k : Killswitch) {f : EngageFault} (hf : f.stopsAt = none)
    (adapterExists : Bool) (fw : Firewall) :
    k.engage f adapterExists fw = (.ok (),
      { rules := (if adapterExists then
          [⟨"vpnmgr-allow-tunnel", .interfaceAlias k.interface⟩] else []) ++ k.rules
        outbound := fun _ => .block
        restore := some (fw.restore.getD fw.outbound) }) := by
  simp only [engage, hf, script, List.foldl_append, foldl_allow]
  cases adapterExists <;> simp [Statement.run]

end Windows

end Vpnmgr
