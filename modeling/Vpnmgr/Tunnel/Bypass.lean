import Vpnmgr.Core.Address
import Vpnmgr.Core.Config
import Mathlib.Data.List.Destutter

/-! Destinations kept out of the tunnel: the plan, the routes it adds to the main table, and the
record of what was added. -/

namespace Vpnmgr

open Text

/-- How a bypassed destination is reached. -/
inductive Via where
  | device (name : String)
  | gateway (gateway device : String)
  deriving DecidableEq, Repr

/-- A route to keep a destination out of the tunnel, the destination as `ip` spells it. -/
structure Route where
  destination : String
  via : Via
  deriving DecidableEq, Repr

def Route.isV6 (r : Route) : Bool := hasChar r.destination ':'

/-- Whether the prefix or address that a text names covers `ip`. -/
def covers (destination : String) (ip : IpAddr) : Bool :=
  (Cidr.parse destination).any (·.contains ip)

/-- A default route of the main table. -/
structure Gateway where
  gateway : String
  device : String
  isV6 : Bool

/-- What the machine looks like when a bypass is planned. -/
structure Surroundings where
  defaultGateways : List Gateway
  otherVpnRoutes : String → List Route
  resolve : String → List IpAddr

/-- What to keep out of the tunnel. -/
structure BypassRequest where
  cidrs : List String
  hosts : List String
  otherVpns : Bool
  lan : Bool
  tunnelAddresses : List IpAddr
  ourInterface : String

def privateV4 : List String := ["10.0.0.0/8", "172.16.0.0/12", "192.168.0.0/16"]

def privateV6 : List String := ["fc00::/7"]

/-- Whether `cidr` contains `addr`. Text that does not parse contains nothing. -/
def cidrContains (cidr : String) (addr : IpAddr) : Bool :=
  match splitOnce '/' cidr.toList with
  | none => false
  | some (network, p) =>
    match IpAddr.parseChars network,
        IpAddr.decimalDigits (if p.head? = some '+' then p.tail else p) with
    | some net, some n => if h : n ≤ net.width then Cidr.contains ⟨net, n, h⟩ addr else false
    | _, _ => false

/-- The private ranges safe to bypass, given what the tunnel occupies. -/
def lanRanges (tunnelAddresses : List IpAddr) : List String :=
  (privateV4 ++ privateV6).filter fun range => !tunnelAddresses.any (cidrContains range)

/-- A route to `destination` through whichever gateway suits its family. -/
def viaGateway (gateways : List Gateway) (destination : String) : Option Route :=
  (gateways.find? fun g => g.isV6 == hasChar destination ':').map fun g =>
    { destination, via := .gateway g.gateway g.device }

/-- One route of a routing table. -/
structure TableRoute where
  network : Cidr
  via : Via
  deriving DecidableEq

abbrev RouteTable := List TableRoute

/-- Whether the table has a route for exactly the prefix that a text names. -/
def RouteTable.has (table : RouteTable) (destination : String) : Bool :=
  match Cidr.parse destination with
  | some c => table.any (·.network = c)
  | none => false

/-- Tracks the routes installed for a tunnel. -/
structure Bypass where
  installed : List Route
  deriving DecidableEq

/-- How the commands of an installation fare: whether the query for a route gets an answer, and
whether the route can be added. -/
structure InstallFaults where
  answered : Route → Bool
  added : Route → Bool

namespace Bypass

def new : Bypass := ⟨[]⟩

/-- Work out what should bypass the tunnel. -/
def plan (request : BypassRequest) (s : Surroundings) : List Route :=
  let others := if request.otherVpns then s.otherVpnRoutes request.ourInterface else []
  let wanted := (if request.lan then lanRanges request.tunnelAddresses else []) ++ request.cidrs ++
    request.hosts.flatMap fun host => (s.resolve host).map IpAddr.display
  ((others ++ wanted.filterMap (viaGateway s.defaultGateways)).insertionSort
    fun a b => a.destination ≤ b.destination).destutter (· ≠ ·)

/-- Whether the table already routes this destination, as far as the query tells. -/
def routeExists (f : InstallFaults) (table : RouteTable) (r : Route) : Bool :=
  f.answered r && table.has r.destination

/-- Install one route, unless there is one for its prefix already. -/
def installRoute (f : InstallFaults) (at_ : Bypass × RouteTable) (r : Route) :
    Bypass × RouteTable :=
  if routeExists f at_.2 r then at_
  else
    match Cidr.parse r.destination with
    | some network =>
      if f.added r then (⟨at_.1.installed ++ [r]⟩, at_.2 ++ [⟨network, r.via⟩]) else at_
    | none => at_

/-- Install routes into the main table, recording those that were added. -/
def install (b : Bypass) (f : InstallFaults) (routes : List Route) (table : RouteTable) :
    Bypass × RouteTable :=
  routes.foldl (installRoute f) (b, table)

/-- Withdraw every recorded route that can be deleted. -/
def remove (b : Bypass) (deleted : Route → Bool) (table : RouteTable) : Bypass × RouteTable :=
  (new, b.installed.foldl (fun t r =>
    if deleted r then t.eraseP fun e => Cidr.parse r.destination = some e.network else t) table)

/-- Destinations currently bypassing the tunnel. -/
def destinations (b : Bypass) : List String := b.installed.map Route.destination

def isEmpty (b : Bypass) : Bool := b.installed.isEmpty

/-! ### What an installation leaves -/

/-- Whether installing would add this route to a table without any of the plan's own. -/
def Adds (f : InstallFaults) (table : RouteTable) (r : Route) : Prop :=
  (Cidr.parse r.destination).isSome ∧ f.added r = true ∧ routeExists f table r = false

instance (f : InstallFaults) (table : RouteTable) (r : Route) : Decidable (Adds f table r) :=
  inferInstanceAs (Decidable (_ ∧ _ ∧ _))

end Bypass

theorem RouteTable.has_append (t u : RouteTable) (d : String) :
    RouteTable.has (t ++ u) d = (RouteTable.has t d || RouteTable.has u d) := by
  unfold RouteTable.has
  cases Cidr.parse d with
  | none => rfl
  | some c => simp

theorem covers_eq_true {d : String} {ip : IpAddr} :
    covers d ip = true ↔ ∃ c, Cidr.parse d = some c ∧ c.contains ip = true := by
  unfold covers
  cases Cidr.parse d <;> simp

/-- A text with a colon covers no IPv4 address, and one without covers no other. -/
theorem covers_family {d : String} {ip : IpAddr} (h : covers d ip = true) :
    ip.isIpv4 = !hasChar d ':' := by
  obtain ⟨c, hc, hcontains⟩ := covers_eq_true.mp h
  have htext := Cidr.parse_isIpv4 hc
  rw [Cidr.contains_family hcontains]
  cases hcolon : hasChar d ':' <;> cases hv4 : c.addr.isIpv4 <;> simp_all

/-- Texts that name one prefix cover the same addresses. -/
theorem covers_congr {d d' : String} (h : Cidr.parse d = Cidr.parse d') (ip : IpAddr) :
    covers d ip = covers d' ip := by
  unfold covers
  rw [h]

end Vpnmgr
