import Vpnmgr.Core.Config

/-! The provider's server list, and the two filters a server passes on its way to being probed:
its health and the configured rules. -/

namespace Vpnmgr

open Ieee Text

/-- Port AirVPN's WireGuard instances listen on. -/
def wgPort : UInt16 := 1637

/-- Entry indices that run WireGuard. -/
def wgEntries : List Nat := [1, 3]

inductive Health where
  | ok
  | error
  | unknown
  deriving DecidableEq, Repr

/-- One AirVPN server. -/
structure Server where
  name : String
  countryName : String
  countryCode : String
  location : String
  bw : Nat
  bwMax : Nat
  users : Nat
  load : Nat
  health : Health
  warning : Option String
  wgIpv4 : BitVec 32
  wgIpv4Alt : Option (BitVec 32)
  deriving DecidableEq, Repr

namespace Server

def isHealthy (s : Server) : Bool := s.health == .ok

/-- Primary WireGuard endpoint (entry 1). -/
def wgEndpoint (s : Server) (port : UInt16) : SocketAddr := ⟨.v4 s.wgIpv4, port⟩

/-- Endpoint for an entry index, if the server exposes it. -/
def wgEndpointForEntry (s : Server) (entry : Nat) (port : UInt16) : Option SocketAddr :=
  match entry with
  | 1 => some ⟨.v4 s.wgIpv4, port⟩
  | 3 => s.wgIpv4Alt.map fun ip => ⟨.v4 ip, port⟩
  | _ => none

/-- Every WireGuard endpoint worth probing, with its entry index. -/
def wgEndpoints (s : Server) (entries : List Nat) (port : UInt16) : List (Nat × SocketAddr) :=
  entries.filterMap fun e => (s.wgEndpointForEntry e port).map (e, ·)

/-- Load as a fraction, saturating above 100%. -/
def loadFraction (s : Server) : F64 := (F64.ofNat s.load).min 100 / 100

/-- Spare capacity in Mbit/s, and none where the capacity is unknown. -/
def headroomMbps (s : Server) : Nat := if s.bwMax = 0 then 0 else s.bwMax - s.bw

end Server

structure ServerList where
  servers : List Server
  deriving DecidableEq

/-- The first server of this name, whatever the case of its letters. -/
def ServerList.get (l : ServerList) (name : String) : Option Server :=
  l.servers.find? fun s => eqIgnoreAsciiCase s.name name

theorem ServerList.get_name {l : ServerList} {name : String} {s : Server} (h : l.get name = some s) :
    eqIgnoreAsciiCase s.name name = true := by
  have hs := List.find?_some h
  exact hs

/-- Why a server was excluded. -/
inductive Rejection where
  | unhealthy (warning : Option String)
  | countryNotWhitelisted
  | countryBlacklisted
  | serverNotWhitelisted
  | serverBlacklisted
  | loadTooHigh (load max : Nat)
  deriving DecidableEq

/-- The short label of a reason, without the figures of the server it excluded. -/
def Rejection.label : Rejection → String
  | unhealthy _ => "unhealthy"
  | countryNotWhitelisted => "country not in whitelist"
  | countryBlacklisted => "country blacklisted"
  | serverNotWhitelisted => "server not in whitelist"
  | serverBlacklisted => "server blacklisted"
  | loadTooHigh _ max => s!"load above max_load {max}%"

/-- The entries of a list in the form the checks compare: trimmed, in lower case, none empty. -/
def normalised (values : List String) : List String :=
  (values.map lower).filter (· ≠ "")

/-- Filters compiled into the form the checks need. -/
structure Ruleset where
  countryWhite : List String
  countryBlack : List String
  serverWhite : List String
  serverBlack : List String
  maxLoad : Nat

namespace Ruleset

def new (f : Filters) : Ruleset where
  countryWhite := normalised f.countryWhitelist
  countryBlack := normalised f.countryBlacklist
  serverWhite := normalised f.serverWhitelist
  serverBlack := normalised f.serverBlacklist
  maxLoad := f.maxLoad

/-- Why a server is excluded, or `none` if it passes. Health is checked by the caller. -/
def judge (r : Ruleset) (name countryCode : String) (load : Nat) : Option Rejection :=
  let name := lower name
  let country := lower countryCode
  if r.serverBlack.contains name then some .serverBlacklisted
  else if r.countryBlack.contains country then some .countryBlacklisted
  else if r.serverWhite ≠ [] ∧ ¬r.serverWhite.contains name then some .serverNotWhitelisted
  else if r.countryWhite ≠ [] ∧ ¬r.countryWhite.contains country then some .countryNotWhitelisted
  else if r.maxLoad < load then some (.loadTooHigh load r.maxLoad)
  else none

def accepts (r : Ruleset) (name countryCode : String) (load : Nat) : Bool :=
  (r.judge name countryCode load).isNone

end Ruleset

/-- Why `apply` excludes a server: its health first, then the rules. -/
def Server.rejection (rules : Ruleset) (s : Server) : Option Rejection :=
  if s.isHealthy then rules.judge s.name s.countryCode s.load else some (.unhealthy s.warning)

/-- Outcome of applying the filters to a server list. -/
structure Selection where
  accepted : List Server
  rejected : List (Server × Rejection)

/-- Put every server of the list in one of the two buckets. -/
def Filters.apply (f : Filters) (list : ServerList) : Selection :=
  let rules := Ruleset.new f
  { accepted := list.servers.filter fun s => (s.rejection rules).isNone
    rejected := list.servers.filterMap fun s => (s.rejection rules).map (s, ·) }

/-- Rejection labels with counts, most common first and then by label. -/
def Selection.rejectionSummary (sel : Selection) : List (String × Nat) :=
  let labels := sel.rejected.map fun (_, reason) => reason.label
  (labels.dedup.map fun label => (label, labels.count label)).insertionSort
    fun a b => b.2 < a.2 ∨ (b.2 = a.2 ∧ a.1 ≤ b.1)

/-- Accepted means healthy and passed by the rules. -/
theorem Filters.mem_accepted {f : Filters} {list : ServerList} {s : Server} :
    s ∈ (f.apply list).accepted ↔ s ∈ list.servers ∧ s.isHealthy = true ∧
      (Ruleset.new f).accepts s.name s.countryCode s.load = true := by
  simp only [Filters.apply, List.mem_filter, Server.rejection, Ruleset.accepts]
  by_cases hs : s.isHealthy = true <;> simp [hs]

end Vpnmgr
