import Vpnmgr.Core.Net
import Vpnmgr.Library.Ieee
import Mathlib.Data.List.Sort

/-! The daemon's settings: their defaults, the checks a loaded file must pass, the figures derived
from them, and the credentials assembled from the key files they name. -/

namespace Vpnmgr

open Ieee Text

/-- A length of time in nanoseconds. -/
abbrev Duration := Nat

def Duration.ofSecs (n : Nat) : Duration := n * 1000000000

def Duration.ofMillis (n : Nat) : Duration := n * 1000000

def Duration.asSecs (d : Duration) : Nat := d / 1000000000

def Duration.asMillis (d : Duration) : Nat := d / 1000000

/-- `as_secs_f64`, exactly. -/
def Duration.asSecsF64 (d : Duration) : F64 := .finite (d / 1000000000)

/-- A Curve25519 public key. -/
structure PublicKey where
  bytes : Vector UInt8 32
  deriving DecidableEq, Repr

/-- A private or preshared key. -/
structure SecretKey where
  bytes : Vector UInt8 32
  deriving DecidableEq, Repr

/-- Server-independent credentials and interface settings. -/
structure ClientConfig where
  privateKey : SecretKey
  addresses : List Cidr
  dns : List IpAddr
  searchDomains : List String
  mtu : Option Nat
  peerPublicKey : PublicKey
  presharedKey : Option SecretKey
  allowedIps : List Cidr
  persistentKeepalive : Option Nat
  deriving DecidableEq

structure AirvpnProvider where
  privateKeyFile : String
  presharedKeyFile : Option String := none
  address : List Cidr
  dns : List IpAddr := []
  searchDomains : List String := []
  peerPublicKey : PublicKey
  port : UInt16 := 1637
  mtu : Option Nat := none
  persistentKeepalive : Option Nat := some 15
  allowedIps : List Cidr := Cidr.everywhere
  deriving DecidableEq

structure Provider where
  airvpn : AirvpnProvider
  deriving DecidableEq

/-- Which servers are eligible. -/
structure Filters where
  countryWhitelist : List String := []
  countryBlacklist : List String := []
  serverWhitelist : List String := []
  serverBlacklist : List String := []
  maxLoad : Nat := 85
  deriving DecidableEq

inductive SwitchPolicy where
  | ask
  | auto
  | never
  deriving DecidableEq, Repr

structure Weights where
  rtt : F64 := 0.6
  load : F64 := 0.1
  headroom : F64 := 0.3
  deriving DecidableEq

structure Autotune where
  intervalMinutes : UInt64 := 30
  maxLatencyMs : Nat := 80
  minMbps : F64 := 50
  acceptFraction : F64 := 0.6
  measureBeforeConnect : Bool := true
  targetMbps : Option F64 := none
  headroomMargin : F64 := 2
  verifyCandidates : Nat := 5
  switchPolicy : SwitchPolicy := .ask
  improvementThreshold : F64 := 0.25
  weights : Weights := {}
  deriving DecidableEq

structure ProbeSettings where
  concurrency : Nat := 32
  timeoutMs : Nat := 1500
  samples : Nat := 3
  deriving DecidableEq

structure KillswitchSettings where
  enabled : Bool := false
  allowLan : Bool := true
  deriving DecidableEq

structure Throughput where
  url : String := "https://speed.cloudflare.com/__down?bytes="
  bytes : Nat := 25000000
  timeoutSecs : Nat := 30
  selectBytes : Nat := 8000000
  deriving DecidableEq

structure BypassSettings where
  cidrs : List String := []
  hosts : List String := []
  otherVpns : Bool := true
  lan : Bool := true
  deriving DecidableEq

structure Config where
  provider : Provider
  filters : Filters := {}
  autotune : Autotune := {}
  probe : ProbeSettings := {}
  killswitch : KillswitchSettings := {}
  throughput : Throughput := {}
  bypass : BypassSettings := {}
  deriving DecidableEq

/-- Used until the line rate has been measured. -/
def defaultTargetMbps : F64 := 500

/-- What fraction of a measured line rate to take as the target. -/
def measuredTargetFraction : F64 := 0.9

namespace Autotune

/-- The tuning interval. The seconds are computed in 64 bits, which wrap around in a release
build. -/
def interval (a : Autotune) : Duration := .ofSecs (a.intervalMinutes * 60).toNat

def target (a : Autotune) (measuredDirectMbps : Option F64) : F64 :=
  match a.targetMbps with
  | some t => t
  | none =>
    match measuredDirectMbps.filter (fun m => (0 : F64) < m) with
    | some m => m * measuredTargetFraction
    | none => defaultTargetMbps

def headroomTargetMbps (a : Autotune) (measuredDirectMbps : Option F64) : F64 :=
  (a.target measuredDirectMbps * a.headroomMargin).max 1

def acceptanceMbps (a : Autotune) (measuredDirectMbps : Option F64) : F64 :=
  (a.target measuredDirectMbps * a.acceptFraction).max a.minMbps

end Autotune

/-- The request URL for a payload, which is appended to a URL that ends in `=`. -/
def Throughput.requestUrlFor (t : Throughput) (bytes : Nat) : String :=
  if t.url.toList.getLast? = some '=' then t.url ++ toString bytes else t.url

def Throughput.requestUrl (t : Throughput) : String := t.requestUrlFor t.bytes

/-- Why a file that parses is refused. -/
inductive ConfigError where
  | maxLoad (value : Nat)
  | countriesInBoth (names : List String)
  | serversInBoth (names : List String)
  | concurrency
  | samples
  | timeoutMs
  | intervalMinutes
  | targetMbps
  | acceptFraction (value : F64)
  | headroomMargin
  | improvementThreshold (value : F64)
  | negativeWeights
  | noWeights
  | noAddress
  deriving DecidableEq

/-- The text of a refusal, given how a double is displayed. -/
def ConfigError.message (display : F64 → String) : ConfigError → String
  | maxLoad value =>
    s!"filters.max_load = {value} is meaningless; AirVPN reports load as a percentage"
  | countriesInBoth names =>
    "these countries are in both filters.country_whitelist and country_blacklist, so nothing " ++
      "can match: " ++ ", ".intercalate names
  | serversInBoth names =>
    "these servers are in both filters.server_whitelist and server_blacklist, so nothing " ++
      "can match: " ++ ", ".intercalate names
  | concurrency => "probe.concurrency must be at least 1"
  | samples => "probe.samples must be at least 1"
  | timeoutMs => "probe.timeout_ms must be greater than 0"
  | intervalMinutes => "autotune.interval_minutes must be greater than 0"
  | targetMbps => "autotune.target_mbps must be greater than 0 when set"
  | acceptFraction value =>
    "autotune.accept_fraction = " ++ display value ++ " must be between 0.0 and 1.0"
  | headroomMargin => "autotune.headroom_margin must be greater than 0"
  | improvementThreshold value =>
    "autotune.improvement_threshold = " ++ display value ++ " must be between 0.0 and 1.0"
  | negativeWeights => "autotune.weights must not be negative"
  | noWeights => "at least one autotune.weights entry must be greater than 0"
  | noAddress => "provider.airvpn.address must list at least one tunnel address"

/-- A list entry as it is compared: trimmed and in lower case. -/
def lower (s : String) : String := toAsciiLowercase (trim s)

/-- Entries that differ in the case of their letters only are compared as one. -/
theorem lower_congr {a b : String} (h : eqIgnoreAsciiCase a b = true) : lower a = lower b := by
  have hmap := congrArg String.toList (eq_of_beq h)
  simp only [toAsciiLowercase, String.toList_ofList] at hmap
  rw [lower, lower, toAsciiLowercase, toAsciiLowercase, trim, trim, String.toList_ofList,
    String.toList_ofList, ← trimChars_map_toLower, ← trimChars_map_toLower, hmap]

/-- The entries in both lists, sorted and each once, as two ordered sets intersect. -/
def inBoth (white black : List String) : List String :=
  (((white.map lower).filter (black.map lower).contains).dedup).insertionSort (· ≤ ·)

namespace Config

/-- Refuse settings that parse but cannot work. -/
def validate (c : Config) : Except ConfigError Unit := do
  let f := c.filters
  if 200 < f.maxLoad then throw (.maxLoad f.maxLoad)
  let countries := inBoth f.countryWhitelist f.countryBlacklist
  if countries ≠ [] then throw (.countriesInBoth countries)
  let servers := inBoth f.serverWhitelist f.serverBlacklist
  if servers ≠ [] then throw (.serversInBoth servers)
  if c.probe.concurrency = 0 then throw .concurrency
  if c.probe.samples = 0 then throw .samples
  if c.probe.timeoutMs = 0 then throw .timeoutMs
  if c.autotune.intervalMinutes = 0 then throw .intervalMinutes
  if c.autotune.targetMbps.any (fun t => t ≤ (0 : F64)) then throw .targetMbps
  if ¬(0 ≤ c.autotune.acceptFraction ∧ c.autotune.acceptFraction ≤ 1) then
    throw (.acceptFraction c.autotune.acceptFraction)
  if c.autotune.headroomMargin ≤ 0 then throw .headroomMargin
  if ¬(0 ≤ c.autotune.improvementThreshold ∧ c.autotune.improvementThreshold ≤ 1) then
    throw (.improvementThreshold c.autotune.improvementThreshold)
  let w := c.autotune.weights
  if w.rtt < 0 ∨ w.load < 0 ∨ w.headroom < 0 then throw .negativeWeights
  if w.rtt + w.load + w.headroom ≤ 0 then throw .noWeights
  if c.provider.airvpn.address = [] then throw .noAddress

end Config

/-- What reading a file of the configuration directory gave: the settings as the TOML parser
decoded them, and the key in each key file. -/
structure Disk where
  config : Except String Config
  key : String → Except String SecretKey

/-- Why the settings or the credentials could not be loaded. -/
inductive LoadError where
  | read (reason : String)
  | config (error : ConfigError)
  deriving DecidableEq

/-- `Config::load`: read, parse and validate. -/
def Config.load (disk : Disk) : Except LoadError Config :=
  match disk.config with
  | .error e => .error (.read e)
  | .ok c =>
    match c.validate with
    | .error e => .error (.config e)
    | .ok () => .ok c

/-- `Config::load_client_config`: read the key files and assemble the credentials. -/
def Config.loadClientConfig (disk : Disk) (c : Config) : Except LoadError ClientConfig := do
  let p := c.provider.airvpn
  let privateKey ← (disk.key p.privateKeyFile).mapError .read
  let presharedKey ← match p.presharedKeyFile with
    | some path => (disk.key path).mapError .read |>.map some
    | none => pure none
  return {
    privateKey, presharedKey
    addresses := p.address
    dns := p.dns
    searchDomains := p.searchDomains
    mtu := p.mtu
    peerPublicKey := p.peerPublicKey
    allowedIps := p.allowedIps
    persistentKeepalive := p.persistentKeepalive }

/-- What is loaded has passed every check. -/
theorem Config.load_validate {disk : Disk} {c : Config} (h : Config.load disk = .ok c) :
    c.validate = .ok () := by
  unfold Config.load at h
  split at h
  · cases h
  · next c' hc =>
    split at h
    · cases h
    · next hv => cases h; exact hv

/-- The settings that pass every check. -/
structure Config.Valid (c : Config) : Prop where
  maxLoad : c.filters.maxLoad ≤ 200
  countries : inBoth c.filters.countryWhitelist c.filters.countryBlacklist = []
  servers : inBoth c.filters.serverWhitelist c.filters.serverBlacklist = []
  concurrency : c.probe.concurrency ≠ 0
  samples : c.probe.samples ≠ 0
  timeoutMs : c.probe.timeoutMs ≠ 0
  intervalMinutes : c.autotune.intervalMinutes ≠ 0
  targetMbps : ∀ t, c.autotune.targetMbps = some t → ¬t ≤ (0 : F64)
  acceptFraction : 0 ≤ c.autotune.acceptFraction ∧ c.autotune.acceptFraction ≤ 1
  headroomMargin : ¬c.autotune.headroomMargin ≤ 0
  improvementThreshold : 0 ≤ c.autotune.improvementThreshold ∧ c.autotune.improvementThreshold ≤ 1
  weights : ¬c.autotune.weights.rtt < 0 ∧ ¬c.autotune.weights.load < 0 ∧
    ¬c.autotune.weights.headroom < 0
  total : ¬c.autotune.weights.rtt + c.autotune.weights.load + c.autotune.weights.headroom ≤ 0
  address : c.provider.airvpn.address ≠ []

/-- A check lets the rest decide unless it refuses. -/
theorem Config.check_ok {p : Prop} [Decidable p] {e : ConfigError} {rest : Except ConfigError Unit} :
    (if p then throw e >>= fun (_ : Unit) => rest else rest) = .ok () ↔ ¬p ∧ rest = .ok () := by
  by_cases hp : p
  · rw [if_pos hp]
    exact ⟨fun h => (by cases h), fun h => absurd hp h.1⟩
  · rw [if_neg hp, and_iff_right hp]

theorem Config.validate_ok {c : Config} : c.validate = .ok () ↔ c.Valid := by
  have hlast : (if c.provider.airvpn.address = [] then throw .noAddress else pure () :
      Except ConfigError Unit) = .ok () ↔ c.provider.airvpn.address ≠ [] := by
    split
    · next h => exact ⟨fun h' => (by cases h'), fun h' => absurd h h'⟩
    · next h => exact ⟨fun _ => h, fun _ => rfl⟩
  unfold validate
  simp only [check_ok, hlast]
  constructor
  · rintro ⟨h1, h2, h3, h4, h5, h6, h7, h8, h9, h10, h11, h12, h13, h14⟩
    exact {
      maxLoad := Nat.not_lt.mp h1
      countries := not_not.mp h2
      servers := not_not.mp h3
      concurrency := h4
      samples := h5
      timeoutMs := h6
      intervalMinutes := h7
      targetMbps := fun t ht hle => h8 (by simp [ht, hle])
      acceptFraction := not_not.mp h9
      headroomMargin := h10
      improvementThreshold := not_not.mp h11
      weights := by simpa only [not_or] using h12
      total := h13
      address := h14 }
  · intro h
    refine ⟨Nat.not_lt.mpr h.maxLoad, not_not.mpr h.countries, not_not.mpr h.servers, h.concurrency,
      h.samples, h.timeoutMs, h.intervalMinutes, fun hany => ?_, not_not.mpr h.acceptFraction,
      h.headroomMargin, not_not.mpr h.improvementThreshold, ?_, h.total, h.address⟩
    · obtain ⟨t, ht, hle⟩ := (Option.any_eq_true _ _).mp hany
      exact h.targetMbps t ht (of_decide_eq_true hle)
    · simpa only [not_or] using h.weights

/-! ### Settings to try things on -/

namespace Sample

def secret : SecretKey := ⟨.replicate 32 7⟩

def config : Config where
  provider.airvpn := {
    privateKeyFile := "private.key"
    address := [⟨.v4 0x0a801c02, 32, by decide⟩]
    peerPublicKey := ⟨.replicate 32 9⟩ }

def client (c : Config) : ClientConfig where
  privateKey := secret
  addresses := c.provider.airvpn.address
  dns := c.provider.airvpn.dns
  searchDomains := c.provider.airvpn.searchDomains
  mtu := c.provider.airvpn.mtu
  peerPublicKey := c.provider.airvpn.peerPublicKey
  presharedKey := none
  allowedIps := c.provider.airvpn.allowedIps
  persistentKeepalive := c.provider.airvpn.persistentKeepalive

def disk (c : Config) : Disk := ⟨.ok c, fun _ => .ok secret⟩

/-- The defaults pass every check. -/
theorem config_valid : config.validate = .ok () := by decide +kernel

end Sample

end Vpnmgr
