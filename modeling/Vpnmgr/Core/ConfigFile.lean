import Vpnmgr.Core.Address
import Vpnmgr.Core.WgConf
import Vpnmgr.Library.Toml

/-! `config.toml`: how the settings are written and read, field by field, and what comes back. -/

namespace Vpnmgr

open Fields Ieee Text
open Toml (Value)

/-- What the text of a value may be refused for by the type it is read as. -/
inductive FieldError where
  | cidr (error : CidrError)
  | address
  | key (error : KeyError)
  deriving DecidableEq, Repr

def FieldError.message (quote : String → String) : FieldError → String
  | cidr error => error.message quote
  | address => "invalid IP address syntax"
  | key error => error.message

/-! ### The values -/

def Cidr.toValue (c : Cidr) : Value := .string c.display

def Cidr.ofValue (v : Value) : Decoded FieldError Cidr := do
  let s ← v.asString
  (fromStr s).mapError fun e => .custom (.cidr e)

def IpAddr.toValue (ip : IpAddr) : Value := .string ip.display

def IpAddr.ofValue (v : Value) : Decoded FieldError IpAddr := do
  let s ← v.asString
  (parse s).elim (.error (.custom .address)) .ok

def PublicKey.toValue (k : PublicKey) : Value := .string k.toBase64

def PublicKey.ofValue (v : Value) : Decoded FieldError PublicKey := do
  let s ← v.asString
  (fromBase64 s).mapError fun e => .custom (.key e)

def SwitchPolicy.name : SwitchPolicy → String
  | ask => "ask"
  | auto => "auto"
  | never => "never"

def SwitchPolicy.ofValue (v : Value) : Decoded FieldError SwitchPolicy := do
  match ← v.asString with
  | "ask" => .ok ask
  | "auto" => .ok auto
  | "never" => .ok never
  | name => .error (.unknownVariant name)

def portOf (v : Value) : Decoded FieldError UInt16 := (v.asUnsigned 16).map UInt16.ofNat

def minutesOf (v : Value) : Decoded FieldError UInt64 := (v.asUnsigned 64).map UInt64.ofNat

def stringsOf (v : Value) : Decoded FieldError (List String) := v.asList Value.asString

/-! ### The tables -/

namespace AirvpnProvider

def names : List String :=
  ["private_key_file", "preshared_key_file", "address", "dns", "search_domains", "peer_public_key",
    "port", "mtu", "persistent_keepalive", "allowed_ips"]

def entries (p : AirvpnProvider) : List (String × Option Value) := [
  ("private_key_file", some (.string p.privateKeyFile)),
  ("preshared_key_file", p.presharedKeyFile.map .string),
  ("address", some (.ofList Cidr.toValue p.address)),
  ("dns", unlessEmpty (.ofList IpAddr.toValue) p.dns),
  ("search_domains", unlessEmpty (.ofList .string) p.searchDomains),
  ("peer_public_key", some p.peerPublicKey.toValue),
  ("port", some (.ofNat p.port.toNat)),
  ("mtu", p.mtu.map .ofNat),
  -- nothing says to leave it out, but an absent value is not written
  ("persistent_keepalive", p.persistentKeepalive.map .ofNat),
  ("allowed_ips", some (.ofList Cidr.toValue p.allowedIps))]

def ofFields (get : String → Option Value) : Decoded FieldError AirvpnProvider := do
  let privateKeyFile ← required get "private_key_file" Value.asString
  let presharedKeyFile ← withDefault get "preshared_key_file" (present Value.asString) none
  let address ← required get "address" (Value.asList Cidr.ofValue)
  let dns ← withDefault get "dns" (Value.asList IpAddr.ofValue) []
  let searchDomains ← withDefault get "search_domains" stringsOf []
  let peerPublicKey ← required get "peer_public_key" PublicKey.ofValue
  let port ← withDefault get "port" portOf 1637
  let mtu ← withDefault get "mtu" (present (Value.asUnsigned 32)) none
  let persistentKeepalive ←
    withDefault get "persistent_keepalive" (present (Value.asUnsigned 16)) (some 15)
  let allowedIps ← withDefault get "allowed_ips" (Value.asList Cidr.ofValue) Cidr.everywhere
  return {
    privateKeyFile, presharedKeyFile, address, dns, searchDomains, peerPublicKey, port, mtu
    persistentKeepalive, allowedIps }

def toValue (p : AirvpnProvider) : Value := .table (ofEntries p.entries)

def ofValue : Value → Decoded FieldError AirvpnProvider :=
  Value.asStruct (closedStruct names ofFields)

end AirvpnProvider

namespace Provider

def names : List String := ["airvpn"]

def entries (p : Provider) : List (String × Option Value) := [("airvpn", some p.airvpn.toValue)]

def ofFields (get : String → Option Value) : Decoded FieldError Provider := do
  let airvpn ← required get "airvpn" AirvpnProvider.ofValue
  return { airvpn }

def toValue (p : Provider) : Value := .table (ofEntries p.entries)

def ofValue : Value → Decoded FieldError Provider := Value.asStruct (closedStruct names ofFields)

end Provider

namespace Filters

def names : List String :=
  ["country_whitelist", "country_blacklist", "server_whitelist", "server_blacklist", "max_load"]

def entries (f : Filters) : List (String × Option Value) := [
  ("country_whitelist", some (.ofList .string f.countryWhitelist)),
  ("country_blacklist", some (.ofList .string f.countryBlacklist)),
  ("server_whitelist", some (.ofList .string f.serverWhitelist)),
  ("server_blacklist", some (.ofList .string f.serverBlacklist)),
  ("max_load", some (.ofNat f.maxLoad))]

def ofFields (get : String → Option Value) : Decoded FieldError Filters := do
  let countryWhitelist ← withDefault get "country_whitelist" stringsOf []
  let countryBlacklist ← withDefault get "country_blacklist" stringsOf []
  let serverWhitelist ← withDefault get "server_whitelist" stringsOf []
  let serverBlacklist ← withDefault get "server_blacklist" stringsOf []
  let maxLoad ← withDefault get "max_load" (Value.asUnsigned 32) 85
  return { countryWhitelist, countryBlacklist, serverWhitelist, serverBlacklist, maxLoad }

def toValue (f : Filters) : Value := .table (ofEntries f.entries)

def ofValue : Value → Decoded FieldError Filters := Value.asStruct (closedStruct names ofFields)

end Filters

namespace Weights

def names : List String := ["rtt", "load", "headroom"]

def entries (w : Weights) : List (String × Option Value) := [
  ("rtt", some (.float w.rtt)),
  ("load", some (.float w.load)),
  ("headroom", some (.float w.headroom))]

def ofFields (get : String → Option Value) : Decoded FieldError Weights := do
  let rtt ← withDefault get "rtt" Value.asFloat 0.6
  let load ← withDefault get "load" Value.asFloat 0.1
  let headroom ← withDefault get "headroom" Value.asFloat 0.3
  return { rtt, load, headroom }

/-- The old name of a field stands for the new one. -/
def unalias (r : Record Value) : Record Value :=
  r.map fun (name, v) => (if name = "bandwidth" then "headroom" else name, v)

def toValue (w : Weights) : Value := .table (ofEntries w.entries)

def ofValue : Value → Decoded FieldError Weights :=
  Value.asStruct fun r => closedStruct names ofFields (unalias r)

end Weights

namespace Autotune

def names : List String :=
  ["interval_minutes", "max_latency_ms", "min_mbps", "accept_fraction", "measure_before_connect",
    "target_mbps", "headroom_margin", "verify_candidates", "switch_policy",
    "improvement_threshold", "weights"]

def entries (a : Autotune) : List (String × Option Value) := [
  ("interval_minutes", some (.ofNat a.intervalMinutes.toNat)),
  ("max_latency_ms", some (.ofNat a.maxLatencyMs)),
  ("min_mbps", some (.float a.minMbps)),
  ("accept_fraction", some (.float a.acceptFraction)),
  ("measure_before_connect", some (.boolean a.measureBeforeConnect)),
  ("target_mbps", a.targetMbps.map .float),
  ("headroom_margin", some (.float a.headroomMargin)),
  ("verify_candidates", some (.ofNat a.verifyCandidates)),
  ("switch_policy", some (.string a.switchPolicy.name)),
  ("improvement_threshold", some (.float a.improvementThreshold)),
  ("weights", some a.weights.toValue)]

def ofFields (get : String → Option Value) : Decoded FieldError Autotune := do
  let intervalMinutes ← withDefault get "interval_minutes" minutesOf 30
  let maxLatencyMs ← withDefault get "max_latency_ms" (Value.asUnsigned 32) 80
  let minMbps ← withDefault get "min_mbps" Value.asFloat 50
  let acceptFraction ← withDefault get "accept_fraction" Value.asFloat 0.6
  let measureBeforeConnect ← withDefault get "measure_before_connect" Value.asBool true
  let targetMbps ← withDefault get "target_mbps" (present Value.asFloat) none
  let headroomMargin ← withDefault get "headroom_margin" Value.asFloat 2
  let verifyCandidates ← withDefault get "verify_candidates" (Value.asUnsigned 64) 5
  let switchPolicy ← withDefault get "switch_policy" SwitchPolicy.ofValue .ask
  let improvementThreshold ← withDefault get "improvement_threshold" Value.asFloat 0.25
  let weights ← withDefault get "weights" Weights.ofValue {}
  return {
    intervalMinutes, maxLatencyMs, minMbps, acceptFraction, measureBeforeConnect, targetMbps
    headroomMargin, verifyCandidates, switchPolicy, improvementThreshold, weights }

def toValue (a : Autotune) : Value := .table (ofEntries a.entries)

def ofValue : Value → Decoded FieldError Autotune := Value.asStruct (closedStruct names ofFields)

end Autotune

namespace ProbeSettings

def names : List String := ["concurrency", "timeout_ms", "samples"]

def entries (p : ProbeSettings) : List (String × Option Value) := [
  ("concurrency", some (.ofNat p.concurrency)),
  ("timeout_ms", some (.ofNat p.timeoutMs)),
  ("samples", some (.ofNat p.samples))]

def ofFields (get : String → Option Value) : Decoded FieldError ProbeSettings := do
  let concurrency ← withDefault get "concurrency" (Value.asUnsigned 64) 32
  let timeoutMs ← withDefault get "timeout_ms" (Value.asUnsigned 64) 1500
  let samples ← withDefault get "samples" (Value.asUnsigned 64) 3
  return { concurrency, timeoutMs, samples }

def toValue (p : ProbeSettings) : Value := .table (ofEntries p.entries)

def ofValue : Value → Decoded FieldError ProbeSettings :=
  Value.asStruct (closedStruct names ofFields)

end ProbeSettings

namespace KillswitchSettings

def names : List String := ["enabled", "allow_lan"]

def entries (k : KillswitchSettings) : List (String × Option Value) := [
  ("enabled", some (.boolean k.enabled)),
  ("allow_lan", some (.boolean k.allowLan))]

def ofFields (get : String → Option Value) : Decoded FieldError KillswitchSettings := do
  let enabled ← withDefault get "enabled" Value.asBool false
  let allowLan ← withDefault get "allow_lan" Value.asBool true
  return { enabled, allowLan }

def toValue (k : KillswitchSettings) : Value := .table (ofEntries k.entries)

def ofValue : Value → Decoded FieldError KillswitchSettings :=
  Value.asStruct (closedStruct names ofFields)

end KillswitchSettings

namespace Throughput

def names : List String := ["url", "bytes", "timeout_secs", "select_bytes"]

def entries (t : Throughput) : List (String × Option Value) := [
  ("url", some (.string t.url)),
  ("bytes", some (.ofNat t.bytes)),
  ("timeout_secs", some (.ofNat t.timeoutSecs)),
  ("select_bytes", some (.ofNat t.selectBytes))]

def ofFields (get : String → Option Value) : Decoded FieldError Throughput := do
  let url ← withDefault get "url" Value.asString "https://speed.cloudflare.com/__down?bytes="
  let bytes ← withDefault get "bytes" (Value.asUnsigned 64) 25000000
  let timeoutSecs ← withDefault get "timeout_secs" (Value.asUnsigned 64) 30
  let selectBytes ← withDefault get "select_bytes" (Value.asUnsigned 64) 8000000
  return { url, bytes, timeoutSecs, selectBytes }

def toValue (t : Throughput) : Value := .table (ofEntries t.entries)

def ofValue : Value → Decoded FieldError Throughput :=
  Value.asStruct (closedStruct names ofFields)

end Throughput

namespace BypassSettings

def names : List String := ["cidrs", "hosts", "other_vpns", "lan"]

def entries (b : BypassSettings) : List (String × Option Value) := [
  ("cidrs", some (.ofList .string b.cidrs)),
  ("hosts", some (.ofList .string b.hosts)),
  ("other_vpns", some (.boolean b.otherVpns)),
  ("lan", some (.boolean b.lan))]

def ofFields (get : String → Option Value) : Decoded FieldError BypassSettings := do
  let cidrs ← withDefault get "cidrs" stringsOf []
  let hosts ← withDefault get "hosts" stringsOf []
  let otherVpns ← withDefault get "other_vpns" Value.asBool true
  let lan ← withDefault get "lan" Value.asBool true
  return { cidrs, hosts, otherVpns, lan }

def toValue (b : BypassSettings) : Value := .table (ofEntries b.entries)

def ofValue : Value → Decoded FieldError BypassSettings :=
  Value.asStruct (closedStruct names ofFields)

end BypassSettings

namespace Config

def names : List String :=
  ["provider", "filters", "autotune", "probe", "killswitch", "throughput", "bypass"]

def entries (c : Config) : List (String × Option Value) := [
  ("provider", some c.provider.toValue),
  ("filters", some c.filters.toValue),
  ("autotune", some c.autotune.toValue),
  ("probe", some c.probe.toValue),
  ("killswitch", some c.killswitch.toValue),
  ("throughput", some c.throughput.toValue),
  ("bypass", some c.bypass.toValue)]

def ofFields (get : String → Option Value) : Decoded FieldError Config := do
  let provider ← required get "provider" Provider.ofValue
  let filters ← withDefault get "filters" Filters.ofValue {}
  let autotune ← withDefault get "autotune" Autotune.ofValue {}
  let probe ← withDefault get "probe" ProbeSettings.ofValue {}
  let killswitch ← withDefault get "killswitch" KillswitchSettings.ofValue {}
  let throughput ← withDefault get "throughput" Throughput.ofValue {}
  let bypass ← withDefault get "bypass" BypassSettings.ofValue {}
  return { provider, filters, autotune, probe, killswitch, throughput, bypass }

def decode : Record Value → Decoded FieldError Config := closedStruct names ofFields

end Config

/-! ### What comes back -/

theorem Cidr.fromStr_display (c : Cidr) : fromStr c.display = .ok c := by
  have h := fromStr_toOption c.display
  rw [parse_display] at h
  cases hc : fromStr c.display with
  | error e => rw [hc] at h; cases h
  | ok c' => rw [hc] at h; cases h; rfl

theorem Cidr.ofValue_toValue (c : Cidr) : ofValue c.toValue = .ok c := by
  rw [ofValue, toValue, Value.asString, ok_bind, fromStr_display]
  rfl

theorem IpAddr.ofValue_toValue (ip : IpAddr) : ofValue ip.toValue = .ok ip := by
  rw [ofValue, toValue, Value.asString, ok_bind, parse_display]
  rfl

theorem PublicKey.ofValue_toValue (k : PublicKey) : ofValue k.toValue = .ok k := by
  rw [ofValue, toValue, Value.asString, ok_bind, fromBase64_toBase64]
  rfl

theorem SwitchPolicy.ofValue_name (p : SwitchPolicy) : ofValue (.string p.name) = .ok p := by
  cases p <;> rfl

theorem portOf_ofNat (port : UInt16) : portOf (.ofNat port.toNat) = .ok port := by
  rw [portOf, Value.asUnsigned_ofNat port.toNat_lt]
  exact congrArg _ UInt16.ofNat_toNat

theorem minutesOf_ofNat (minutes : UInt64) : minutesOf (.ofNat minutes.toNat) = .ok minutes := by
  rw [minutesOf, Value.asUnsigned_ofNat minutes.toNat_lt]
  exact congrArg _ UInt64.ofNat_toNat

theorem stringsOf_ofList (ss : List String) : stringsOf (.ofList .string ss) = .ok ss :=
  Value.asList_ofList fun _ _ => rfl

theorem asList_ofValue (cs : List Cidr) :
    (Value.ofList Cidr.toValue cs).asList Cidr.ofValue = .ok cs :=
  Value.asList_ofList fun c _ => c.ofValue_toValue

/-- The numbers are in the range of their types. -/
structure AirvpnProvider.InRange (p : AirvpnProvider) : Prop where
  mtu : ∀ n, p.mtu = some n → n < 2 ^ 32
  persistentKeepalive : ∀ n, p.persistentKeepalive = some n → n < 2 ^ 16

/-- What is read back of what was written: an absent keepalive interval has become the default. -/
def AirvpnProvider.reread (p : AirvpnProvider) : AirvpnProvider :=
  { p with persistentKeepalive := p.persistentKeepalive.or (some 15) }

theorem AirvpnProvider.ofValue_toValue {p : AirvpnProvider} (h : p.InRange) :
    ofValue p.toValue = .ok p.reread := by
  have hdns := Value.asList_ofList fun ip (_ : ip ∈ p.dns) => ip.ofValue_toValue
  rw [ofValue, toValue, Value.asStruct_ofEntries names p.entries rfl (by decide)]
  refine bind_ok.mpr ⟨p.privateKeyFile, rfl, ?_⟩
  refine bind_ok.mpr ⟨p.presharedKeyFile, withDefault_map_none rfl fun _ _ => rfl, ?_⟩
  refine bind_ok.mpr ⟨p.address, required_some rfl (asList_ofValue _), ?_⟩
  refine bind_ok.mpr ⟨p.dns, withDefault_unlessEmpty rfl hdns, ?_⟩
  refine bind_ok.mpr ⟨p.searchDomains, withDefault_unlessEmpty rfl (stringsOf_ofList _), ?_⟩
  refine bind_ok.mpr ⟨p.peerPublicKey, required_some rfl p.peerPublicKey.ofValue_toValue, ?_⟩
  refine bind_ok.mpr ⟨p.port, withDefault_some rfl (portOf_ofNat p.port), ?_⟩
  refine bind_ok.mpr ⟨p.mtu, withDefault_map_none rfl fun n hn =>
    Value.asUnsigned_ofNat (h.mtu n hn), ?_⟩
  refine bind_ok.mpr ⟨p.persistentKeepalive.or (some 15), withDefault_map rfl fun n hn =>
    Value.asUnsigned_ofNat (h.persistentKeepalive n hn), ?_⟩
  exact bind_ok.mpr ⟨p.allowedIps, withDefault_some rfl (asList_ofValue _), rfl⟩

theorem Filters.ofValue_toValue {f : Filters} (h : f.maxLoad < 2 ^ 32) :
    ofValue f.toValue = .ok f := by
  rw [ofValue, toValue, Value.asStruct_ofEntries names f.entries rfl (by decide)]
  refine bind_ok.mpr ⟨f.countryWhitelist, withDefault_some rfl (stringsOf_ofList _), ?_⟩
  refine bind_ok.mpr ⟨f.countryBlacklist, withDefault_some rfl (stringsOf_ofList _), ?_⟩
  refine bind_ok.mpr ⟨f.serverWhitelist, withDefault_some rfl (stringsOf_ofList _), ?_⟩
  refine bind_ok.mpr ⟨f.serverBlacklist, withDefault_some rfl (stringsOf_ofList _), ?_⟩
  exact bind_ok.mpr ⟨f.maxLoad, withDefault_some rfl (Value.asUnsigned_ofNat h), rfl⟩

theorem Weights.ofValue_toValue (w : Weights) : ofValue w.toValue = .ok w := by
  change closedStruct names ofFields (ofEntries w.entries) = _
  rw [closedStruct_ofEntries names w.entries rfl (by decide)]
  rfl

structure Autotune.InRange (a : Autotune) : Prop where
  maxLatencyMs : a.maxLatencyMs < 2 ^ 32
  verifyCandidates : a.verifyCandidates < 2 ^ 64

theorem Autotune.ofValue_toValue {a : Autotune} (h : a.InRange) : ofValue a.toValue = .ok a := by
  rw [ofValue, toValue, Value.asStruct_ofEntries names a.entries rfl (by decide)]
  refine bind_ok.mpr ⟨a.intervalMinutes, withDefault_some rfl (minutesOf_ofNat _), ?_⟩
  refine bind_ok.mpr ⟨a.maxLatencyMs,
    withDefault_some rfl (Value.asUnsigned_ofNat h.maxLatencyMs), ?_⟩
  refine bind_ok.mpr ⟨a.minMbps, rfl, ?_⟩
  refine bind_ok.mpr ⟨a.acceptFraction, rfl, ?_⟩
  refine bind_ok.mpr ⟨a.measureBeforeConnect, rfl, ?_⟩
  refine bind_ok.mpr ⟨a.targetMbps, withDefault_map_none rfl fun _ _ => rfl, ?_⟩
  refine bind_ok.mpr ⟨a.headroomMargin, rfl, ?_⟩
  refine bind_ok.mpr ⟨a.verifyCandidates,
    withDefault_some rfl (Value.asUnsigned_ofNat h.verifyCandidates), ?_⟩
  refine bind_ok.mpr ⟨a.switchPolicy, withDefault_some rfl a.switchPolicy.ofValue_name, ?_⟩
  refine bind_ok.mpr ⟨a.improvementThreshold, rfl, ?_⟩
  exact bind_ok.mpr ⟨a.weights, withDefault_some rfl a.weights.ofValue_toValue, rfl⟩

structure ProbeSettings.InRange (p : ProbeSettings) : Prop where
  concurrency : p.concurrency < 2 ^ 64
  timeoutMs : p.timeoutMs < 2 ^ 64
  samples : p.samples < 2 ^ 64

theorem ProbeSettings.ofValue_toValue {p : ProbeSettings} (h : p.InRange) :
    ofValue p.toValue = .ok p := by
  rw [ofValue, toValue, Value.asStruct_ofEntries names p.entries rfl (by decide)]
  refine bind_ok.mpr ⟨p.concurrency,
    withDefault_some rfl (Value.asUnsigned_ofNat h.concurrency), ?_⟩
  refine bind_ok.mpr ⟨p.timeoutMs, withDefault_some rfl (Value.asUnsigned_ofNat h.timeoutMs), ?_⟩
  exact bind_ok.mpr ⟨p.samples, withDefault_some rfl (Value.asUnsigned_ofNat h.samples), rfl⟩

theorem KillswitchSettings.ofValue_toValue (k : KillswitchSettings) : ofValue k.toValue = .ok k := by
  rw [ofValue, toValue, Value.asStruct_ofEntries names k.entries rfl (by decide)]
  rfl

structure Throughput.InRange (t : Throughput) : Prop where
  bytes : t.bytes < 2 ^ 64
  timeoutSecs : t.timeoutSecs < 2 ^ 64
  selectBytes : t.selectBytes < 2 ^ 64

theorem Throughput.ofValue_toValue {t : Throughput} (h : t.InRange) :
    ofValue t.toValue = .ok t := by
  rw [ofValue, toValue, Value.asStruct_ofEntries names t.entries rfl (by decide)]
  refine bind_ok.mpr ⟨t.url, rfl, ?_⟩
  refine bind_ok.mpr ⟨t.bytes, withDefault_some rfl (Value.asUnsigned_ofNat h.bytes), ?_⟩
  refine bind_ok.mpr ⟨t.timeoutSecs,
    withDefault_some rfl (Value.asUnsigned_ofNat h.timeoutSecs), ?_⟩
  exact bind_ok.mpr ⟨t.selectBytes,
    withDefault_some rfl (Value.asUnsigned_ofNat h.selectBytes), rfl⟩

theorem BypassSettings.ofValue_toValue (b : BypassSettings) : ofValue b.toValue = .ok b := by
  rw [ofValue, toValue, Value.asStruct_ofEntries names b.entries rfl (by decide)]
  refine bind_ok.mpr ⟨b.cidrs, withDefault_some rfl (stringsOf_ofList _), ?_⟩
  exact bind_ok.mpr ⟨b.hosts, withDefault_some rfl (stringsOf_ofList _), rfl⟩

structure Config.InRange (c : Config) : Prop where
  airvpn : c.provider.airvpn.InRange
  maxLoad : c.filters.maxLoad < 2 ^ 32
  autotune : c.autotune.InRange
  probe : c.probe.InRange
  throughput : c.throughput.InRange

def Config.reread (c : Config) : Config := { c with provider.airvpn := c.provider.airvpn.reread }

/-- Reading what was written gives everything back but an absent keepalive interval. -/
theorem Config.decode_entries {c : Config} (h : c.InRange) :
    decode (ofEntries c.entries) = .ok c.reread := by
  have hprovider : Provider.ofValue c.provider.toValue = .ok ⟨c.provider.airvpn.reread⟩ := by
    rw [Provider.ofValue, Provider.toValue,
      Value.asStruct_ofEntries Provider.names c.provider.entries rfl (by decide)]
    exact bind_ok.mpr ⟨_, required_some rfl (AirvpnProvider.ofValue_toValue h.airvpn), rfl⟩
  rw [decode, closedStruct_ofEntries names c.entries rfl (by decide)]
  refine bind_ok.mpr ⟨_, required_some rfl hprovider, ?_⟩
  refine bind_ok.mpr ⟨c.filters, withDefault_some rfl (Filters.ofValue_toValue h.maxLoad), ?_⟩
  refine bind_ok.mpr ⟨c.autotune, withDefault_some rfl (Autotune.ofValue_toValue h.autotune), ?_⟩
  refine bind_ok.mpr ⟨c.probe, withDefault_some rfl (ProbeSettings.ofValue_toValue h.probe), ?_⟩
  refine bind_ok.mpr ⟨c.killswitch, withDefault_some rfl c.killswitch.ofValue_toValue, ?_⟩
  refine bind_ok.mpr ⟨c.throughput,
    withDefault_some rfl (Throughput.ofValue_toValue h.throughput), ?_⟩
  exact bind_ok.mpr ⟨c.bypass, withDefault_some rfl c.bypass.ofValue_toValue, rfl⟩

/-! ### What is read is in range -/

theorem Autotune.default_inRange : ({} : Autotune).InRange := ⟨by decide, by decide⟩

theorem ProbeSettings.default_inRange : ({} : ProbeSettings).InRange :=
  ⟨by decide, by decide, by decide⟩

theorem Throughput.default_inRange : ({} : Throughput).InRange :=
  ⟨by decide, by decide, by decide⟩

theorem number_lt {get : String → Option Value} {name : String} {bits default n : Nat}
    (hdefault : default < 2 ^ bits)
    (h : withDefault get name (Value.asUnsigned bits) default = (.ok n : Decoded FieldError Nat)) :
    n < 2 ^ bits :=
  withDefault_of (P := (· < 2 ^ bits)) hdefault (fun _ _ h => Value.asUnsigned_lt h) h

theorem optional_lt {get : String → Option Value} {name : String} {bits : Nat}
    {default o : Option Nat} (hdefault : ∀ n, default = some n → n < 2 ^ bits)
    (h : withDefault get name (present (Value.asUnsigned bits)) default =
      (.ok o : Decoded FieldError (Option Nat))) : ∀ n, o = some n → n < 2 ^ bits := by
  refine withDefault_of (P := fun o => ∀ n, o = some n → n < 2 ^ bits) hdefault ?_ h
  rintro v o ho n rfl
  obtain ⟨a, ha, hsome⟩ := present_ok ho
  cases hsome
  exact Value.asUnsigned_lt ha

theorem AirvpnProvider.ofValue_ok {v : Value} {p : AirvpnProvider} (h : ofValue v = .ok p) :
    p.InRange ∧ p.persistentKeepalive ≠ none := by
  obtain ⟨get, h⟩ := Value.asStruct_ok h
  simp only [ofFields, bind_ok] at h
  obtain ⟨_, -, _, -, _, -, _, -, _, -, _, -, _, -, mtu, hmtu, keepalive, hkeepalive, _, -, h⟩ := h
  cases h
  refine ⟨⟨optional_lt (by simp) hmtu, optional_lt (by simp) hkeepalive⟩, ?_⟩
  refine withDefault_of (P := (· ≠ none)) (by simp) ?_ hkeepalive
  intro v o ho
  obtain ⟨a, _, rfl⟩ := present_ok ho
  exact Option.some_ne_none a

theorem Filters.ofValue_ok {v : Value} {f : Filters} (h : ofValue v = .ok f) :
    f.maxLoad < 2 ^ 32 := by
  obtain ⟨get, h⟩ := Value.asStruct_ok h
  simp only [ofFields, bind_ok] at h
  obtain ⟨_, -, _, -, _, -, _, -, maxLoad, hmaxLoad, h⟩ := h
  cases h
  exact number_lt (by decide) hmaxLoad

theorem Autotune.ofValue_ok {v : Value} {a : Autotune} (h : ofValue v = .ok a) : a.InRange := by
  obtain ⟨get, h⟩ := Value.asStruct_ok h
  simp only [ofFields, bind_ok] at h
  obtain ⟨_, -, maxLatencyMs, hlatency, _, -, _, -, _, -, _, -, _, -, verify, hverify, _, -, _, -,
    _, -, h⟩ := h
  cases h
  exact ⟨number_lt (by decide) hlatency, number_lt (by decide) hverify⟩

theorem ProbeSettings.ofValue_ok {v : Value} {p : ProbeSettings} (h : ofValue v = .ok p) :
    p.InRange := by
  obtain ⟨get, h⟩ := Value.asStruct_ok h
  simp only [ofFields, bind_ok] at h
  obtain ⟨concurrency, hconcurrency, timeoutMs, htimeout, samples, hsamples, h⟩ := h
  cases h
  exact ⟨number_lt (by decide) hconcurrency, number_lt (by decide) htimeout,
    number_lt (by decide) hsamples⟩

theorem Throughput.ofValue_ok {v : Value} {t : Throughput} (h : ofValue v = .ok t) :
    t.InRange := by
  obtain ⟨get, h⟩ := Value.asStruct_ok h
  simp only [ofFields, bind_ok] at h
  obtain ⟨_, -, bytes, hbytes, timeoutSecs, htimeout, selectBytes, hselect, h⟩ := h
  cases h
  exact ⟨number_lt (by decide) hbytes, number_lt (by decide) htimeout,
    number_lt (by decide) hselect⟩

/-- Settings that were read are in range, and their keepalive interval is there. -/
theorem Config.decode_ok {r : Record Value} {c : Config} (h : decode r = .ok c) :
    c.InRange ∧ c.provider.airvpn.persistentKeepalive ≠ none := by
  have h := closedStruct_ok h
  simp only [ofFields, bind_ok] at h
  obtain ⟨provider, hprovider, filters, hfilters, autotune, hautotune, probe, hprobe, _, -,
    throughput, hthroughput, _, -, h⟩ := h
  cases h
  obtain ⟨_, hprovider⟩ := required_ok hprovider
  obtain ⟨_, hprovider⟩ := Value.asStruct_ok hprovider
  obtain ⟨airvpn, hairvpn, hprovider⟩ := bind_ok.mp hprovider
  cases hprovider
  obtain ⟨_, hairvpn⟩ := required_ok hairvpn
  obtain ⟨hrange, hkeepalive⟩ := AirvpnProvider.ofValue_ok hairvpn
  refine ⟨⟨hrange, ?_, ?_, ?_, ?_⟩, hkeepalive⟩
  · exact withDefault_of (P := (·.maxLoad < 2 ^ 32)) (by decide) (fun _ _ => Filters.ofValue_ok)
      hfilters
  · exact withDefault_of Autotune.default_inRange (fun _ _ => Autotune.ofValue_ok) hautotune
  · exact withDefault_of ProbeSettings.default_inRange (fun _ _ => ProbeSettings.ofValue_ok) hprobe
  · exact withDefault_of Throughput.default_inRange (fun _ _ => Throughput.ofValue_ok) hthroughput

/-! ### What is written is tidy -/

theorem AirvpnProvider.toValue_tidy (p : AirvpnProvider) : p.toValue.Tidy := by
  refine Value.tidy_ofPlain (by change names.Nodup; decide) ?_
  simp only [entries, List.forall_mem_cons]
  exact ⟨.string _, .map .string _, .ofList (fun c : Cidr => .string c.display) _,
    .unlessEmpty (.ofList fun ip : IpAddr => .string ip.display) _, .unlessEmpty (.ofList .string) _,
    .string _, .ofNat _, .map .ofNat _, .map .ofNat _, .ofList (fun c : Cidr => .string c.display) _,
    fun _ h => (nomatch h)⟩

theorem Filters.toValue_tidy (f : Filters) : f.toValue.Tidy := by
  refine Value.tidy_ofPlain (by change names.Nodup; decide) ?_
  simp only [entries, List.forall_mem_cons]
  exact ⟨.ofList .string _, .ofList .string _, .ofList .string _, .ofList .string _, .ofNat _,
    fun _ h => (nomatch h)⟩

theorem Weights.toValue_tidy (w : Weights) : w.toValue.Tidy := by
  refine Value.tidy_ofPlain (by change names.Nodup; decide) ?_
  simp only [entries, List.forall_mem_cons]
  exact ⟨.float _, .float _, .float _, fun _ h => (nomatch h)⟩

theorem Autotune.toValue_tidy (a : Autotune) : a.toValue.Tidy := by
  have htidy : (Value.table (ofEntries (a.entries.take 10 ++ a.entries.drop 10))).Tidy := by
    refine Value.tidy_ofEntries (by change names.Nodup; decide) ?_ ?_
    · simp only [entries, List.take_succ_cons, List.take_zero, List.forall_mem_cons]
      exact ⟨.ofNat _, .ofNat _, .float _, .float _, .boolean _, .map .float _, .float _, .ofNat _,
        .string _, .float _, fun _ h => (nomatch h)⟩
    · simp only [entries, List.drop_succ_cons, List.drop_zero, List.forall_mem_cons]
      exact ⟨fun v hv => (by cases hv; exact ⟨rfl, a.weights.toValue_tidy⟩),
        fun _ h => (nomatch h)⟩
  rwa [List.take_append_drop] at htidy

theorem ProbeSettings.toValue_tidy (p : ProbeSettings) : p.toValue.Tidy := by
  refine Value.tidy_ofPlain (by change names.Nodup; decide) ?_
  simp only [entries, List.forall_mem_cons]
  exact ⟨.ofNat _, .ofNat _, .ofNat _, fun _ h => (nomatch h)⟩

theorem KillswitchSettings.toValue_tidy (k : KillswitchSettings) : k.toValue.Tidy := by
  refine Value.tidy_ofPlain (by change names.Nodup; decide) ?_
  simp only [entries, List.forall_mem_cons]
  exact ⟨.boolean _, .boolean _, fun _ h => (nomatch h)⟩

theorem Throughput.toValue_tidy (t : Throughput) : t.toValue.Tidy := by
  refine Value.tidy_ofPlain (by change names.Nodup; decide) ?_
  simp only [entries, List.forall_mem_cons]
  exact ⟨.string _, .ofNat _, .ofNat _, .ofNat _, fun _ h => (nomatch h)⟩

theorem BypassSettings.toValue_tidy (b : BypassSettings) : b.toValue.Tidy := by
  refine Value.tidy_ofPlain (by change names.Nodup; decide) ?_
  simp only [entries, List.forall_mem_cons]
  exact ⟨.ofList .string _, .ofList .string _, .boolean _, .boolean _, fun _ h => (nomatch h)⟩

/-- The settings are written as tables whose plain values come first. -/
theorem Config.entries_tidy (c : Config) : (Value.table (ofEntries c.entries)).Tidy := by
  have htable {o v : Value} (hplain : o.isPlain = false) (h : o.Tidy) (hv : some o = some v) :
      v.isPlain = false ∧ v.Tidy := by
    cases hv
    exact ⟨hplain, h⟩
  have hprovider : c.provider.toValue.Tidy := by
    refine Value.tidy_ofTables (by change Provider.names.Nodup; decide) ?_
    simp only [Provider.entries, List.forall_mem_cons]
    exact ⟨fun _ => htable rfl c.provider.airvpn.toValue_tidy, fun _ h => (nomatch h)⟩
  refine Value.tidy_ofTables (by change names.Nodup; decide) ?_
  simp only [entries, List.forall_mem_cons]
  exact ⟨fun _ => htable rfl hprovider, fun _ => htable rfl c.filters.toValue_tidy,
    fun _ => htable rfl c.autotune.toValue_tidy, fun _ => htable rfl c.probe.toValue_tidy,
    fun _ => htable rfl c.killswitch.toValue_tidy, fun _ => htable rfl c.throughput.toValue_tidy,
    fun _ => htable rfl c.bypass.toValue_tidy, fun _ h => (nomatch h)⟩

end Vpnmgr
