import Vpnmgr.Core.Address
import Vpnmgr.Daemon.Requests
import Vpnmgr.Library.Json

/-! The messages that the daemon and its clients exchange, as JSON documents, and that each is read
back as it was written. Only a number that is not finite does not come back. -/

namespace Vpnmgr

open Fields Ieee Json Json.Value Text

/-! ### The messages -/

inductive Request where
  | status
  | connect (server : Option String) (measure : Option Bool)
  | disconnect
  | switch (server : String)
  | test (country : Option String)
  | lastRanking (limit : Option UInt64)
  | servers (country : Option String) (limit : Option UInt64) (all : Bool)
  | reload
  | version
  | autotune
  | approve
  | dismiss
  | speedtest
  | baseline (confirm : Bool)
  | killswitch (enable : Option Bool)
  deriving DecidableEq

structure StatusReport where
  connected : Bool
  interface : String
  server : Option String
  location : Option String
  countryCode : Option String
  endpoint : Option SocketAddr
  entry : Option Nat
  lastHandshakeSecs : Option Nat
  healthy : Bool
  txBytes : Nat
  rxBytes : Nat
  lastSweep : Option SweepSummary
  pendingSwitch : Option PendingSwitch
  lastTune : Option String
  nextTuneSecs : Option Nat
  configPath : Option String
  baselineMbps : Option F64
  baselineAgeSecs : Option Nat

inductive Response where
  | status (report : StatusReport)
  | ranking (list : List RankedServer)
  | servers (list : List ServerSummary)
  | ok (message : String)
  | error (message : String)
  | version (text : String)
  | tuned (report : TuneReport)
  | speed (report : SpeedReport)
  | killswitch (report : KillswitchReport)

/-! ### Their documents -/

/-- A field whose value may be null, or left out. -/
def optional {α : Type} (get : String → Option Value) (name : String)
    (decode : Value → Decoded String α) : Decoded String (Option α) :=
  withDefault get name (asOption decode) none

namespace SocketAddr

def toValue (a : SocketAddr) : Value := .string a.display

def ofValue (v : Value) : Decoded String SocketAddr := do
  match parse (← asString v) with
  | some a => return a
  | none => throw (.custom "invalid socket address syntax")

end SocketAddr

namespace RankedServer

def names : List String :=
  ["name", "country_code", "country_name", "location", "load", "rtt_ms", "score", "entry",
    "endpoint", "mbps", "mbps_age_secs", "headroom_mbps"]

def entries (r : RankedServer) : Record Value := [
  ("name", .string r.name),
  ("country_code", .string r.countryCode),
  ("country_name", .string r.countryName),
  ("location", .string r.location),
  ("load", .ofNat r.load),
  ("rtt_ms", .ofFloat r.rttMs),
  ("score", .ofFloat r.score),
  ("entry", .ofNat r.entry),
  ("endpoint", r.endpoint.toValue),
  ("mbps", .ofOption .ofFloat r.mbps),
  ("mbps_age_secs", .ofOption .ofNat r.mbpsAgeSecs),
  ("headroom_mbps", .ofNat r.headroomMbps)]

def ofFields (get : String → Option Value) : Decoded String RankedServer := do
  let name ← required get "name" asString
  let countryCode ← required get "country_code" asString
  let countryName ← required get "country_name" asString
  let location ← required get "location" asString
  let load ← required get "load" asNat
  let rttMs ← required get "rtt_ms" asFloat
  let score ← required get "score" asFloat
  let entry ← required get "entry" asNat
  let endpoint ← required get "endpoint" SocketAddr.ofValue
  let mbps ← optional get "mbps" asFloat
  let mbpsAgeSecs ← optional get "mbps_age_secs" asNat
  let headroomMbps ← required get "headroom_mbps" asNat
  return {
    name, countryCode, countryName, location, load, rttMs, score, entry, endpoint, mbps, mbpsAgeSecs
    headroomMbps }

def toValue (r : RankedServer) : Value := .object r.entries

def ofValue : Value → Decoded String RankedServer := asStruct (openStruct names ofFields)

end RankedServer

namespace SweepSummary

def names : List String :=
  ["probed", "reachable", "elapsed_ms", "age_secs", "best", "all_unreachable"]

def entries (s : SweepSummary) : Record Value := [
  ("probed", .ofNat s.probed),
  ("reachable", .ofNat s.reachable),
  ("elapsed_ms", .ofNat s.elapsedMs),
  ("age_secs", .ofNat s.ageSecs),
  ("best", .ofOption RankedServer.toValue s.best),
  ("all_unreachable", .bool s.allUnreachable)]

def ofFields (get : String → Option Value) : Decoded String SweepSummary := do
  let probed ← required get "probed" asNat
  let reachable ← required get "reachable" asNat
  let elapsedMs ← required get "elapsed_ms" asNat
  let ageSecs ← required get "age_secs" asNat
  let best ← optional get "best" RankedServer.ofValue
  let allUnreachable ← required get "all_unreachable" asBool
  return { probed, reachable, elapsedMs, ageSecs, best, allUnreachable }

def toValue (s : SweepSummary) : Value := .object s.entries

def ofValue : Value → Decoded String SweepSummary := asStruct (openStruct names ofFields)

end SweepSummary

namespace PendingSwitch

def names : List String := ["to", "reason", "age_secs"]

def entries (p : PendingSwitch) : Record Value := [
  ("to", p.target.toValue),
  ("reason", .string p.reason),
  ("age_secs", .ofNat p.ageSecs)]

def ofFields (get : String → Option Value) : Decoded String PendingSwitch := do
  let target ← required get "to" RankedServer.ofValue
  let reason ← required get "reason" asString
  let ageSecs ← required get "age_secs" asNat
  return { target, reason, ageSecs }

def toValue (p : PendingSwitch) : Value := .object p.entries

def ofValue : Value → Decoded String PendingSwitch := asStruct (openStruct names ofFields)

end PendingSwitch

namespace TuneReport

def names : List String := ["summary", "switched", "pending", "nothing_reachable"]

def entries (t : TuneReport) : Record Value := [
  ("summary", .string t.summary),
  ("switched", .bool t.switched),
  ("pending", .ofOption PendingSwitch.toValue t.pending),
  ("nothing_reachable", .bool t.nothingReachable)]

def ofFields (get : String → Option Value) : Decoded String TuneReport := do
  let summary ← required get "summary" asString
  let switched ← required get "switched" asBool
  let pending ← optional get "pending" PendingSwitch.ofValue
  let nothingReachable ← required get "nothing_reachable" asBool
  return { summary, switched, pending, nothingReachable }

def toValue (t : TuneReport) : Value := .object t.entries

def ofValue : Value → Decoded String TuneReport := asStruct (openStruct names ofFields)

end TuneReport

namespace SpeedSample

def names : List String := ["mbps", "bytes", "elapsed_ms", "truncated"]

def entries (s : SpeedSample) : Record Value := [
  ("mbps", .ofFloat s.mbps),
  ("bytes", .ofNat s.bytes),
  ("elapsed_ms", .ofNat s.elapsedMs),
  ("truncated", .bool s.truncated)]

def ofFields (get : String → Option Value) : Decoded String SpeedSample := do
  let mbps ← required get "mbps" asFloat
  let bytes ← required get "bytes" asNat
  let elapsedMs ← required get "elapsed_ms" asNat
  let truncated ← required get "truncated" asBool
  return { mbps, bytes, elapsedMs, truncated }

def toValue (s : SpeedSample) : Value := .object s.entries

def ofValue : Value → Decoded String SpeedSample := asStruct (openStruct names ofFields)

end SpeedSample

namespace SpeedReport

def names : List String := ["tunnelled", "direct", "server", "min_mbps", "meets_target", "verdict"]

def entries (s : SpeedReport) : Record Value := [
  ("tunnelled", .ofOption SpeedSample.toValue s.tunnelled),
  ("direct", .ofOption SpeedSample.toValue s.direct),
  ("server", .ofOption .string s.server),
  ("min_mbps", .ofFloat s.minMbps),
  ("meets_target", .bool s.meetsTarget),
  ("verdict", .string s.verdict)]

def ofFields (get : String → Option Value) : Decoded String SpeedReport := do
  let tunnelled ← optional get "tunnelled" SpeedSample.ofValue
  let direct ← optional get "direct" SpeedSample.ofValue
  let server ← optional get "server" asString
  let minMbps ← required get "min_mbps" asFloat
  let meetsTarget ← required get "meets_target" asBool
  let verdict ← required get "verdict" asString
  return { tunnelled, direct, server, minMbps, meetsTarget, verdict }

def toValue (s : SpeedReport) : Value := .object s.entries

def ofValue : Value → Decoded String SpeedReport := asStruct (openStruct names ofFields)

end SpeedReport

namespace KillswitchReport

def names : List String := ["engaged", "configured", "dropped"]

def entries (k : KillswitchReport) : Record Value := [
  ("engaged", .bool k.engaged),
  ("configured", .bool k.configured),
  ("dropped", .ofOption .ofNat k.dropped)]

def ofFields (get : String → Option Value) : Decoded String KillswitchReport := do
  let engaged ← required get "engaged" asBool
  let configured ← required get "configured" asBool
  let dropped ← optional get "dropped" asNat
  return { engaged, configured, dropped }

def toValue (k : KillswitchReport) : Value := .object k.entries

def ofValue : Value → Decoded String KillswitchReport := asStruct (openStruct names ofFields)

end KillswitchReport

namespace ServerSummary

def names : List String :=
  ["name", "country_code", "country_name", "location", "load", "users", "healthy",
    "headroom_mbps"]

def entries (s : ServerSummary) : Record Value := [
  ("name", .string s.name),
  ("country_code", .string s.countryCode),
  ("country_name", .string s.countryName),
  ("location", .string s.location),
  ("load", .ofNat s.load),
  ("users", .ofNat s.users),
  ("healthy", .bool s.healthy),
  ("headroom_mbps", .ofNat s.headroomMbps)]

def ofFields (get : String → Option Value) : Decoded String ServerSummary := do
  let name ← required get "name" asString
  let countryCode ← required get "country_code" asString
  let countryName ← required get "country_name" asString
  let location ← required get "location" asString
  let load ← required get "load" asNat
  let users ← required get "users" asNat
  let healthy ← required get "healthy" asBool
  let headroomMbps ← required get "headroom_mbps" asNat
  return { name, countryCode, countryName, location, load, users, healthy, headroomMbps }

def toValue (s : ServerSummary) : Value := .object s.entries

def ofValue : Value → Decoded String ServerSummary := asStruct (openStruct names ofFields)

end ServerSummary

namespace StatusReport

def names : List String :=
  ["connected", "interface", "server", "location", "country_code", "endpoint", "entry",
    "last_handshake_secs", "healthy", "tx_bytes", "rx_bytes", "last_sweep", "pending_switch",
    "last_tune", "next_tune_secs", "config_path", "baseline_mbps", "baseline_age_secs"]

def entries (s : StatusReport) : Record Value := [
  ("connected", .bool s.connected),
  ("interface", .string s.interface),
  ("server", .ofOption .string s.server),
  ("location", .ofOption .string s.location),
  ("country_code", .ofOption .string s.countryCode),
  ("endpoint", .ofOption SocketAddr.toValue s.endpoint),
  ("entry", .ofOption .ofNat s.entry),
  ("last_handshake_secs", .ofOption .ofNat s.lastHandshakeSecs),
  ("healthy", .bool s.healthy),
  ("tx_bytes", .ofNat s.txBytes),
  ("rx_bytes", .ofNat s.rxBytes),
  ("last_sweep", .ofOption SweepSummary.toValue s.lastSweep),
  ("pending_switch", .ofOption PendingSwitch.toValue s.pendingSwitch),
  ("last_tune", .ofOption .string s.lastTune),
  ("next_tune_secs", .ofOption .ofNat s.nextTuneSecs),
  ("config_path", .ofOption .string s.configPath),
  ("baseline_mbps", .ofOption .ofFloat s.baselineMbps),
  ("baseline_age_secs", .ofOption .ofNat s.baselineAgeSecs)]

def ofFields (get : String → Option Value) : Decoded String StatusReport := do
  let connected ← required get "connected" asBool
  let interface ← required get "interface" asString
  let server ← optional get "server" asString
  let location ← optional get "location" asString
  let countryCode ← optional get "country_code" asString
  let endpoint ← optional get "endpoint" SocketAddr.ofValue
  let entry ← optional get "entry" asNat
  let lastHandshakeSecs ← optional get "last_handshake_secs" asNat
  let healthy ← required get "healthy" asBool
  let txBytes ← required get "tx_bytes" asNat
  let rxBytes ← required get "rx_bytes" asNat
  let lastSweep ← optional get "last_sweep" SweepSummary.ofValue
  let pendingSwitch ← optional get "pending_switch" PendingSwitch.ofValue
  let lastTune ← optional get "last_tune" asString
  let nextTuneSecs ← optional get "next_tune_secs" asNat
  let configPath ← optional get "config_path" asString
  let baselineMbps ← optional get "baseline_mbps" asFloat
  let baselineAgeSecs ← optional get "baseline_age_secs" asNat
  return {
    connected, interface, server, location, countryCode, endpoint, entry, lastHandshakeSecs
    healthy, txBytes, rxBytes, lastSweep, pendingSwitch, lastTune, nextTuneSecs, configPath
    baselineMbps, baselineAgeSecs }

def toValue (s : StatusReport) : Value := .object s.entries

def ofValue : Value → Decoded String StatusReport := asStruct (openStruct names ofFields)

end StatusReport

namespace Request

/-- The name of the variant, which stands among its fields. -/
def tag : Request → String
  | status => "status"
  | connect .. => "connect"
  | disconnect => "disconnect"
  | switch .. => "switch"
  | test .. => "test"
  | lastRanking .. => "last_ranking"
  | servers .. => "servers"
  | reload => "reload"
  | version => "version"
  | autotune => "autotune"
  | approve => "approve"
  | dismiss => "dismiss"
  | speedtest => "speedtest"
  | baseline .. => "baseline"
  | killswitch .. => "killswitch"

def ofU64 (n : UInt64) : Value := .ofNat n.toNat

def entries : Request → Record Value
  | connect server measure =>
    [("server", .ofOption .string server), ("measure", .ofOption .bool measure)]
  | switch server => [("server", .string server)]
  | test country => [("country", .ofOption .string country)]
  | lastRanking limit => [("limit", .ofOption ofU64 limit)]
  | servers country limit all =>
    [("country", .ofOption .string country), ("limit", .ofOption ofU64 limit), ("all", .bool all)]
  | baseline confirm => [("confirm", .bool confirm)]
  | killswitch enable => [("enable", .ofOption .bool enable)]
  | _ => []

/-- A variant from its name and what stands beside it. -/
def ofTagged (tag : String) (r : Record Value) : Decoded String Request :=
  match tag with
  | "status" => return status
  | "connect" => openStruct ["server", "measure"] (fun get => do
      return connect (← optional get "server" asString) (← optional get "measure" asBool)) r
  | "disconnect" => return disconnect
  | "switch" => openStruct ["server"] (fun get =>
      return switch (← required get "server" asString)) r
  | "test" => openStruct ["country"] (fun get =>
      return test (← optional get "country" asString)) r
  | "last_ranking" => openStruct ["limit"] (fun get =>
      return lastRanking (← optional get "limit" asU64)) r
  | "servers" => openStruct ["country", "limit", "all"] (fun get => do
      return servers (← optional get "country" asString) (← optional get "limit" asU64)
        (← withDefault get "all" asBool false)) r
  | "reload" => return reload
  | "version" => return version
  | "autotune" => return autotune
  | "approve" => return approve
  | "dismiss" => return dismiss
  | "speedtest" => return speedtest
  | "baseline" => openStruct ["confirm"] (fun get =>
      return baseline (← required get "confirm" asBool)) r
  | "killswitch" => openStruct ["enable"] (fun get =>
      return killswitch (← optional get "enable" asBool)) r
  | name => throw (.unknownVariant name)

def toValue (r : Request) : Value := .object (("request", .string r.tag) :: r.entries)

def ofValue : Value → Decoded String Request := asStruct fun r => do
  let tag ← openStruct ["request"] (fun get => required get "request" asString) r
  ofTagged tag (r.filter (·.1 ≠ "request"))

end Request

namespace Response

def tag : Response → String
  | status .. => "status"
  | ranking .. => "ranking"
  | servers .. => "servers"
  | ok .. => "ok"
  | error .. => "error"
  | version .. => "version"
  | tuned .. => "tuned"
  | speed .. => "speed"
  | killswitch .. => "killswitch"

/-- What stands beside the name of the variant. -/
def data : Response → Value
  | status report => report.toValue
  | ranking list => .ofList RankedServer.toValue list
  | servers list => .ofList ServerSummary.toValue list
  | ok message | error message => .object [("message", .string message)]
  | version text => .object [("version", .string text)]
  | tuned report => report.toValue
  | speed report => report.toValue
  | killswitch report => report.toValue

def textOf (name : String) : Value → Decoded String String :=
  asStruct (openStruct [name] fun get => required get name asString)

def ofTagged (tag : String) (v : Value) : Decoded String Response :=
  match tag with
  | "status" => (StatusReport.ofValue v).map status
  | "ranking" => (asList RankedServer.ofValue v).map ranking
  | "servers" => (asList ServerSummary.ofValue v).map servers
  | "ok" => (textOf "message" v).map ok
  | "error" => (textOf "message" v).map error
  | "version" => (textOf "version" v).map version
  | "tuned" => (TuneReport.ofValue v).map tuned
  | "speed" => (SpeedReport.ofValue v).map speed
  | "killswitch" => (KillswitchReport.ofValue v).map killswitch
  | name => throw (.unknownVariant name)

def toValue (r : Response) : Value := .object [("response", .string r.tag), ("data", r.data)]

def ofValue : Value → Decoded String Response :=
  asStruct (openStruct ["response", "data"] fun get => do
    let tag ← required get "response" asString
    required get "data" (ofTagged tag))

end Response

/-! ### Which of them come back -/

/-- The measurements are finite numbers. -/
structure RankedServer.Finite (r : RankedServer) : Prop where
  rttMs : r.rttMs.isFinite = true
  score : r.score.isFinite = true
  mbps : ∀ x, r.mbps = some x → x.isFinite = true

def SweepSummary.Finite (s : SweepSummary) : Prop := ∀ r, s.best = some r → r.Finite

def PendingSwitch.Finite (p : PendingSwitch) : Prop := p.target.Finite

def TuneReport.Finite (t : TuneReport) : Prop := ∀ p, t.pending = some p → p.Finite

def SpeedSample.Finite (s : SpeedSample) : Prop := s.mbps.isFinite = true

structure SpeedReport.Finite (s : SpeedReport) : Prop where
  tunnelled : ∀ sample, s.tunnelled = some sample → sample.Finite
  direct : ∀ sample, s.direct = some sample → sample.Finite
  minMbps : s.minMbps.isFinite = true

structure StatusReport.Finite (s : StatusReport) : Prop where
  lastSweep : ∀ summary, s.lastSweep = some summary → summary.Finite
  pendingSwitch : ∀ p, s.pendingSwitch = some p → p.Finite
  baselineMbps : ∀ x, s.baselineMbps = some x → x.isFinite = true

/-- Every double of the response is a finite number. -/
def Response.Finite : Response → Prop
  | status report => report.Finite
  | ranking list => ∀ r ∈ list, r.Finite
  | tuned report => report.Finite
  | speed report => report.Finite
  | servers _ | ok _ | error _ | version _ | killswitch _ => True

theorem optional_ofOption {α : Type} {get : String → Option Value} {name : String}
    {encode : α → Value} {decode : Value → Decoded String α} {o : Option α}
    (hnull : ∀ a, encode a ≠ .null) (hget : get name = some (ofOption encode o)) :
    optional get name decode = .ok o ↔ ∀ a, o = some a → decode (encode a) = .ok a := by
  rw [optional, withDefault, hget]
  exact asOption_ofOption hnull

/-- A field that may be null comes back where all its values do. -/
theorem optional_ok {α : Type} {get : String → Option Value} {name : String}
    {encode : α → Value} {decode : Value → Decoded String α} {o : Option α}
    (hget : get name = some (ofOption encode o)) (hnull : ∀ a, encode a ≠ .null)
    (h : ∀ a, decode (encode a) = .ok a) : optional get name decode = .ok o :=
  (optional_ofOption hnull hget).mpr fun a _ => h a

theorem optional_string {get : String → Option Value} {name : String} {o : Option String}
    (hget : get name = some (ofOption .string o)) : optional get name asString = .ok o :=
  optional_ok hget (fun _ => nofun) fun _ => rfl

theorem optional_nat {get : String → Option Value} {name : String} {o : Option Nat}
    (hget : get name = some (ofOption .ofNat o)) : optional get name asNat = .ok o :=
  optional_ok hget (fun _ => nofun) fun _ => rfl

theorem optional_bool {get : String → Option Value} {name : String} {o : Option Bool}
    (hget : get name = some (ofOption .bool o)) : optional get name asBool = .ok o :=
  optional_ok hget (fun _ => nofun) fun _ => rfl

theorem SocketAddr.ofValue_toValue (a : SocketAddr) : ofValue a.toValue = .ok a := by
  rw [ofValue, toValue, asString, ok_bind, parse_display]
  rfl

theorem RankedServer.ofValue_toValue {r : RankedServer} : ofValue r.toValue = .ok r ↔ r.Finite := by
  rw [ofValue, toValue, asStruct_object names r.entries rfl (by decide)]
  constructor
  · intro h
    obtain ⟨_, -, h⟩ := bind_ok.mp h
    obtain ⟨_, -, h⟩ := bind_ok.mp h
    obtain ⟨_, -, h⟩ := bind_ok.mp h
    obtain ⟨_, -, h⟩ := bind_ok.mp h
    obtain ⟨_, -, h⟩ := bind_ok.mp h
    obtain ⟨rttMs, hrttMs, h⟩ := bind_ok.mp h
    obtain ⟨score, hscore, h⟩ := bind_ok.mp h
    obtain ⟨_, -, h⟩ := bind_ok.mp h
    obtain ⟨_, -, h⟩ := bind_ok.mp h
    obtain ⟨mbps, hmbps, h⟩ := bind_ok.mp h
    obtain ⟨_, -, h⟩ := bind_ok.mp h
    obtain ⟨_, -, h⟩ := bind_ok.mp h
    cases h
    exact ⟨asFloat_ofFloat.mp hrttMs, asFloat_ofFloat.mp hscore, asOption_ofFloat.mp hmbps⟩
  · intro h
    refine bind_ok.mpr ⟨r.name, rfl, ?_⟩
    refine bind_ok.mpr ⟨r.countryCode, rfl, ?_⟩
    refine bind_ok.mpr ⟨r.countryName, rfl, ?_⟩
    refine bind_ok.mpr ⟨r.location, rfl, ?_⟩
    refine bind_ok.mpr ⟨r.load, rfl, ?_⟩
    refine bind_ok.mpr ⟨r.rttMs, required_some rfl (asFloat_ofFloat.mpr h.rttMs), ?_⟩
    refine bind_ok.mpr ⟨r.score, required_some rfl (asFloat_ofFloat.mpr h.score), ?_⟩
    refine bind_ok.mpr ⟨r.entry, rfl, ?_⟩
    refine bind_ok.mpr ⟨r.endpoint, required_some rfl r.endpoint.ofValue_toValue, ?_⟩
    refine bind_ok.mpr ⟨r.mbps, withDefault_some rfl (asOption_ofFloat.mpr h.mbps), ?_⟩
    refine bind_ok.mpr ⟨r.mbpsAgeSecs, optional_nat rfl, ?_⟩
    exact bind_ok.mpr ⟨r.headroomMbps, rfl, rfl⟩

theorem RankedServer.toValue_ne_null (r : RankedServer) : r.toValue ≠ .null := nofun

theorem SweepSummary.ofValue_toValue {s : SweepSummary} : ofValue s.toValue = .ok s ↔ s.Finite := by
  rw [ofValue, toValue, asStruct_object names s.entries rfl (by decide)]
  constructor
  · intro h r hr
    obtain ⟨_, -, h⟩ := bind_ok.mp h
    obtain ⟨_, -, h⟩ := bind_ok.mp h
    obtain ⟨_, -, h⟩ := bind_ok.mp h
    obtain ⟨_, -, h⟩ := bind_ok.mp h
    obtain ⟨best, hbest, h⟩ := bind_ok.mp h
    obtain ⟨_, -, h⟩ := bind_ok.mp h
    cases h
    have hbest := (optional_ofOption RankedServer.toValue_ne_null rfl).mp hbest
    exact RankedServer.ofValue_toValue.mp (hbest r hr)
  · intro h
    refine bind_ok.mpr ⟨s.probed, rfl, ?_⟩
    refine bind_ok.mpr ⟨s.reachable, rfl, ?_⟩
    refine bind_ok.mpr ⟨s.elapsedMs, rfl, ?_⟩
    refine bind_ok.mpr ⟨s.ageSecs, rfl, ?_⟩
    refine bind_ok.mpr ⟨s.best, (optional_ofOption RankedServer.toValue_ne_null rfl).mpr
      fun r hr => RankedServer.ofValue_toValue.mpr (h r hr), ?_⟩
    exact bind_ok.mpr ⟨s.allUnreachable, rfl, rfl⟩

theorem PendingSwitch.ofValue_toValue {p : PendingSwitch} :
    ofValue p.toValue = .ok p ↔ p.Finite := by
  rw [ofValue, toValue, asStruct_object names p.entries rfl (by decide)]
  constructor
  · intro h
    obtain ⟨target, htarget, h⟩ := bind_ok.mp h
    obtain ⟨_, -, h⟩ := bind_ok.mp h
    obtain ⟨_, -, h⟩ := bind_ok.mp h
    cases h
    exact RankedServer.ofValue_toValue.mp htarget
  · intro h
    refine bind_ok.mpr ⟨p.target, required_some rfl (RankedServer.ofValue_toValue.mpr h), ?_⟩
    refine bind_ok.mpr ⟨p.reason, rfl, ?_⟩
    exact bind_ok.mpr ⟨p.ageSecs, rfl, rfl⟩

theorem PendingSwitch.toValue_ne_null (p : PendingSwitch) : p.toValue ≠ .null := nofun

theorem TuneReport.ofValue_toValue {t : TuneReport} : ofValue t.toValue = .ok t ↔ t.Finite := by
  rw [ofValue, toValue, asStruct_object names t.entries rfl (by decide)]
  constructor
  · intro h p hp
    obtain ⟨_, -, h⟩ := bind_ok.mp h
    obtain ⟨_, -, h⟩ := bind_ok.mp h
    obtain ⟨pending, hpending, h⟩ := bind_ok.mp h
    obtain ⟨_, -, h⟩ := bind_ok.mp h
    cases h
    have hpending := (optional_ofOption PendingSwitch.toValue_ne_null rfl).mp hpending
    exact PendingSwitch.ofValue_toValue.mp (hpending p hp)
  · intro h
    refine bind_ok.mpr ⟨t.summary, rfl, ?_⟩
    refine bind_ok.mpr ⟨t.switched, rfl, ?_⟩
    refine bind_ok.mpr ⟨t.pending, (optional_ofOption PendingSwitch.toValue_ne_null rfl).mpr
      fun p hp => PendingSwitch.ofValue_toValue.mpr (h p hp), ?_⟩
    exact bind_ok.mpr ⟨t.nothingReachable, rfl, rfl⟩

theorem SpeedSample.ofValue_toValue {s : SpeedSample} : ofValue s.toValue = .ok s ↔ s.Finite := by
  rw [ofValue, toValue, asStruct_object names s.entries rfl (by decide)]
  constructor
  · intro h
    obtain ⟨mbps, hmbps, h⟩ := bind_ok.mp h
    obtain ⟨_, -, h⟩ := bind_ok.mp h
    obtain ⟨_, -, h⟩ := bind_ok.mp h
    obtain ⟨_, -, h⟩ := bind_ok.mp h
    cases h
    exact asFloat_ofFloat.mp hmbps
  · intro h
    refine bind_ok.mpr ⟨s.mbps, required_some rfl (asFloat_ofFloat.mpr h), ?_⟩
    refine bind_ok.mpr ⟨s.bytes, rfl, ?_⟩
    refine bind_ok.mpr ⟨s.elapsedMs, rfl, ?_⟩
    exact bind_ok.mpr ⟨s.truncated, rfl, rfl⟩

theorem SpeedSample.toValue_ne_null (s : SpeedSample) : s.toValue ≠ .null := nofun

theorem SpeedReport.ofValue_toValue {s : SpeedReport} : ofValue s.toValue = .ok s ↔ s.Finite := by
  rw [ofValue, toValue, asStruct_object names s.entries rfl (by decide)]
  constructor
  · intro h
    obtain ⟨tunnelled, htunnelled, h⟩ := bind_ok.mp h
    obtain ⟨direct, hdirect, h⟩ := bind_ok.mp h
    obtain ⟨_, -, h⟩ := bind_ok.mp h
    obtain ⟨minMbps, hminMbps, h⟩ := bind_ok.mp h
    obtain ⟨_, -, h⟩ := bind_ok.mp h
    obtain ⟨_, -, h⟩ := bind_ok.mp h
    cases h
    have htunnelled := (optional_ofOption SpeedSample.toValue_ne_null rfl).mp htunnelled
    have hdirect := (optional_ofOption SpeedSample.toValue_ne_null rfl).mp hdirect
    exact ⟨fun sample hsample => SpeedSample.ofValue_toValue.mp (htunnelled sample hsample),
      fun sample hsample => SpeedSample.ofValue_toValue.mp (hdirect sample hsample),
      asFloat_ofFloat.mp hminMbps⟩
  · intro h
    refine bind_ok.mpr ⟨s.tunnelled, (optional_ofOption SpeedSample.toValue_ne_null rfl).mpr
      fun sample hsample => SpeedSample.ofValue_toValue.mpr (h.tunnelled sample hsample), ?_⟩
    refine bind_ok.mpr ⟨s.direct, (optional_ofOption SpeedSample.toValue_ne_null rfl).mpr
      fun sample hsample => SpeedSample.ofValue_toValue.mpr (h.direct sample hsample), ?_⟩
    refine bind_ok.mpr ⟨s.server, optional_string rfl, ?_⟩
    refine bind_ok.mpr ⟨s.minMbps, required_some rfl (asFloat_ofFloat.mpr h.minMbps), ?_⟩
    refine bind_ok.mpr ⟨s.meetsTarget, rfl, ?_⟩
    exact bind_ok.mpr ⟨s.verdict, rfl, rfl⟩

theorem KillswitchReport.ofValue_toValue (k : KillswitchReport) : ofValue k.toValue = .ok k := by
  rw [ofValue, toValue, asStruct_object names k.entries rfl (by decide)]
  refine bind_ok.mpr ⟨k.engaged, rfl, ?_⟩
  refine bind_ok.mpr ⟨k.configured, rfl, ?_⟩
  exact bind_ok.mpr ⟨k.dropped, optional_nat rfl, rfl⟩

theorem ServerSummary.ofValue_toValue (s : ServerSummary) : ofValue s.toValue = .ok s := by
  rw [ofValue, toValue, asStruct_object names s.entries rfl (by decide)]
  rfl

theorem SweepSummary.toValue_ne_null (s : SweepSummary) : s.toValue ≠ .null := nofun

theorem SocketAddr.toValue_ne_null (a : SocketAddr) : a.toValue ≠ .null := nofun

theorem StatusReport.ofValue_toValue {s : StatusReport} : ofValue s.toValue = .ok s ↔ s.Finite := by
  rw [ofValue, toValue, asStruct_object names s.entries rfl (by decide)]
  constructor
  · intro h
    obtain ⟨_, -, h⟩ := bind_ok.mp h
    obtain ⟨_, -, h⟩ := bind_ok.mp h
    obtain ⟨_, -, h⟩ := bind_ok.mp h
    obtain ⟨_, -, h⟩ := bind_ok.mp h
    obtain ⟨_, -, h⟩ := bind_ok.mp h
    obtain ⟨_, -, h⟩ := bind_ok.mp h
    obtain ⟨_, -, h⟩ := bind_ok.mp h
    obtain ⟨_, -, h⟩ := bind_ok.mp h
    obtain ⟨_, -, h⟩ := bind_ok.mp h
    obtain ⟨_, -, h⟩ := bind_ok.mp h
    obtain ⟨_, -, h⟩ := bind_ok.mp h
    obtain ⟨lastSweep, hlastSweep, h⟩ := bind_ok.mp h
    obtain ⟨pendingSwitch, hpendingSwitch, h⟩ := bind_ok.mp h
    obtain ⟨_, -, h⟩ := bind_ok.mp h
    obtain ⟨_, -, h⟩ := bind_ok.mp h
    obtain ⟨_, -, h⟩ := bind_ok.mp h
    obtain ⟨baselineMbps, hbaselineMbps, h⟩ := bind_ok.mp h
    obtain ⟨_, -, h⟩ := bind_ok.mp h
    cases h
    have hlastSweep := (optional_ofOption SweepSummary.toValue_ne_null rfl).mp hlastSweep
    have hpendingSwitch := (optional_ofOption PendingSwitch.toValue_ne_null rfl).mp hpendingSwitch
    exact ⟨fun summary hsummary => SweepSummary.ofValue_toValue.mp (hlastSweep summary hsummary),
      fun p hp => PendingSwitch.ofValue_toValue.mp (hpendingSwitch p hp),
      asOption_ofFloat.mp hbaselineMbps⟩
  · intro h
    refine bind_ok.mpr ⟨s.connected, rfl, ?_⟩
    refine bind_ok.mpr ⟨s.interface, rfl, ?_⟩
    refine bind_ok.mpr ⟨s.server, optional_string rfl, ?_⟩
    refine bind_ok.mpr ⟨s.location, optional_string rfl, ?_⟩
    refine bind_ok.mpr ⟨s.countryCode, optional_string rfl, ?_⟩
    refine bind_ok.mpr ⟨s.endpoint, (optional_ofOption SocketAddr.toValue_ne_null rfl).mpr
      fun a _ => a.ofValue_toValue, ?_⟩
    refine bind_ok.mpr ⟨s.entry, optional_nat rfl, ?_⟩
    refine bind_ok.mpr ⟨s.lastHandshakeSecs, optional_nat rfl, ?_⟩
    refine bind_ok.mpr ⟨s.healthy, rfl, ?_⟩
    refine bind_ok.mpr ⟨s.txBytes, rfl, ?_⟩
    refine bind_ok.mpr ⟨s.rxBytes, rfl, ?_⟩
    refine bind_ok.mpr ⟨s.lastSweep, (optional_ofOption SweepSummary.toValue_ne_null rfl).mpr
      fun summary hsummary => SweepSummary.ofValue_toValue.mpr (h.lastSweep summary hsummary), ?_⟩
    refine bind_ok.mpr ⟨s.pendingSwitch, (optional_ofOption PendingSwitch.toValue_ne_null rfl).mpr
      fun p hp => PendingSwitch.ofValue_toValue.mpr (h.pendingSwitch p hp), ?_⟩
    refine bind_ok.mpr ⟨s.lastTune, optional_string rfl, ?_⟩
    refine bind_ok.mpr ⟨s.nextTuneSecs, optional_nat rfl, ?_⟩
    refine bind_ok.mpr ⟨s.configPath, optional_string rfl, ?_⟩
    refine bind_ok.mpr ⟨s.baselineMbps,
      withDefault_some rfl (asOption_ofFloat.mpr h.baselineMbps), ?_⟩
    exact bind_ok.mpr ⟨s.baselineAgeSecs, optional_nat rfl, rfl⟩

theorem optional_u64 {get : String → Option Value} {name : String} {o : Option UInt64}
    (hget : get name = some (ofOption Request.ofU64 o)) : optional get name asU64 = .ok o :=
  optional_ok hget (fun _ => nofun) asU64_ofNat

/-- Every request comes back. -/
theorem Request.ofValue_toValue (r : Request) : ofValue r.toValue = .ok r := by
  cases r with
  | connect server measure =>
    refine bind_ok.mpr ⟨_, rfl, bind_ok.mpr ⟨server, optional_string rfl, ?_⟩⟩
    exact bind_ok.mpr ⟨measure, optional_bool rfl, rfl⟩
  | test country => exact bind_ok.mpr ⟨_, rfl, bind_ok.mpr ⟨country, optional_string rfl, rfl⟩⟩
  | lastRanking limit => exact bind_ok.mpr ⟨_, rfl, bind_ok.mpr ⟨limit, optional_u64 rfl, rfl⟩⟩
  | servers country limit all =>
    refine bind_ok.mpr ⟨_, rfl, bind_ok.mpr ⟨country, optional_string rfl, ?_⟩⟩
    exact bind_ok.mpr ⟨limit, optional_u64 rfl, rfl⟩
  | killswitch enable => exact bind_ok.mpr ⟨_, rfl, bind_ok.mpr ⟨enable, optional_bool rfl, rfl⟩⟩
  | _ => rfl

/-- A response comes back exactly when all its doubles are finite. -/
theorem Response.ofValue_toValue {r : Response} : ofValue r.toValue = .ok r ↔ r.Finite := by
  have htagged : ofValue r.toValue = ofTagged r.tag r.data := rfl
  rw [htagged]
  cases r with
  | status report =>
    refine map_ok.trans ⟨?_, fun h => ⟨report, StatusReport.ofValue_toValue.mpr h, rfl⟩⟩
    rintro ⟨_, h, ⟨⟩⟩
    exact StatusReport.ofValue_toValue.mp h
  | ranking list =>
    have hlist : asList RankedServer.ofValue (.ofList RankedServer.toValue list) =
        (.ok list : Decoded String _) ↔ ∀ r ∈ list, r.Finite :=
      asList_ofList.trans (forall₂_congr fun _ _ => RankedServer.ofValue_toValue)
    refine map_ok.trans ⟨?_, fun h => ⟨list, hlist.mpr h, rfl⟩⟩
    rintro ⟨_, h, ⟨⟩⟩
    exact hlist.mp h
  | servers list =>
    have hlist := asList_ofList.mpr fun s (_ : s ∈ list) => s.ofValue_toValue
    exact iff_of_true (map_ok.mpr ⟨list, hlist, rfl⟩) trivial
  | ok message => exact iff_of_true rfl trivial
  | error message => exact iff_of_true rfl trivial
  | version text => exact iff_of_true rfl trivial
  | tuned report =>
    refine map_ok.trans ⟨?_, fun h => ⟨report, TuneReport.ofValue_toValue.mpr h, rfl⟩⟩
    rintro ⟨_, h, ⟨⟩⟩
    exact TuneReport.ofValue_toValue.mp h
  | speed report =>
    refine map_ok.trans ⟨?_, fun h => ⟨report, SpeedReport.ofValue_toValue.mpr h, rfl⟩⟩
    rintro ⟨_, h, ⟨⟩⟩
    exact SpeedReport.ofValue_toValue.mp h
  | killswitch report =>
    exact iff_of_true (map_ok.mpr ⟨report, report.ofValue_toValue, rfl⟩) trivial

/-! ### Their lines -/

/-- Why a text is no message: it is no document, or not that of a message. -/
abbrev Refusal := Option (DecodeError String)

/-- What is read from a line, without the space at its end. -/
def readLine {α : Type} (floats : Floats) (decode : Value → Decoded String α) (line : String) :
    Except Refusal α :=
  match ofText floats (String.ofList (trimEndChars line.toList)) with
  | some v => (decode v).mapError some
  | none => .error none

def Request.toText (floats : Floats) (r : Request) : String := Json.toText floats r.toValue

def Response.toText (floats : Floats) (r : Response) : String := Json.toText floats r.toValue

section Fit

variable {n : Nat}

theorem SocketAddr.fits (a : SocketAddr) : Fits n a.toValue := .string _

theorem RankedServer.fits (r : RankedServer) : Fits (n + 1) r.toValue :=
  .object (by simp [entries, SocketAddr.fits, fits_ofOption])

theorem SweepSummary.fits (s : SweepSummary) : Fits (n + 2) s.toValue :=
  .object (by simp [entries, fits_ofOption, RankedServer.fits])

theorem PendingSwitch.fits (p : PendingSwitch) : Fits (n + 2) p.toValue :=
  .object (by simp [entries, RankedServer.fits])

theorem TuneReport.fits (t : TuneReport) : Fits (n + 3) t.toValue :=
  .object (by simp [entries, fits_ofOption, PendingSwitch.fits])

theorem SpeedSample.fits (s : SpeedSample) : Fits (n + 1) s.toValue := .object (by simp [entries])

theorem SpeedReport.fits (s : SpeedReport) : Fits (n + 2) s.toValue :=
  .object (by simp [entries, fits_ofOption, SpeedSample.fits])

theorem KillswitchReport.fits (k : KillswitchReport) : Fits (n + 1) k.toValue :=
  .object (by simp [entries, fits_ofOption])

theorem ServerSummary.fits (s : ServerSummary) : Fits (n + 1) s.toValue :=
  .object (by simp [entries])

theorem StatusReport.fits (s : StatusReport) : Fits (n + 3) s.toValue :=
  .object (by
    simp [entries, SocketAddr.fits, fits_ofOption, SweepSummary.fits, PendingSwitch.fits])

theorem Request.fits (r : Request) : Fits (n + 1) r.toValue := by
  have hofU64 (k : UInt64) : Fits n (ofU64 k) := .int _
  exact .object (by cases r <;> simp [entries, hofU64, fits_ofOption])

theorem Response.fits (r : Response) : Fits (n + 4) r.toValue := by
  have hdata : Fits (n + 3) r.data := by
    cases r with
    | status report => exact report.fits
    | ranking list => exact fits_ofList RankedServer.fits list
    | servers list => exact fits_ofList ServerSummary.fits list
    | tuned report => exact report.fits
    | speed report => exact report.fits
    | killswitch report => exact report.fits
    | ok | error | version => exact .object (by simp)
  exact .object (by simp [hdata])

end Fit

/-- The line of an object is read as that object. -/
theorem readLine_toText {α : Type} (floats : Floats) {r : Record Value}
    (h : Fits maxDepth (.object r)) (decode : Value → Decoded String α) :
    readLine floats decode (Json.toText floats (.object r) ++ "\n") =
      (decode (.object r)).mapError some := by
  have htext : trimEndChars (Json.toText floats (.object r) ++ "\n").toList =
      (Json.toText floats (.object r)).toList := by
    rw [String.toList_append]
    refine (trimEndChars_append (by decide) _).trans ?_
    rw [Json.toText, String.toList_ofList, write]
    exact trimEndChars_of_last (by decide) _
  rw [readLine, htext, String.ofList_toList, ofText_toText floats h]

/-- A text is one line, and who reads the line gets this message. -/
structure Crosses {α : Type} (floats : Floats) (decode : Value → Decoded String α) (text : String)
    (a : α) : Prop where
  line : '\n' ∉ text.toList
  read : readLine floats decode (text ++ "\n") = .ok a

theorem newline_not_mem_toText (floats : Floats) {v : Value} (h : Fits maxDepth v) :
    '\n' ∉ (Json.toText floats v).toList := fun hmem =>
  absurd (printable_toText floats h hmem) (by decide)

/-- Every request crosses. -/
theorem Request.crosses (floats : Floats) (r : Request) :
    Crosses floats ofValue (r.toText floats) r where
  line := newline_not_mem_toText floats r.fits
  read := by
    refine (readLine_toText floats r.fits _).trans ?_
    exact mapError_ok.mpr r.ofValue_toValue

/-- A response crosses exactly when all its doubles are finite. -/
theorem Response.crosses_iff (floats : Floats) {r : Response} :
    Crosses floats ofValue (r.toText floats) r ↔ r.Finite := by
  have hread : readLine floats ofValue (r.toText floats ++ "\n") = .ok r ↔ r.Finite := by
    rw [Response.toText, toValue, readLine_toText floats r.fits]
    exact mapError_ok.trans ofValue_toValue
  exact ⟨fun h => hread.mp h.read, fun h => ⟨newline_not_mem_toText floats r.fits, hread.mpr h⟩⟩

end Vpnmgr
