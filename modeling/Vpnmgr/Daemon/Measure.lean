import Vpnmgr.Daemon.State

/-! The operations that only measure: the server list and its cache, the sweep, the probes of one
server, and the record of measured rates. None of them touches the connection or the proposal. -/

namespace Vpnmgr

open Ieee Stateful Stateful.Action

variable {P : Platform}

/-- Whether the cached list has expired, or there is none. -/
def isStale : Option (ServerList × Instant) → Daemon P Bool
  | none => pure true
  | some (_, at_) => do return decide (serverCacheTtl < (← elapsed at_))

/-- Fetch the list. A failed fetch leaves the copy in the cache, if there is one. -/
def refresh : Daemon P Unit := do
  match ← nextFetch with
  | .noClient reason => fail (.fetch reason)
  | .fetched list =>
    let t ← now
    modify fun s => { s with servers := some (list, t) }
  | .failed reason =>
    match (← self).servers with
    | some _ => pure ()
    | none => fail (.fetch reason)

def refreshIfStale : Daemon P Unit := do
  if (← isStale (← self).servers) then refresh else pure ()

def cachedList : Daemon P ServerList := do
  match (← self).servers with
  | some (list, _) => pure list
  | none => fail (.fetch "cached or just fetched")

/-- The server list, refetched when the cache has expired. -/
def serverList : Daemon P ServerList := do
  refreshIfStale
  cachedList

namespace State

/-- The last measured line rate, without its timestamp. -/
def direct (s : State P) : Option F64 := s.directMbps.map (·.1)

/-- Ranking inputs. -/
def scoring (s : State P) : Scoring where
  weights := s.config.autotune.weights
  headroomTargetMbps := s.config.autotune.headroomTargetMbps s.direct

/-- A prober for the current connection state: its marked probes leave the connected endpoint
alone. -/
def prober (s : State P) : Prober :=
  let prober := Prober.new s.client s.config.probe
  match s.current with
  | some current => (prober.withFwmark defaultFwmark).excluding current.endpoint
  | none => prober

/-- The prober that measures the server the tunnel is on, its endpoint included. -/
def currentProber (s : State P) : Prober :=
  (Prober.new s.client s.config.probe).withFwmark defaultFwmark

/-- The filters of a sweep; a country replaces the country whitelist. -/
def sweepFilters (s : State P) (country : Option String) : Filters :=
  match country with
  | some country => { s.config.filters with countryWhitelist := [country] }
  | none => s.config.filters

/-- A scored server with the rate recorded for it, as old as it is at `t`. -/
def toRanked (s : State P) (t : Instant) (r : Scored) : RankedServer :=
  let measured := s.throughputSeen r.server.name
  { name := r.server.name
    countryCode := r.server.countryCode
    countryName := r.server.countryName
    location := r.server.location
    load := r.server.load
    rttMs := r.rtt.asSecsF64 * 1000
    score := r.score
    entry := r.entry
    endpoint := r.endpoint
    mbps := measured.map (·.1)
    mbpsAgeSecs := measured.map fun m => Duration.asSecs (t - m.2)
    headroomMbps := r.server.headroomMbps }

end State

/-- The text of a rejection summary. -/
def Selection.summaryText (sel : Selection) : String :=
  ", ".intercalate (sel.rejectionSummary.map fun (reason, count) => s!"{count} {reason}")

/-- Filter, probe and rank. The ages in the result are all taken at one reading of the clock. -/
def sweep (country : Option String) : Daemon P (List RankedServer) := do
  let before ← self
  let list ← serverList
  let selection := (before.sweepFilters country).apply list
  if selection.accepted = [] then fail (.noCandidates selection.summaryText)
  else
    let started ← now
    let measured := before.prober.sweep (← nextNetwork) selection.accepted wgEntries
      before.config.provider.airvpn.port
    let duration ← elapsed started
    let reachable := (measured.filter (·.rtt.isSome)).length
    let t ← now
    let ranking := (rank P.log measured before.scoring).map (before.toRanked t)
    modify fun s => { s with
      lastSweep := some ({
        probed := measured.length
        reachable
        elapsedMs := duration.asMillis
        ageSecs := 0
        best := ranking.head?
        allUnreachable := decide (reachable = 0) }, t) }
    if reachable = 0 then fail (.allUnreachable measured.length)
    else
      modify fun s => { s with lastRanking := ranking }
      pure ranking

/-- Probe one named server's entries and return the faster. -/
def probeNamed (name : String) : Daemon P RankedServer := do
  let before ← self
  let list ← serverList
  match list.get name with
  | none => fail (.unknownServer name)
  | some server =>
    let measured := before.prober.sweep (← nextNetwork) [server] wgEntries
      before.config.provider.airvpn.port
    match rank P.log measured before.scoring with
    | [] => fail (.serverUnreachable name)
    | scored :: _ => return before.toRanked (← now) scored

/-- Measure the server the tunnel is on. Nothing is known of it where the list or the name fails. -/
def probeCurrent (name : String) : Daemon P (Option F64) := do
  let before ← self
  match ← attempt serverList with
  | .error (_ : Error) => pure none
  | .ok list =>
    match list.get name with
    | none => pure none
    | some server =>
      let measured := before.currentProber.sweep (← nextNetwork) [server] wgEntries
        before.config.provider.airvpn.port
      return (measured.head?.bind Measured.rtt).map fun d => d.asSecsF64 * 1000

/-- Run one throughput measurement. -/
def measure (request : ThroughputRequest) : Daemon P SpeedSample := do
  lift (((← nextDownload) request).mapError .throughput)

namespace State

/-- The request of a speed test. -/
def throughputRequest (s : State P) : ThroughputRequest where
  url := s.config.throughput.requestUrl
  bytes := s.config.throughput.bytes
  timeout := .ofSecs s.config.throughput.timeoutSecs

/-- The request of the measurements taken while choosing a server. -/
def selectRequest (s : State P) : ThroughputRequest where
  url := s.config.throughput.requestUrlFor s.config.throughput.selectBytes
  bytes := s.config.throughput.selectBytes
  timeout := .ofSecs s.config.throughput.timeoutSecs

/-- The state with a rate recorded for a server, in the cached ranking too. -/
def withThroughput (s : State P) (server : String) (mbps : F64) (t : Instant) : State P :=
  { s with
    throughputSeen := fun name => if name = server then some (mbps, t) else s.throughputSeen name
    lastRanking := s.lastRanking.map fun r =>
      if r.name = server then { r with mbps := some mbps, mbpsAgeSecs := some 0 } else r }

end State

/-- Remember what a server actually delivered. -/
def recordThroughput (server : String) (mbps : F64) : Daemon P Unit := do
  let t ← now
  modify fun s => s.withThroughput server mbps t

/-- Record a line rate measured with the tunnel down. -/
def recordDirect (mbps : F64) : Daemon P Unit := do
  let t ← now
  modify fun s => { s with directMbps := some (mbps, t) }

/-- Measure the line before connecting. A failure falls back to the configured target. -/
def calibrate (shouldMeasure : Bool) : Daemon P Unit := do
  if shouldMeasure then
    match ← attempt (measure (← self).selectRequest) with
    | .ok sample => recordDirect sample.mbps
    | .error (_ : Error) => pure ()
  else pure ()

end Vpnmgr
