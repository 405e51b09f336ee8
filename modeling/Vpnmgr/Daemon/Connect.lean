import Vpnmgr.Daemon.Measure

/-! The operations that move the connection: connecting by name or by measuring the best few,
switching, and disconnecting. -/

namespace Vpnmgr

open Ieee Stateful Stateful.Action

variable {P : Platform}

def State.spec (s : State P) (chosen : RankedServer) : TunnelSpec where
  client := s.client
  endpoint := chosen.endpoint

/-- What the configuration asks to keep out of the tunnel. -/
def State.bypassRequest (s : State P) : BypassRequest where
  cidrs := s.config.bypass.cidrs
  hosts := s.config.bypass.hosts
  otherVpns := s.config.bypass.otherVpns
  lan := s.config.bypass.lan
  tunnelAddresses := s.client.dns ++ s.client.addresses.map Cidr.addr
  ourInterface := defaultInterface

/-- A tunnel handle fitted with the configured bypass and kill switch, if any. -/
def State.fit (s : State P) (around : Surroundings) (tunnel : P.Tunnel) : P.Tunnel :=
  let plan := Bypass.plan s.bypassRequest around
  let tunnel := if plan = [] then tunnel else P.withBypass plan tunnel
  if s.config.killswitch.enabled then P.withKillswitch s.config.killswitch.allowLan tunnel
  else tunnel

def newTunnel : Daemon P P.Tunnel := do
  let s ← self
  let fault ← nextOpen
  let tunnel ← lift ((P.new fault (← read World.machine)).mapError .tunnel)
  return s.fit (← nextSurroundings) tunnel

/-- Bring the tunnel up on `chosen`. -/
def establish (chosen : RankedServer) : Daemon P Unit := do
  let spec := (← self).spec chosen
  let tunnel ← newTunnel
  let (result, tunnel) ← call tunnel (P.up spec (← nextUp))
  match result with
  | .error e =>
    dropTunnel tunnel
    fail (.tunnel e)
  | .ok () =>
    modify fun s => { s with tunnel := some tunnel, current := some (.of chosen) }
    emit (.up chosen.endpoint)

/-- Point the tunnel at `chosen`, without a record of it. -/
def retarget (chosen : RankedServer) : Daemon P Unit := do
  let s ← self
  match s.tunnel with
  | none => fail .notConnected
  | some tunnel =>
    let (result, tunnel) ← call tunnel (P.switchEndpoint (s.spec chosen) (← nextSwitch))
    modify fun s => { s with tunnel := some tunnel }
    match result with
    | .error e => fail (.tunnel e)
    | .ok () => emit (.switched chosen.endpoint)

/-- Retarget an existing tunnel at `chosen`, without probing it again. -/
def moveTo (chosen : RankedServer) : Daemon P Unit := do
  retarget chosen
  modify fun s => { s with current := some (.of chosen) }

/-- Whether one of the looks at the tunnel, before the timeout, shows a handshake after `since`. -/
def carrying (since : SystemTime) (timeout : Duration) : List Poll → Bool
  | [] => false
  | p :: polls =>
    if p.waited < timeout then
      if p.lastHandshake.any (fun at_ => since < at_) then true else carrying since timeout polls
    else false

/-- Wait for a handshake newer than the start of the trial. -/
def waitUntilCarrying (trial : Trial) : Daemon P Bool := do
  return (← self).tunnel.isSome && carrying trial.since candidateReadyTimeout trial.polls

/-- A server with the rate it has just been measured at. -/
def RankedServer.measuredAt (s : RankedServer) (mbps : F64) : RankedServer :=
  { s with mbps := some mbps, mbpsAgeSecs := some 0 }

/-- How the trials of the candidates ended: settled on one that reached the target, or none did and
this is the best that was measured. -/
inductive Tried where
  | settled (chosen : RankedServer)
  | best (best : Option (RankedServer × F64))

/-- The best measured so far, after one more measurement. -/
def keepBest (best : Option (RankedServer × F64)) (candidate : RankedServer) (mbps : F64) :
    Option (RankedServer × F64) :=
  if best.all (fun b => b.2 < mbps) then some (candidate, mbps) else best

/-- Point the tunnel at a candidate, bringing it up for the first one. -/
def pointAt (first : Bool) (candidate : RankedServer) : Daemon P Unit :=
  if first then establish candidate else moveTo candidate

/-- Wait for the tunnel to carry traffic and measure the candidate it is on. Without traffic or a
measurement the candidate is skipped. -/
def tryOut (candidate : RankedServer) (trial : Trial) (request : ThroughputRequest) :
    Daemon P (Option F64) := do
  if (← waitUntilCarrying trial) then
    match trial.download request with
    | .error _ => pure none
    | .ok sample =>
      recordThroughput candidate.name sample.mbps
      pure (some sample.mbps)
  else pure none

/-- Point the tunnel at each candidate in turn and measure it, until one reaches the target. -/
def tryCandidates (target : F64) (request : ThroughputRequest) (first : Bool)
    (best : Option (RankedServer × F64)) : List RankedServer → Daemon P Tried
  | [] => pure (.best best)
  | candidate :: rest => do
    let trial ← nextTrial
    pointAt first candidate
    match ← tryOut candidate trial request with
    | none => tryCandidates target request false best rest
    | some mbps =>
      if target ≤ mbps then pure (.settled (candidate.measuredAt mbps))
      else tryCandidates target request false (keepBest best candidate mbps) rest

/-- Move to a server unless the connection record names it. -/
def returnTo (server : RankedServer) : Daemon P Unit := do
  if (← self).current.all (fun c => c.server ≠ server.name) then moveTo server else pure ()

/-- Bring the tunnel up unless something is connected. -/
def ensureUp (fallback : RankedServer) : Daemon P Unit := do
  if (← self).current.isNone then establish fallback else pure ()

/-- Nothing reached the target: settle on the best measured, or on the first candidate if none
could be measured. -/
def settleFor (shortlist : List RankedServer) :
    Option (RankedServer × F64) → Daemon P RankedServer
  | some (server, mbps) => do
    returnTo server
    pure (server.measuredAt mbps)
  | none =>
    match shortlist with
    | [] => fail (.allUnreachable 0)
    | fallback :: _ => do
      ensureUp fallback
      pure fallback

namespace State

def shouldMeasure (s : State P) (measureFirst : Option Bool) : Bool :=
  measureFirst.getD s.config.autotune.measureBeforeConnect

/-- How many of the ranked servers to try. -/
def attempts (s : State P) (measureFirst : Option Bool) (ranked : List RankedServer) : Nat :=
  if s.shouldMeasure measureFirst then min s.config.autotune.verifyCandidates ranked.length else 0

/-- The rate a candidate has to reach. -/
def acceptance (s : State P) : F64 := s.config.autotune.acceptanceMbps s.direct

end State

/-- Measure the line if asked to, and rank the servers. -/
def rankForConnect (measureFirst : Option Bool) : Daemon P (List RankedServer) := do
  calibrate ((← self).shouldMeasure measureFirst)
  sweep none

/-- Try the best ranked servers in turn and stay on the first that is fast enough. -/
def connectBest (measureFirst : Option Bool) : Daemon P RankedServer := do
  let ranked ← rankForConnect measureFirst
  let s ← self
  match ranked with
  | [] => fail (.allUnreachable 0)
  | first :: _ =>
    if s.attempts measureFirst ranked = 0 then
      establish first
      pure first
    else
      let shortlist := ranked.take (s.attempts measureFirst ranked)
      match ← tryCandidates s.acceptance s.selectRequest true none shortlist with
      | .settled chosen => pure chosen
      | .best best => settleFor shortlist best

/-- Connect to a named server, or to the best one. -/
def connect (server : Option String) (measureFirst : Option Bool) : Daemon P RankedServer := do
  match (← self).current, server with
  | some current, _ => fail (.alreadyConnected current.server)
  | none, none => connectBest measureFirst
  | none, some name =>
    let chosen ← probeNamed name
    establish chosen
    pure chosen

/-- Move an existing tunnel to a named server. Any deliberate move supersedes an earlier refusal. -/
def switch (name : String) : Daemon P RankedServer := do
  if (← self).current.isNone then fail .notConnected
  else
    let chosen ← probeNamed name
    retarget chosen
    modify fun s => { s with dismissed := none, current := some (.of chosen) }
    pure chosen

/-- Bring the tunnel down. The connection record goes even if that fails. -/
def disconnect : Daemon P Unit := do
  match (← self).tunnel with
  | none => fail .notConnected
  | some tunnel =>
    modify fun s => { s with tunnel := none }
    let (result, tunnel) ← call tunnel (P.down (← nextDown))
    modify fun s => { s with current := none }
    emit .down
    dropTunnel tunnel
    lift (result.mapError .tunnel)

end Vpnmgr
