import Vpnmgr.Ipc.Message

/-! The texts that a tray shows of the figures in the daemon's answers. -/

namespace Vpnmgr.Tray

open Ieee

/-- How long ago a rate was measured. -/
def measuredAgo (secs : Nat) : String :=
  if secs < 90 then "just now"
  else if secs < 3600 then s!"{secs / 60}m ago"
  else if secs < 86400 then s!"{secs / 3600}h ago"
  else s!"{secs / 86400}d ago"

/-- A rate in Mbit/s, at a scale that stays readable. -/
def rate (mbps : F64) : String :=
  if F64.ofNat 1000 ≤ mbps then F64.fixed 1 (mbps / F64.ofNat 1000) ++ " Gbps"
  else F64.fixed 0 mbps ++ " Mbps"

def truncate (s : String) (width : Nat) : String :=
  if s.length ≤ width then s
  else String.ofList (s.toList.take (width - 1)) ++ "…"

/-- `human_bytes`: the amount in the largest of these units that it reaches. -/
def scaledBytes (value : F64) : List String → String → String
  | next :: rest, unit =>
    if F64.ofNat 1024 ≤ value then scaledBytes (value / F64.ofNat 1024) rest next
    else F64.fixed 1 value ++ " " ++ unit
  | [], unit => F64.fixed 1 value ++ " " ++ unit

def humanBytes (bytes : Nat) : String :=
  if bytes < 1024 then s!"{bytes} B"
  else scaledBytes (F64.ofNat bytes / F64.ofNat 1024) ["MiB", "GiB", "TiB"] "KiB"

/-- The measured rate of the line, as both trays show it. -/
def baselineLine (s : StatusReport) : Option String :=
  s.baselineMbps.map fun mbps =>
    match s.baselineAgeSecs with
    | some age => "without VPN: " ++ rate mbps ++ " (" ++ measuredAgo age ++ ")"
    | none => "without VPN: " ++ rate mbps

/-- The one line that says where the tunnel is. -/
def headlineOf : Option StatusReport → String
  | none => "vpnmgrd is not reachable"
  | some s =>
    if s.connected then s.server.getD "?" ++ " — " ++ s.location.getD "?" else "Disconnected"

/-- The time of a server and, where it was measured, its rate, as the picker shows them. -/
def rankedLabel (measured : F64 → String) (s : RankedServer) : String :=
  let mbps := match s.mbps, s.mbpsAgeSecs with
    | some mbps, some age => ", " ++ measured mbps ++ " " ++ measuredAgo age
    | _, _ => ""
  s.name ++ " — " ++ truncate s.location 22 ++ " (" ++ F64.fixed 0 s.rttMs ++ "ms" ++ mbps ++
    s!", {s.load}% load, " ++ rate (F64.ofNat s.headroomMbps) ++ " free)"

/-- Before a sweep the picker shows loads, which say so. -/
def listedLabel (s : ServerSummary) : String :=
  s.name ++ " — " ++ truncate s.location 24 ++ s!" ({s.load}% load, " ++
    rate (F64.ofNat s.headroomMbps) ++ " free)"

/-- How many servers the picker offers. -/
def quickConnectLimit : Nat := 12

/-- `quick_connect_entries`: each server that the picker offers, with its label; those of the ranking
where there is one. -/
def quickConnectEntries (measured : F64 → String) (ranking : List RankedServer)
    (servers : List ServerSummary) : List (String × String) :=
  if ranking = [] then
    (servers.take quickConnectLimit).map fun s => (s.name, listedLabel s)
  else (ranking.take quickConnectLimit).map fun s => (s.name, rankedLabel measured s)

example : measuredAgo 7200 = "2h ago" := by decide +kernel

example : rate 11400 = "11.4 Gbps" := by decide +kernel

end Vpnmgr.Tray
