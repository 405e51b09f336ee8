import Vpnmgr.Core.Airvpn

/-! The ranking of probed servers by a score from measured round-trip time, reported load and spare
capacity. -/

namespace Vpnmgr

open Ieee

/-- A server this many times slower than the fastest scores zero on latency. -/
def rttRatioFloor : F64 := 20

/-- What the ranking needs beyond the measurements. -/
structure Scoring where
  weights : Weights
  headroomTargetMbps : F64

/-- A server with its probe result; `rtt` is `none` where no handshake came back. -/
structure Measured where
  server : Server
  endpoint : SocketAddr
  entry : Nat
  rtt : Option Duration
  deriving DecidableEq

/-- A ranked candidate. -/
structure Scored where
  server : Server
  endpoint : SocketAddr
  entry : Nat
  rtt : Duration
  score : F64
  rttScore : F64
  loadScore : F64
  headroomScore : F64

def micros (d : Duration) : F64 := d.asSecsF64 * 1000000

/-- The logarithm of the ratio to the fastest candidate, scaled so that the floor scores zero. -/
def rttScore (log : Logarithm) (fastest us : F64) : F64 :=
  if us ≤ F64.epsilon ∨ fastest ≤ F64.epsilon then 1
  else (1 - log.ln ((us / fastest).max 1) / log.ln rttRatioFloor).clamp 0 1

/-- Spare capacity on a logarithmic curve, with full marks at the target. -/
def headroomScore (log : Logarithm) (headroom : Nat) (target : F64) : F64 :=
  if target ≤ 0 then 1 else (log.ln (1 + F64.ofNat headroom / target) / log.ln 2).clamp 0 1

/-- Whether `a` may stand before `b`: by score downwards, then by time, then by name. -/
def Scored.before (a b : Scored) : Bool :=
  ((b.score.compareOrEqual a.score).then (compare a.rtt b.rtt)).then
    (compare a.server.name b.server.name) != .gt

/-- The score of one measurement, given the fastest of all. -/
def Scoring.scored (scoring : Scoring) (log : Logarithm) (fastest : F64) (m : Measured)
    (rtt : Duration) : Scored :=
  let w := scoring.weights
  let rttScore := Vpnmgr.rttScore log fastest (micros rtt)
  let loadScore := 1 - m.server.loadFraction
  let headroomScore := Vpnmgr.headroomScore log m.server.headroomMbps scoring.headroomTargetMbps
  { server := m.server, endpoint := m.endpoint, entry := m.entry, rtt, rttScore, loadScore,
    headroomScore
    score := (w.rtt * rttScore + w.load * loadScore + w.headroom * headroomScore) /
      (w.rtt + w.load + w.headroom) }

/-- The fastest of the times measured, in microseconds. -/
def fastestOf (measured : List Measured) : F64 :=
  (measured.filterMap Measured.rtt).foldl (fun best d => best.min (micros d)) .posInf

/-- Rank measured servers best-first. Servers that did not answer are omitted. -/
def rank (log : Logarithm) (measured : List Measured) (scoring : Scoring) : List Scored :=
  let fastest := fastestOf measured
  (measured.filterMap fun m => m.rtt.map (scoring.scored log fastest m)).insertionSort
    fun a b => a.before b

/-- Fractional improvement of `candidate` over `current`. -/
def relativeImprovement (current candidate : F64) : F64 :=
  if candidate ≤ current then 0
  else if current ≤ F64.epsilon then 1
  else (candidate - current) / current

/-- Every entry of a ranking carries a measurement that has a time. -/
theorem mem_rank {log : Logarithm} {measured : List Measured} {scoring : Scoring} {s : Scored}
    (h : s ∈ rank log measured scoring) : ∃ m ∈ measured, ∃ rtt, m.rtt = some rtt ∧
      s = scoring.scored log (fastestOf measured) m rtt := by
  simp only [rank, List.mem_insertionSort, List.mem_filterMap, Option.map_eq_some_iff] at h
  obtain ⟨m, hm, rtt, hrtt, hs⟩ := h
  exact ⟨m, hm, rtt, hrtt, hs.symm⟩

/-- A measurement that has a time has its entry in the ranking. -/
theorem scored_mem_rank {log : Logarithm} {measured : List Measured} {scoring : Scoring}
    {m : Measured} {rtt : Duration} (hm : m ∈ measured) (hrtt : m.rtt = some rtt) :
    scoring.scored log (fastestOf measured) m rtt ∈ rank log measured scoring := by
  simp only [rank, List.mem_insertionSort, List.mem_filterMap, Option.map_eq_some_iff]
  exact ⟨m, hm, rtt, hrtt, rfl⟩

end Vpnmgr
