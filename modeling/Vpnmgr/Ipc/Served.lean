import Vpnmgr.Ipc.Answers
import Vpnmgr.Daemon.Scores

/-! The ranking that clients are served between sweeps: it keeps the order of one sweep, and shows for
every server the rate last recorded for it, whichever of the two places that put it there. -/

namespace Vpnmgr

open Ieee Stateful Stateful.Action

variable {P : Platform} {α : Type} {G : Server → Prop}

/-- A ranked server without the rate that was measured through it. -/
def RankedServer.unrated (r : RankedServer) : RankedServer :=
  { r with mbps := none, mbpsAgeSecs := none }

/-- What clients see of a scored server besides its rate. -/
def Scored.shown (s : Scored) : RankedServer where
  name := s.server.name
  countryCode := s.server.countryCode
  countryName := s.server.countryName
  location := s.server.location
  load := s.server.load
  rttMs := s.rtt.asSecsF64 * 1000
  score := s.score
  entry := s.entry
  endpoint := s.endpoint
  mbps := none
  mbpsAgeSecs := none
  headroomMbps := s.server.headroomMbps

/-- A sweep under settings that passed every check: what it measured, and the line rate known then. -/
structure Sweep where
  config : Config
  direct : Option F64
  measured : List Measured

namespace Sweep

def scoring (s : Sweep) : Scoring where
  weights := s.config.autotune.weights
  headroomTargetMbps := s.config.autotune.headroomTargetMbps s.direct

/-- The ranking of the sweep, best first. -/
def ranking (log : Logarithm) (s : Sweep) : List Scored := rank log s.measured s.scoring

structure Of (G : Server → Prop) (s : Sweep) : Prop where
  valid : s.config.validate = .ok ()
  measured : ∀ m ∈ s.measured, m.Of G

/-- The weights and the line rate are numbers. -/
structure Numbers (s : Sweep) : Prop where
  weights : s.config.autotune.weights.Finite
  direct : ∀ mbps, s.direct = some mbps → mbps.isFinite = true

end Sweep

/-- The stored ranking is what filters left of one sweep's, in its order, and an entry of it has a rate
exactly where one is recorded for its server: the latest. -/
structure World.Serves (G : Server → Prop) (w : World P) : Prop where
  valid : w.state.config.validate = .ok ()
  sweep : ∃ s : Sweep, s.Of G ∧
    (w.state.lastRanking.map RankedServer.unrated).Sublist ((s.ranking P.log).map Scored.shown)
  rates : ∀ r ∈ w.state.lastRanking, r.mbps = (w.state.throughputSeen r.name).map Prod.fst ∧
    (r.mbps = none → r.mbpsAgeSecs = none)
  past : ∀ name m, w.state.throughputSeen name = some m → m.2 ≤ w.clock

theorem State.toRanked_unrated (s : State P) (t : Instant) (x : Scored) :
    (s.toRanked t x).unrated = x.shown := rfl

theorem withThroughput_unrated (s : State P) (server : String) (mbps : F64) (t : Instant) :
    (s.withThroughput server mbps t).lastRanking.map RankedServer.unrated =
      s.lastRanking.map RankedServer.unrated := by
  refine (List.map_map).trans (List.map_congr_left fun r _ => ?_)
  dsimp only [Function.comp_apply]
  split <;> rfl

theorem Deed.serves {w w' : World P} (h : Deed G w w') (hw : w.Serves G) : w'.Serves G := by
  cases h with
  | tick =>
    exact ⟨hw.valid, hw.sweep, hw.rates, fun name m hm =>
      (hw.past name m hm).trans (Nat.le_add_right _ _)⟩
  | ranked measured h =>
    refine ⟨hw.valid, ⟨⟨w.state.config, w.state.direct, measured⟩, ⟨hw.valid, h⟩, ?_⟩, ?_, hw.past⟩
    · have hshown : ((rank P.log measured w.state.scoring).map (w.state.toRanked w.clock)).map
          RankedServer.unrated = (rank P.log measured w.state.scoring).map Scored.shown :=
        List.map_map
      exact hshown ▸ List.Sublist.refl _
    · intro r hr
      obtain ⟨x, _, rfl⟩ := List.mem_map.mp hr
      refine ⟨rfl, fun hnone => ?_⟩
      exact Option.map_eq_none_iff.mpr (Option.map_eq_none_iff.mp hnone)
  | rated server mbps =>
    refine ⟨hw.valid, ?_, fun r hr => ?_, fun name m hm => ?_⟩
    · obtain ⟨s, hs, hsublist⟩ := hw.sweep
      exact ⟨s, hs, (withThroughput_unrated _ _ _ _).symm ▸ hsublist⟩
    · obtain ⟨stored, hstored, rfl⟩ := List.mem_map.mp hr
      dsimp only [State.withThroughput]
      split
      · exact ⟨rfl, fun hnone => by cases hnone⟩
      · exact hw.rates stored hstored
    · dsimp only [State.withThroughput] at hm
      split at hm
      · cases hm
        exact Nat.le_refl _
      · exact hw.past name m hm
  | reloaded config client hvalid =>
    refine ⟨hvalid, ?_, fun r hr => hw.rates r (List.mem_filter.mp hr).1, hw.past⟩
    obtain ⟨s, hs, hsublist⟩ := hw.sweep
    exact ⟨s, hs, (List.filter_sublist.map _).trans hsublist⟩
  | _ => exact ⟨hw.valid, hw.sweep, hw.rates, hw.past⟩

theorem Starts.serves {w : World P} (h : Starts w) : w.Serves G := by
  obtain ⟨disk, config, client, hload, _, hloaded⟩ := h.loads
  have hvalid := Config.load_validate hload
  constructor <;> rw [hloaded]
  · exact hvalid
  · exact ⟨⟨config, none, []⟩, ⟨hvalid, fun m hm => by cases hm⟩, List.nil_sublist _⟩
  · intro r hr
    cases hr
  · intro name m hm
    cases hm

/-! ### The answer -/

/-- The order of scores that are numbers, as a comparison. -/
theorem Scored.Le.score {a b : Scored} (h : a.Le b) (ha : a.score.InUnit) (hb : b.score.InUnit) :
    b.score ≤ a.score := by
  obtain ⟨p, hp, -⟩ := ha
  obtain ⟨q, hq, -⟩ := hb
  rw [hp, hq, F64.finite_le]
  by_contra hlt
  have hgt : compareOn (fun s : Scored => OrderDual.toDual s.score.toRat) a b = .gt := by
    rw [compareOn, hp, hq]
    exact compare_gt_iff_gt.mpr (not_le.mp hlt)
  have horder : a.order b = .gt := by
    rw [Scored.order, compareLex, compareLex, hgt]
    rfl
  rw [Scored.Le, horder] at h
  cases h

/-- Of numbers, a ranking is in the order of its scores. -/
theorem Sweep.Of.sorted {s : Sweep} (hs : s.Of G) (hnumbers : s.Numbers) (log : Logarithm) :
    ((s.ranking log).map Scored.score).Pairwise fun a b => b ≤ a := by
  obtain ⟨direct, hdirect⟩ : ∃ q : Option ℚ, s.direct = q.map F64.finite := by
    cases hd : s.direct with
    | none => exact ⟨none, rfl⟩
    | some mbps =>
      obtain ⟨q, rfl⟩ := F64.isFinite_iff.mp (hnumbers.direct mbps hd)
      exact ⟨some q, rfl⟩
  have hscoring : s.scoring = ⟨s.config.autotune.weights,
      s.config.autotune.headroomTargetMbps (direct.map F64.finite)⟩ := by rw [← hdirect]; rfl
  have hunit : ∀ x ∈ s.ranking log, x.score.InUnit := by
    rw [Sweep.ranking, hscoring]
    exact fun x hx => rank_inUnit hs.valid log direct s.measured hnumbers.weights hx
  have htarget : s.scoring.headroomTargetMbps ≠ F64.nan := by
    rw [hscoring]
    exact ne_nan_of_pos (headroomTargetMbps_pos (Config.validate_ok.mp hs.valid) direct)
  have hpositive := (Config.validate_ok.mp hs.valid).positive hnumbers.weights
  refine List.pairwise_map.mpr ?_
  have hsorted : (s.ranking log).Pairwise Scored.Le :=
    rank_sorted hpositive htarget log s.measured
  exact hsorted.imp_of_mem fun ha hb hle => hle.score (hunit _ ha) (hunit _ hb)

/-! ### The rates -/

/-- A served entry has the rate last recorded for its server, as old as it is at the reading, or none
where none is recorded. -/
def RankedServer.RatedBy (seen : String → Option (F64 × Instant)) (t : Instant) (r : RankedServer) :
    Prop :=
  r.mbps = (seen r.name).map Prod.fst ∧
    r.mbpsAgeSecs = (seen r.name).map fun m => Duration.asSecs (t - m.2)

theorem World.Serves.rated {w : World P} (hw : w.Serves G) (t : Instant) {limit : Option Nat}
    {r : RankedServer} (hr : r ∈ w.state.lastRankingAt t limit) :
    r.RatedBy w.state.throughputSeen t := by
  obtain ⟨stored, hstored, rfl⟩ := List.mem_map.mp (State.lastRankingAt_subset hr)
  obtain ⟨hmbps, hage⟩ := hw.rates stored hstored
  cases hseen : w.state.throughputSeen stored.name with
  | none =>
    rw [hseen] at hmbps
    exact ⟨by rw [hseen]; exact hmbps, by rw [hseen]; exact hage hmbps⟩
  | some m => exact ⟨by rw [hseen]; rfl, by rw [hseen]; rfl⟩

/-- What is served keeps the order of what is stored. -/
theorem lastRankingAt_unrated (s : State P) (t : Instant) (limit : Option Nat) :
    ((s.lastRankingAt t limit).map RankedServer.unrated).Sublist
      (s.lastRanking.map RankedServer.unrated) := by
  have hall : (s.lastRankingAt t none).map RankedServer.unrated =
      s.lastRanking.map RankedServer.unrated := by
    refine (List.map_map).trans (List.map_congr_left fun r _ => ?_)
    dsimp only [Function.comp_apply]
    split <;> rfl
  rw [← hall]
  cases limit with
  | none => exact .refl _
  | some n => exact (List.take_sublist _ _).map _

namespace Sample

/-- Two servers that have been swept. -/
def swept : World (.linux log) := work about (pair linuxFaults) (.request (.test none))

end Sample

end Vpnmgr
