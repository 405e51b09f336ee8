import Vpnmgr.Library.Least
import Vpnmgr.Library.Pool
import Vpnmgr.Probe

/-! A sweep with its probes as concurrent tasks that share the permits of a semaphore. Whatever the
order of their handshakes, the results are regrouped by server. -/

namespace Vpnmgr

open Pool

/-- `Semaphore::MAX_PERMITS`. -/
def maxPermits : Nat := (2 ^ 64 - 1) >>> 3

/-- `Semaphore::new`; `none` where it panics. -/
def newSemaphore (permits : Nat) : Option Unit := if permits ≤ maxPermits then some () else none

namespace Prober

/-- A probe in progress: the number of its handshakes so far, its samples and its outcome. -/
abbrev Progress := Nat × List Duration × Outcome

/-- One turn of the task of a probe. It is done with an excluded endpoint at once, and makes one
handshake at a time with any other. -/
def turn (p : Prober) (net : Network) (endpoints : List SocketAddr) (i : Nat) (sofar : Progress) :
    List SocketAddr × (Progress ⊕ ProbeResult) :=
  let endpoint := endpoints.getD i default
  if p.excluded = some endpoint then
    ([], .inr { endpoint, rtt := none, samples := [], outcome := .skippedConnected })
  else if sofar.1 < p.settings.samples then
    ([endpoint], .inl (sofar.1 + 1, takeSample sofar.2 (net p i endpoint sofar.1)))
  else ([], .inr ⟨endpoint, median sofar.2.1, sofar.2.1, sofar.2.2⟩)

def program (p : Prober) (net : Network) (endpoints : List SocketAddr) :
    Program Progress ProbeResult SocketAddr where
  start := (0, [], .unreachable)
  turn := p.turn net endpoints

/-- The tasks of a row of probes, all spawned; `none` where there is no such semaphore. -/
def spawnAll (p : Prober) (endpoints : List SocketAddr) :
    Option (Tasks Progress ProbeResult SocketAddr) := do
  newSemaphore p.settings.concurrency
  return spawned endpoints.length

/-- Some order of the tasks' turns leads from the first to the second. -/
abbrev Runs (p : Prober) (net : Network) (endpoints : List SocketAddr) :
    Tasks Progress ProbeResult SocketAddr → Tasks Progress ProbeResult SocketAddr → Prop :=
  Pool.Runs (p.program net endpoints) p.settings.concurrency

variable {p : Prober} {net : Network} {endpoints : List SocketAddr}

theorem spawnAll_eq {start : Tasks Progress ProbeResult SocketAddr}
    (h : p.spawnAll endpoints = some start) : start = spawned endpoints.length := by
  obtain ⟨_, _, h⟩ := Option.bind_eq_some_iff.mp h
  cases h
  rfl

/-! ### One task -/

/-- A probe in progress holds what its handshakes so far have come to. -/
theorem comes_progress {i : Nat} {s : Progress} (h : Comes (p.program net endpoints) i s) :
    s.1 ≤ p.settings.samples ∧ s.2 = (List.range s.1).foldl (fun sofar k =>
      takeSample sofar (net p i (endpoints.getD i default) k)) ([], .unreachable) := by
  induction h with
  | start => exact ⟨Nat.zero_le _, rfl⟩
  | @next s s' _ hturn ih =>
    change (p.turn net endpoints i s).2 = .inl s' at hturn
    unfold turn at hturn
    dsimp only at hturn
    split at hturn
    · cases hturn
    · split at hturn
      · next hmore =>
        cases hturn
        refine ⟨hmore, ?_⟩
        dsimp only
        rw [List.range_succ, List.foldl_append, ← ih.2]
        rfl
      · cases hturn

/-- A task returns what a probe of its endpoint does. -/
theorem returns_probe {i : Nat} {result : ProbeResult}
    (h : Returns (p.program net endpoints) i result) : result =
      p.probe (net p i (endpoints.getD i default)) (endpoints.getD i default) := by
  obtain ⟨s, hcomes, hturn⟩ := h
  obtain ⟨hle, hsofar⟩ := comes_progress hcomes
  change (p.turn net endpoints i s).2 = .inr result at hturn
  unfold turn at hturn
  dsimp only at hturn
  rw [probe]
  split at hturn
  · next hexcluded =>
    cases hturn
    rw [if_pos hexcluded]
  · next hexcluded =>
    split at hturn
    · cases hturn
    · next hlast =>
      cases hturn
      rw [if_neg hexcluded, ← Nat.le_antisymm hle (Nat.le_of_not_lt hlast), ← hsofar]

/-- A task sends to its own endpoint only, and not where that is excluded. -/
theorem sends_own {i : Nat} {endpoint : SocketAddr}
    (h : Sends (p.program net endpoints) i endpoint) :
    endpoint = endpoints.getD i default ∧ p.excluded ≠ some endpoint := by
  obtain ⟨s, -, hmem⟩ := h
  change endpoint ∈ (p.turn net endpoints i s).1 at hmem
  unfold turn at hmem
  dsimp only at hmem
  split at hmem
  · cases hmem
  · next hexcluded =>
    split at hmem
    · obtain rfl := List.mem_singleton.mp hmem
      exact ⟨rfl, hexcluded⟩
    · cases hmem

theorem turn_cost (i : Nat) (s s' : Progress) (h : ((p.program net endpoints).turn i s).2 = .inl s') :
    p.settings.samples - s'.1 < p.settings.samples - s.1 := by
  change (p.turn net endpoints i s).2 = .inl s' at h
  unfold turn at h
  dsimp only at h
  split at h
  · cases h
  · split at h
    · cases h
      dsimp only
      omega
    · cases h

/-! ### All tasks -/

/-- Whatever the order of their turns, the tasks return the results of the probes in input order. -/
theorem joined_probeMany {start last : Tasks Progress ProbeResult SocketAddr}
    {results : List ProbeResult} (hstart : p.spawnAll endpoints = some start)
    (hruns : p.Runs net endpoints start last) (hjoined : last.joined = some results) :
    results = p.probeMany net endpoints := by
  obtain rfl := spawnAll_eq hstart
  obtain ⟨hlength, hreturns⟩ := hruns.joined hjoined
  refine List.ext_getElem (by rw [hlength, probeMany, List.length_mapIdx]) fun i hi hi' => ?_
  rw [returns_probe (hreturns i _ (List.getElem?_eq_getElem hi)), List.getD_eq_getElem?_getD,
    List.getElem?_eq_getElem (hlength ▸ hi), Option.getD_some]
  simp only [probeMany, List.getElem_mapIdx]

theorem not_sent {start last : Tasks Progress ProbeResult SocketAddr} {endpoint : SocketAddr}
    (hstart : p.spawnAll endpoints = some start) (hruns : p.Runs net endpoints start last)
    (hexcluded : p.excluded = some endpoint) : endpoint ∉ last.sent := by
  intro hsent
  obtain rfl := spawnAll_eq hstart
  obtain ⟨i, -, hsends⟩ := hruns.apart.sent endpoint hsent
  exact (sends_own hsends).2 hexcluded

theorem probe_endpoint (p : Prober) (answer : Nat → Handshake) (endpoint : SocketAddr) :
    (p.probe answer endpoint).endpoint = endpoint := by
  unfold probe
  split <;> rfl

end Prober

/-! ### Regrouping -/

/-- The time of a result that counts. -/
def ProbeResult.usableTime (r : ProbeResult) : Option Duration :=
  r.rtt.filter fun _ => r.outcome.isUsable

/-- The time of an entry with its result. -/
def entryTime (x : Nat × ProbeResult) : Option Duration := x.2.usableTime

/-- What a sweep makes of the results of its probes. -/
def regroup (servers : List Server) (entries : List Nat) (port : UInt16)
    (results : List ProbeResult) : List Measured :=
  let best := Scatter.scatter (fun x => x.1.1) (fun best x => keepFaster x.1.2.1 best x.2)
    (fun _ => none) ((probeTargets servers entries port).zip results)
  servers.mapIdx fun i s => s.measured entries port (best i)

/-- The endpoints a sweep probes. -/
def sweepEndpoints (servers : List Server) (entries : List Nat) (port : UInt16) : List SocketAddr :=
  (probeTargets servers entries port).map (·.2.2)

/-- How many probes come before those of a server. -/
def firstProbe (servers : List Server) (entries : List Nat) (port : UInt16) (i : Nat) : Nat :=
  ((servers.take i).map fun s => (s.wgEndpoints entries port).length).sum

/-- The entries of a server with their results. -/
def ownResults (servers : List Server) (entries : List Nat) (port : UInt16)
    (results : List ProbeResult) (i : Nat) (server : Server) : List (Nat × ProbeResult) :=
  ((server.wgEndpoints entries port).map Prod.fst).zip
    (results.drop (firstProbe servers entries port i))

/-- A measurement takes its time from the fastest of these results, and its entry and endpoint from
the first one as fast. -/
structure Measured.Fastest (own : List (Nat × ProbeResult)) (m : Measured) : Prop where
  silent : m.rtt = none ↔ ∀ x ∈ own, entryTime x = none
  first : ∀ rtt, m.rtt = some rtt → ∃ x,
    Least.IsFirst entryTime own x rtt ∧
      m.entry = x.1 ∧ m.endpoint = x.2.endpoint

/-- The place and the time of the best so far. -/
def placed (best : (Nat × ProbeResult) × Duration) : Nat × SocketAddr × Duration :=
  (best.1.1, best.1.2.endpoint, best.2)

theorem keepFaster_placed (best : Option ((Nat × ProbeResult) × Duration)) (x : Nat × ProbeResult) :
    keepFaster x.1 (best.map placed) x.2 =
      (Least.keep entryTime best x).map placed := by
  unfold keepFaster Least.keep
  rw [← ProbeResult.usableTime, ← entryTime]
  cases entryTime x with
  | none => rfl
  | some rtt =>
    cases best with
    | none => rfl
    | some b =>
      dsimp only [Option.map_some, placed]
      by_cases hlt : rtt < b.2
      · rw [if_pos hlt, if_neg (Nat.not_le.mpr hlt)]
        rfl
      · rw [if_neg hlt, if_pos (Nat.le_of_not_lt hlt)]
        rfl

theorem foldl_keepFaster (own : List (Nat × ProbeResult)) :
    own.foldl (fun best x => keepFaster x.1 best x.2) none =
      (own.foldl (Least.keep entryTime) none).map placed := by
  change own.foldl (fun best x => keepFaster x.1 best x.2) (Option.map placed none) = _
  exact List.foldl_hom (Option.map placed) keepFaster_placed

/-- The measurement of the best of some results takes its time from the fastest of them. -/
theorem Server.measured_fastest (server : Server) (entries : List Nat) (port : UInt16)
    (own : List (Nat × ProbeResult)) : (server.measured entries port
      (own.foldl (fun best x => keepFaster x.1 best x.2) none)).Fastest own := by
  have hscanned := Least.scanned_foldl entryTime own
  rw [foldl_keepFaster]
  cases hbest : own.foldl (Least.keep entryTime) none with
  | none =>
    rw [hbest] at hscanned
    exact ⟨iff_of_true rfl hscanned, fun rtt h => (by cases h)⟩
  | some b =>
    obtain ⟨x, rtt⟩ := b
    rw [hbest] at hscanned
    have hfirst : Least.IsFirst entryTime own x rtt := hscanned
    refine ⟨iff_of_false (fun h => by cases h) fun hnone => ?_, fun rtt' h => ?_⟩
    · obtain ⟨before, after, rfl, hx, -⟩ := hfirst
      rw [hnone x (List.mem_append_right _ List.mem_cons_self)] at hx
      cases hx
    · cases h
      exact ⟨x, hfirst, rfl, rfl⟩

/-- Regrouping measures each server by its own results, in input order. -/
theorem regroup_getElem? (servers : List Server) (entries : List Nat) (port : UInt16)
    (results : List ProbeResult) {i : Nat} {server : Server} (hserver : servers[i]? = some server) :
    (regroup servers entries port results)[i]? = some (server.measured entries port
      ((ownResults servers entries port results i server).foldl
        (fun best x => keepFaster x.1 best x.2) none)) := by
  have hbest : Scatter.scatter (fun x => x.1.1) (fun best x => keepFaster x.1.2.1 best x.2)
      (fun _ => none) ((probeTargets servers entries port).zip results) i =
      (ownResults servers entries port results i server).foldl
        (fun best x => keepFaster x.1 best x.2) none := by
    have hrow : ∀ (s : Server) (n : Nat), ∀ x ∈ (s.wgEndpoints entries port).map (n, ·), x.1 = n := by
      intro s n x hx
      obtain ⟨_, _, rfl⟩ := List.mem_map.mp hx
      rfl
    rw [Scatter.scatter_apply, probeTargets, Scatter.filter_zip_rows
      (fun t : Nat × Nat × SocketAddr => t.1)
      (fun (s : Server) n => (s.wgEndpoints entries port).map (n, ·))
      (fun s => (s.wgEndpoints entries port).length) hrow (fun _ _ => List.length_map _),
      if_pos (Nat.zero_le i), Nat.sub_zero, hserver, Option.map_some, Option.getD_some, ownResults,
      List.zip_map_left, List.zip_map_left, List.foldl_map, List.foldl_map]
    rfl
  rw [regroup, List.getElem?_mapIdx, hserver, Option.map_some, hbest]

theorem regroup_server (servers : List Server) (entries : List Nat) (port : UInt16)
    (results : List ProbeResult) :
    (regroup servers entries port results).map Measured.server = servers := by
  refine List.ext_getElem? fun i => ?_
  rw [List.getElem?_map]
  cases hserver : servers[i]? with
  | none =>
    have hlength : (regroup servers entries port results).length = servers.length :=
      List.length_mapIdx
    rw [List.getElem?_eq_none (hlength ▸ List.getElem?_eq_none_iff.mp hserver)]
    rfl
  | some server =>
    rw [regroup_getElem? servers entries port results hserver]
    unfold Server.measured
    dsimp only [Option.map_some]
    split <;> rfl

theorem sweepEndpoints_eq (servers : List Server) (entries : List Nat) (port : UInt16) :
    sweepEndpoints servers entries port =
      servers.flatMap fun s => (s.wgEndpoints entries port).map Prod.snd := by
  rw [sweepEndpoints, probeTargets, List.map_flatMap]
  conv_rhs => rw [← List.zipIdx_map_fst 0 servers, List.flatMap_map]
  simp only [List.map_map]
  rfl

/-- The probes of a server are those of its own entries. -/
theorem sweepEndpoints_getElem? (servers : List Server) (entries : List Nat) (port : UInt16)
    {i j : Nat} {server : Server} {x : Nat × SocketAddr} (hserver : servers[i]? = some server)
    (hx : (server.wgEndpoints entries port)[j]? = some x) :
    (sweepEndpoints servers entries port)[firstProbe servers entries port i + j]? = some x.2 := by
  rw [sweepEndpoints_eq, firstProbe, Scatter.getElem?_flatMap _ (fun s => (s.wgEndpoints entries port).length)
    (fun _ => List.length_map _) hserver (by
      rw [List.length_map]
      exact (List.getElem?_eq_some_iff.mp hx).1), List.getElem?_map, hx]
  rfl

theorem ownResults_getElem? (servers : List Server) (entries : List Nat) (port : UInt16)
    {results : List ProbeResult} {i j : Nat} {server : Server} {x : Nat × SocketAddr}
    {r : ProbeResult} (hx : (server.wgEndpoints entries port)[j]? = some x)
    (hr : results[firstProbe servers entries port i + j]? = some r) :
    (ownResults servers entries port results i server)[j]? = some (x.1, r) := by
  rw [ownResults, List.getElem?_zip_eq_some, List.getElem?_map, hx, List.getElem?_drop, hr]
  exact ⟨rfl, rfl⟩

/-- Every result of a sweep is one of some server's own. -/
theorem mem_ownResults {p : Prober} {net : Network} {servers : List Server} {entries : List Nat}
    {port : UInt16} {r : ProbeResult}
    (hr : r ∈ p.probeMany net (sweepEndpoints servers entries port)) :
    ∃ i server entry, servers[i]? = some server ∧
      (entry, r) ∈ ownResults servers entries port
        (p.probeMany net (sweepEndpoints servers entries port)) i server := by
  obtain ⟨n, hn⟩ := List.getElem?_of_mem hr
  have hlength : n < (sweepEndpoints servers entries port).length := by
    have hlt := (List.getElem?_eq_some_iff.mp hn).1
    rwa [Prober.probeMany, List.length_mapIdx] at hlt
  rw [sweepEndpoints_eq] at hlength
  obtain ⟨i, server, j, hserver, hj, rfl⟩ := Scatter.exists_row _
    (fun s => (s.wgEndpoints entries port).length) (fun _ => List.length_map _) hlength
  rw [List.length_map] at hj
  exact ⟨i, server, _, hserver, List.mem_of_getElem?
    (ownResults_getElem? servers entries port (List.getElem?_eq_getElem hj) hn)⟩

theorem ownResults_mem {servers : List Server} {entries : List Nat} {port : UInt16}
    {results : List ProbeResult} {i : Nat} {server : Server} {x : Nat × ProbeResult}
    (hx : x ∈ ownResults servers entries port results i server) : x.2 ∈ results :=
  List.mem_of_mem_drop (List.of_mem_zip hx).2

/-- No server of a sweep has a time exactly when no probe of the sweep has one that counts. -/
theorem sweep_silent_iff (p : Prober) (net : Network) (servers : List Server) (entries : List Nat)
    (port : UInt16) : (∀ m ∈ p.sweep net servers entries port, m.rtt = none) ↔
      ∀ r ∈ p.probeMany net (sweepEndpoints servers entries port), r.usableTime = none := by
  set results := p.probeMany net (sweepEndpoints servers entries port) with hresults
  change (∀ m ∈ regroup servers entries port results, m.rtt = none) ↔ _
  constructor
  · intro hsilent r hr
    obtain ⟨i, server, entry, hserver, hown⟩ := mem_ownResults hr
    have hmem := List.mem_of_getElem? (regroup_getElem? servers entries port results hserver)
    exact (server.measured_fastest entries port _).silent.mp (hsilent _ hmem) _ hown
  · intro hsilent m hm
    obtain ⟨i, hi⟩ := List.getElem?_of_mem hm
    have hlt : i < servers.length := by
      have hlength := (List.getElem?_eq_some_iff.mp hi).1
      rwa [regroup, List.length_mapIdx] at hlength
    rw [regroup_getElem? servers entries port results (List.getElem?_eq_getElem hlt)] at hi
    cases hi
    exact (Server.measured_fastest _ entries port _).silent.mpr fun x hx =>
      hsilent _ (ownResults_mem hx)

/-- A sweep measures every server by the fastest of its own entries, in input order, whatever the
order in which the probes take their turns. It sends nothing to the excluded endpoint and reports
it as skipped. With a permit at all, every run of the probes comes to its end. -/
theorem sweep_regroups (p : Prober) (net : Network) (servers : List Server) (entries : List Nat)
    (port : UInt16) {start : Tasks Prober.Progress ProbeResult SocketAddr}
    (hstart : p.spawnAll (sweepEndpoints servers entries port) = some start) :
    (∀ last results, p.Runs net (sweepEndpoints servers entries port) start last →
      last.joined = some results →
        let measured := regroup servers entries port results
        measured = p.sweep net servers entries port ∧
        measured.map Measured.server = servers ∧
        (∀ i server, servers[i]? = some server →
          (∃ m, measured[i]? = some m ∧
            m.Fastest (ownResults servers entries port results i server)) ∧
          ∀ j x, (server.wgEndpoints entries port)[j]? = some x →
            (ownResults servers entries port results i server)[j]? = some (x.1,
              p.probe (net p (firstProbe servers entries port i + j) x.2) x.2)) ∧
        ∀ endpoint, p.excluded = some endpoint → endpoint ∉ last.sent ∧
          ∀ r ∈ results, r.endpoint = endpoint → r.outcome = .skippedConnected) ∧
    (1 ≤ p.settings.concurrency →
      ∀ reached, p.Runs net (sweepEndpoints servers entries port) start reached →
        ∃ last results, p.Runs net (sweepEndpoints servers entries port) reached last ∧
          last.joined = some results) := by
  refine ⟨fun last results hruns hjoined => ?_, fun hlimit reached _ =>
    Pool.Runs.finishes (fun _ s => p.settings.samples - s.1) Prober.turn_cost hlimit .here⟩
  have hresults := Prober.joined_probeMany hstart hruns hjoined
  refine ⟨by rw [hresults]; rfl, regroup_server _ _ _ _, fun i server hserver =>
    ⟨⟨_, regroup_getElem? _ _ _ _ hserver, server.measured_fastest _ _ _⟩, fun j x hx => ?_⟩,
    fun endpoint hexcluded => ⟨Prober.not_sent hstart hruns hexcluded, fun r hr hendpoint => ?_⟩⟩
  · refine ownResults_getElem? _ _ _ hx ?_
    rw [hresults, Prober.probeMany, List.getElem?_mapIdx,
      sweepEndpoints_getElem? servers entries port hserver hx]
    rfl
  · rw [hresults, Prober.probeMany, List.mem_mapIdx] at hr
    obtain ⟨i, hi, rfl⟩ := hr
    rw [Prober.probe_endpoint] at hendpoint
    rw [hendpoint, Prober.probe, if_pos hexcluded]

namespace Sample

/-- A server with two entries and one with a single entry. -/
def probed : List Server :=
  [⟨"Achernar", "Netherlands", "nl", "Alblasserdam", 100, 1000, 7, 10, .ok, none, 0x0a000001,
      some 0x0a000003⟩,
    ⟨"Bellatrix", "Netherlands", "nl", "Alblasserdam", 200, 1000, 9, 20, .ok, none, 0x0a000002,
      none⟩]

end Sample

theorem probed_regrouped : ∃ results, regroup Sample.probed wgEntries wgPort results =
    Sample.prober.sweep (fun _ _ _ _ => .error .unreachable) Sample.probed wgEntries wgPort := by
  have h := sweep_regroups Sample.prober (fun _ _ _ _ => .error .unreachable) Sample.probed
    wgEntries wgPort rfl
  obtain ⟨last, results, hruns, hjoined⟩ := h.2 (by decide) _ .here
  exact ⟨results, (h.1 last results hruns hjoined).1⟩

end Vpnmgr
