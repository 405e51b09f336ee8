import Vpnmgr.Core.Score
import Vpnmgr.Library.Scatter

/-! Handshake probes of server endpoints: the verdict on one endpoint, and the sweep that keeps the
fastest entry of every server. -/

namespace Vpnmgr

/-- What a probe established about a server. -/
inductive Outcome where
  | reachable
  | rateLimited
  | unreachable
  | rejected (reason : String)
  | failed (reason : String)
  /-- Deliberately not probed: the endpoint is the one the tunnel uses. -/
  | skippedConnected
  deriving DecidableEq

/-- Whether this outcome counts towards ranking. -/
def Outcome.isUsable : Outcome → Bool
  | reachable | rateLimited => true
  | _ => false

structure ProbeResult where
  endpoint : SocketAddr
  rtt : Option Duration
  samples : List Duration
  outcome : Outcome

/-- Sends handshakes and times the responses. -/
structure Prober where
  privateKey : SecretKey
  peerPublicKey : PublicKey
  presharedKey : Option SecretKey
  settings : ProbeSettings
  fwmark : Option Nat := none
  excluded : Option SocketAddr := none

/-- One handshake: the time to the response and its verdict, or why there is no time. -/
abbrev Handshake := Except Outcome (Duration × Outcome)

/-- How the network answers the handshakes of a sweep, by the prober that sends them, the number of
the probe in the sweep, its endpoint and the number of the sample. -/
abbrev Network := Prober → Nat → SocketAddr → Nat → Handshake

/-- The middle sample, the lower one of two. -/
def median (samples : List Duration) : Option Duration :=
  (samples.insertionSort (· ≤ ·))[(samples.length - 1) / 2]?

namespace Prober

def new (client : ClientConfig) (settings : ProbeSettings) : Prober where
  privateKey := client.privateKey
  peerPublicKey := client.peerPublicKey
  presharedKey := client.presharedKey
  settings

def withFwmark (p : Prober) (fwmark : Nat) : Prober := { p with fwmark := some fwmark }

/-- Refuse to probe `endpoint`. -/
def excluding (p : Prober) (endpoint : SocketAddr) : Prober := { p with excluded := some endpoint }

/-- Fold one handshake into the samples and the outcome so far. -/
def takeSample (sofar : List Duration × Outcome) : Handshake → List Duration × Outcome
  | .ok (rtt, o) => (sofar.1 ++ [rtt], if sofar.2 = .reachable then sofar.2 else o)
  | .error o => (sofar.1, if sofar.1 = [] then o else sofar.2)

/-- Probe one endpoint, taking the configured number of samples. -/
def probe (p : Prober) (answer : Nat → Handshake) (endpoint : SocketAddr) : ProbeResult :=
  if p.excluded = some endpoint then
    { endpoint, rtt := none, samples := [], outcome := .skippedConnected }
  else
    let (samples, outcome) :=
      (List.range p.settings.samples).foldl (fun sofar i => takeSample sofar (answer i))
        ([], .unreachable)
    { endpoint, rtt := median samples, samples, outcome }

/-- Probe every endpoint; the results come back in input order. -/
def probeMany (p : Prober) (net : Network) (endpoints : List SocketAddr) : List ProbeResult :=
  endpoints.mapIdx fun i endpoint => p.probe (net p i endpoint) endpoint

end Prober

/-- The best usable time so far, with its entry and endpoint, after one more result. -/
def keepFaster (entry : Nat) (best : Option (Nat × SocketAddr × Duration)) (result : ProbeResult) :
    Option (Nat × SocketAddr × Duration) :=
  match result.rtt.filter (fun _ => result.outcome.isUsable), best with
  | none, _ => best
  | some rtt, some (e, a, current) =>
    if current ≤ rtt then some (e, a, current) else some (entry, result.endpoint, rtt)
  | some rtt, none => some (entry, result.endpoint, rtt)

/-- The measurement of a server, with a placeholder endpoint where no entry answered. -/
def Server.measured (s : Server) (entries : List Nat) (port : UInt16) :
    Option (Nat × SocketAddr × Duration) → Measured
  | some (entry, endpoint, rtt) => { server := s, endpoint, entry, rtt := some rtt }
  | none =>
    { server := s, endpoint := s.wgEndpoint port, entry := entries.headD 1, rtt := none }

/-- One probe per server and entry, with the index of the server it belongs to. -/
def probeTargets (servers : List Server) (entries : List Nat) (port : UInt16) :
    List (Nat × Nat × SocketAddr) :=
  servers.zipIdx.flatMap fun s => (s.1.wgEndpoints entries port).map (s.2, ·)

/-- Probe every entry of every server and keep the fastest per server. -/
def Prober.sweep (p : Prober) (net : Network) (servers : List Server) (entries : List Nat)
    (port : UInt16) : List Measured :=
  let targets := probeTargets servers entries port
  let results := p.probeMany net (targets.map (·.2.2))
  let best := Scatter.scatter (fun x => x.1.1) (fun best x => keepFaster x.1.2.1 best x.2)
    (fun _ => none) (targets.zip results)
  servers.mapIdx fun i s => s.measured entries port (best i)

/-- Every measurement of a sweep is of one of the servers swept. -/
theorem Prober.mem_sweep {p : Prober} {net : Network} {servers : List Server}
    {entries : List Nat} {port : UInt16} {m : Measured}
    (h : m ∈ p.sweep net servers entries port) : m.server ∈ servers := by
  simp only [Prober.sweep, List.mem_mapIdx] at h
  obtain ⟨i, hi, rfl⟩ := h
  unfold Server.measured
  split <;> exact List.getElem_mem hi

/-! ### A network that answers every probe of an endpoint alike -/

/-- Every handshake with an endpoint takes the same time, or gets no response. -/
def Network.Fixed (reply : SocketAddr → Option Duration) (net : Network) : Prop :=
  ∀ p i endpoint k, net p i endpoint k =
    match reply endpoint with
    | some rtt => .ok (rtt, .reachable)
    | none => .error .unreachable

/-- What a prober learns of an endpoint from such a network. -/
def Prober.heard (p : Prober) (reply : SocketAddr → Option Duration) (endpoint : SocketAddr) :
    Option Duration :=
  if p.excluded = some endpoint then none else reply endpoint

/-- The fastest entry of a server, of those whose reply is heard. -/
def Server.fastest (s : Server) (heard : SocketAddr → Option Duration) (entries : List Nat)
    (port : UInt16) : Option (Nat × SocketAddr × Duration) :=
  (s.wgEndpoints entries port).foldl
    (fun best x => keepFaster x.1 best ⟨x.2, heard x.2, [], .reachable⟩) none

theorem median_replicate {n : Nat} (hn : 0 < n) (d : Duration) :
    median (List.replicate n d) = some d := by
  have hlt : (n - 1) / 2 < ((List.replicate n d).insertionSort (· ≤ ·)).length := by
    rw [List.length_insertionSort, List.length_replicate]
    omega
  rw [median, List.length_replicate, List.getElem?_eq_getElem hlt, Option.some.injEq]
  have hmem := List.getElem_mem hlt
  rw [List.mem_insertionSort] at hmem
  exact List.eq_of_mem_replicate hmem

theorem Prober.takeSample_replicate (n : Nat) (rtt : Duration) :
    (List.range n).foldl (fun sofar _ => takeSample sofar (.ok (rtt, .reachable)))
      ([], .unreachable) =
      (List.replicate n rtt, if n = 0 then .unreachable else .reachable) := by
  induction n with
  | zero => rfl
  | succ n ih =>
    rw [List.range_succ, List.foldl_append, ih]
    simp only [List.foldl_cons, List.foldl_nil, takeSample]
    rw [List.replicate_succ']
    by_cases hn : n = 0 <;> simp [hn]

theorem Prober.takeSample_silent (n : Nat) :
    (List.range n).foldl (fun sofar _ => takeSample sofar (.error .unreachable))
      (([], .unreachable) : List Duration × Outcome) = ([], .unreachable) := by
  induction n with
  | zero => rfl
  | succ n ih => rw [List.range_succ, List.foldl_append, ih]; rfl

/-- On such a network the usable time of a probe is what is heard of its endpoint. -/
theorem Prober.probe_fixed {p : Prober} {reply : SocketAddr → Option Duration} {net : Network}
    (hnet : net.Fixed reply) (hsamples : 0 < p.settings.samples) (i : Nat)
    (endpoint : SocketAddr) :
    let result := p.probe (net p i endpoint) endpoint
    result.endpoint = endpoint ∧
      result.rtt.filter (fun _ => result.outcome.isUsable) = p.heard reply endpoint := by
  unfold probe heard
  by_cases hskip : p.excluded = some endpoint
  · simp [hskip]
  · rw [if_neg hskip, if_neg hskip]
    have hanswer : net p i endpoint = fun k => net p i endpoint k := rfl
    rw [hanswer]
    simp only [hnet p i endpoint]
    cases hreply : reply endpoint with
    | none =>
      rw [takeSample_silent]
      exact ⟨trivial, rfl⟩
    | some rtt =>
      rw [takeSample_replicate]
      simp only [median_replicate hsamples, if_neg hsamples.ne']
      exact ⟨trivial, rfl⟩

theorem keepFaster_congr {entry : Nat} {best : Option (Nat × SocketAddr × Duration)}
    {r r' : ProbeResult} (hendpoint : r.endpoint = r'.endpoint)
    (hrtt : r.rtt.filter (fun _ => r.outcome.isUsable) =
      r'.rtt.filter (fun _ => r'.outcome.isUsable)) :
    keepFaster entry best r = keepFaster entry best r' := by
  unfold keepFaster
  rw [hendpoint, hrtt]

/-- The results of the probes of a sweep, each beside its target. -/
theorem Prober.zip_probeMany (p : Prober) (net : Network) (targets : List (Nat × Nat × SocketAddr)) :
    targets.zip (p.probeMany net (targets.map (·.2.2))) =
      targets.zipIdx.map fun t => (t.1, p.probe (net p t.2 t.1.2.2) t.1.2.2) := by
  rw [probeMany, List.mapIdx_eq_zipIdx_map, List.zipIdx_map, List.map_map]
  conv_lhs => arg 1; rw [← List.zipIdx_map_fst 0 targets]
  rw [List.zip_map']
  rfl

/-- What such a network leaves for each server once the results of a sweep are regrouped. -/
theorem Prober.scatter_fixed {p : Prober} {reply : SocketAddr → Option Duration} {net : Network}
    (hnet : net.Fixed reply) (hsamples : 0 < p.settings.samples)
    (targets : List (Nat × Nat × SocketAddr)) :
    Scatter.scatter (fun x => x.1.1) (fun best x => keepFaster x.1.2.1 best x.2) (fun _ => none)
        (targets.zip (p.probeMany net (targets.map (·.2.2)))) =
      Scatter.scatter (fun t => t.1)
        (fun best t => keepFaster t.2.1 best ⟨t.2.2, p.heard reply t.2.2, [], .reachable⟩)
        (fun _ => none) targets := by
  unfold Scatter.scatter
  rw [zip_probeMany, List.foldl_map]
  conv_rhs => rw [← List.zipIdx_map_fst 0 targets, List.foldl_map]
  congr 1
  funext at_ t
  obtain ⟨hendpoint, hrtt⟩ := probe_fixed hnet hsamples t.2 t.1.2.2
  refine congrArg (Function.update at_ t.1.1) (keepFaster_congr hendpoint (hrtt.trans ?_))
  cases p.heard reply t.1.2.2 <;> rfl

/-- On such a network a sweep measures each server by itself. -/
theorem Prober.sweep_fixed {p : Prober} {reply : SocketAddr → Option Duration} {net : Network}
    (hnet : net.Fixed reply) (hsamples : 0 < p.settings.samples) (servers : List Server)
    (entries : List Nat) (port : UInt16) :
    p.sweep net servers entries port = servers.map fun s =>
      s.measured entries port (s.fastest (p.heard reply) entries port) := by
  have hbest : ∀ i (hi : i < servers.length), Scatter.scatter (fun t => t.1)
      (fun best t => keepFaster t.2.1 best ⟨t.2.2, p.heard reply t.2.2, [], .reachable⟩)
      (fun _ => none) (probeTargets servers entries port) i =
      servers[i].fastest (p.heard reply) entries port := by
    intro i hi
    rw [Scatter.scatter_apply, probeTargets,
      Scatter.filter_rows (fun t : Nat × Nat × SocketAddr => t.1)
        (fun (s : Server) n => (s.wgEndpoints entries port).map (n, ·))
        (fun s n x hx => by obtain ⟨_, _, rfl⟩ := List.mem_map.mp hx; rfl),
      if_pos (Nat.zero_le i), Nat.sub_zero, List.getElem?_eq_getElem hi]
    simp only [Option.map_some, Option.getD_some, List.foldl_map]
    rfl
  refine List.ext_getElem (by simp [sweep]) fun i hi hi' => ?_
  simp only [sweep, List.getElem_mapIdx, List.getElem_map, scatter_fixed hnet hsamples]
  rw [hbest]

/-! ### An endpoint that answers every probe in time -/

/-- Every handshake with the endpoint is answered within the limit. -/
def Network.Answers (net : Network) (endpoint : SocketAddr) (limit : Duration) : Prop :=
  ∀ p i k, ∃ rtt outcome, net p i endpoint k = .ok (rtt, outcome) ∧ outcome.isUsable = true ∧
    rtt ≤ limit

theorem Network.Fixed.answers {reply : SocketAddr → Option Duration} {net : Network}
    {endpoint : SocketAddr} {rtt limit : Duration} (hnet : net.Fixed reply)
    (hreply : reply endpoint = some rtt) (hlimit : rtt ≤ limit) : net.Answers endpoint limit :=
  fun p i k => ⟨rtt, .reachable, by rw [hnet, hreply], rfl, hlimit⟩

/-- There is a best time, and it is within the limit. -/
def InTime (limit : Duration) (best : Option (Nat × SocketAddr × Duration)) : Prop :=
  ∃ b, best = some b ∧ b.2.2 ≤ limit

theorem median_le {samples : List Duration} {limit : Duration} (hsome : samples ≠ [])
    (h : ∀ d ∈ samples, d ≤ limit) : ∃ d, median samples = some d ∧ d ≤ limit := by
  have hlength := List.length_pos_iff.mpr hsome
  have hlt : (samples.length - 1) / 2 < (samples.insertionSort (· ≤ ·)).length := by
    rw [List.length_insertionSort]
    omega
  refine ⟨_, List.getElem?_eq_getElem hlt, h _ ?_⟩
  have hmem := List.getElem_mem hlt
  rwa [List.mem_insertionSort] at hmem

/-- The samples of answered handshakes are all within the limit, one for each handshake. -/
theorem Prober.takeSample_answered {answer : Nat → Handshake} {limit : Duration} (n : Nat)
    (h : ∀ k, ∃ rtt outcome, answer k = .ok (rtt, outcome) ∧ outcome.isUsable = true ∧
      rtt ≤ limit) :
    let taken := (List.range n).foldl (fun sofar k => takeSample sofar (answer k))
      (([], .unreachable) : List Duration × Outcome)
    taken.1.length = n ∧ (∀ d ∈ taken.1, d ≤ limit) ∧ (0 < n → taken.2.isUsable = true) := by
  induction n with
  | zero => exact ⟨rfl, fun d hd => (by cases hd), fun hn => absurd hn (Nat.lt_irrefl 0)⟩
  | succ n ih =>
    obtain ⟨rtt, outcome, hanswer, husable, hle⟩ := h n
    obtain ⟨hlength, hlimit, -⟩ := ih
    simp only [List.range_succ, List.foldl_append, List.foldl_cons, List.foldl_nil]
    generalize (List.range n).foldl (fun sofar k => takeSample sofar (answer k)) _ = taken
      at hlength hlimit
    rw [hanswer, takeSample]
    refine ⟨by simp [hlength], fun d hd => ?_, fun _ => ?_⟩
    · rcases List.mem_append.mp hd with hd | hd
      · exact hlimit d hd
      · obtain rfl := List.mem_singleton.mp hd
        exact hle
    · dsimp only
      split
      · next hreachable => rw [hreachable]; rfl
      · exact husable

/-- The probe of such an endpoint gives a usable time within the limit. -/
theorem Prober.probe_answered {p : Prober} {answer : Nat → Handshake} {endpoint : SocketAddr}
    {limit : Duration} (hexcluded : p.excluded ≠ some endpoint) (hsamples : 0 < p.settings.samples)
    (h : ∀ k, ∃ rtt outcome, answer k = .ok (rtt, outcome) ∧ outcome.isUsable = true ∧
      rtt ≤ limit) :
    ∃ rtt, (p.probe answer endpoint).rtt = some rtt ∧
      (p.probe answer endpoint).outcome.isUsable = true ∧ rtt ≤ limit := by
  obtain ⟨hlength, hlimit, husable⟩ := takeSample_answered p.settings.samples h
  rw [probe, if_neg hexcluded]
  obtain ⟨rtt, hmedian, hle⟩ := median_le (List.ne_nil_of_length_pos (by omega)) hlimit
  exact ⟨rtt, hmedian, husable hsamples, hle⟩

theorem keepFaster_inTime {entry : Nat} {best : Option (Nat × SocketAddr × Duration)}
    {result : ProbeResult} {limit : Duration} (h : InTime limit best ∨
      ∃ rtt, result.rtt = some rtt ∧ result.outcome.isUsable = true ∧ rtt ≤ limit) :
    InTime limit (keepFaster entry best result) := by
  rcases h with ⟨⟨e, a, d⟩, rfl, hd⟩ | ⟨rtt, hrtt, husable, hle⟩
  · unfold keepFaster
    cases result.rtt.filter fun _ => result.outcome.isUsable with
    | none => exact ⟨_, rfl, hd⟩
    | some rtt =>
      dsimp only
      split
      · exact ⟨_, rfl, hd⟩
      · next hlt => exact ⟨_, rfl, (Nat.le_of_not_le hlt).trans hd⟩
  · have hheard : result.rtt.filter (fun _ => result.outcome.isUsable) = some rtt := by
      rw [hrtt, Option.filter_some, husable, if_pos rfl]
    unfold keepFaster
    rw [hheard]
    rcases best with _ | ⟨e, a, d⟩
    · exact ⟨_, rfl, hle⟩
    · dsimp only
      split
      · next hlt => exact ⟨_, rfl, Nat.le_trans hlt hle⟩
      · exact ⟨_, rfl, hle⟩

/-- Once a result in time is among them, the best of the results is in time. -/
theorem foldl_inTime {α : Type} {entry : α → Nat} {result : α → ProbeResult} {limit : Duration}
    (items : List α) {best : Option (Nat × SocketAddr × Duration)}
    (h : InTime limit best ∨ ∃ x ∈ items, ∃ rtt, (result x).rtt = some rtt ∧
      (result x).outcome.isUsable = true ∧ rtt ≤ limit) :
    InTime limit (items.foldl (fun best x => keepFaster (entry x) best (result x)) best) := by
  induction items generalizing best with
  | nil =>
    rcases h with h | ⟨x, hx, _⟩
    · exact h
    · cases hx
  | cons x items ih =>
    refine ih ?_
    rcases h with h | ⟨y, hy, hanswered⟩
    · exact .inl (keepFaster_inTime (.inl h))
    · rcases List.mem_cons.mp hy with rfl | hy
      · exact .inl (keepFaster_inTime (.inr hanswered))
      · exact .inr ⟨y, hy, hanswered⟩

/-- A sweep of one server is in time where one of its endpoints answers in time. -/
theorem Prober.sweep_answered {p : Prober} {net : Network} {server : Server} {entries : List Nat}
    {port : UInt16} {endpoint : SocketAddr} {limit : Duration}
    (hentry : endpoint ∈ (server.wgEndpoints entries port).map Prod.snd)
    (hexcluded : p.excluded ≠ some endpoint) (hsamples : 0 < p.settings.samples)
    (hnet : net.Answers endpoint limit) : ∃ rtt,
      (p.sweep net [server] entries port).head?.bind Measured.rtt = some rtt ∧ rtt ≤ limit := by
  obtain ⟨x, hx, rfl⟩ := List.mem_map.mp hentry
  have htargets : probeTargets [server] entries port =
      (server.wgEndpoints entries port).map (0, ·) := List.append_nil _
  have hbest : InTime limit (Scatter.scatter (fun x => x.1.1)
      (fun best x => keepFaster x.1.2.1 best x.2) (fun _ => none)
      ((probeTargets [server] entries port).zip (p.probeMany net
        ((probeTargets [server] entries port).map (·.2.2)))) 0) := by
    have hmem : (0, x) ∈ probeTargets [server] entries port := by
      rw [htargets]
      exact List.mem_map_of_mem hx
    obtain ⟨i, hi, hget⟩ := List.getElem_of_mem hmem
    have hindexed : ((0, x), i) ∈ (probeTargets [server] entries port).zipIdx := by
      rw [List.mem_zipIdx_iff_getElem?, List.getElem?_eq_getElem hi, hget]
    rw [Scatter.scatter_apply, zip_probeMany]
    refine foldl_inTime _ (.inr ⟨_, List.mem_filter.mpr ⟨List.mem_map_of_mem hindexed, ?_⟩, ?_⟩)
    · exact decide_eq_true rfl
    · exact probe_answered hexcluded hsamples (hnet p i)
  obtain ⟨b, hb, hle⟩ := hbest
  refine ⟨b.2.2, ?_, hle⟩
  simp only [sweep, List.mapIdx_cons, List.mapIdx_nil, List.head?_cons, Option.bind_some, hb]
  rfl

namespace Sample

/-- A prober that takes four samples and leaves the endpoint of the tunnel alone. -/
def prober : Prober where
  privateKey := ⟨.replicate 32 0⟩
  peerPublicKey := ⟨.replicate 32 0⟩
  presharedKey := none
  settings := { samples := 4 }
  excluded := some ⟨.v4 0x0a000001, 1637⟩

end Sample

end Vpnmgr
