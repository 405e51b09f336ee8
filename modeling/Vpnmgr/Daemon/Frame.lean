import Vpnmgr.Daemon.Connect

/-! What the measuring operations leave alone: fetching changes the cached list only, a probe or a
download changes no place in the ranking, and a sweep changes nothing but the measurements. -/

namespace Vpnmgr

open Ieee Stateful Stateful.Action

variable {P : Platform} {α : Type}

/-- Measuring keeps the settings, the connection, the proposal, the tuning record, the machine and
the events, and asks the backend nothing. -/
structure Measures (w w' : World P) : Prop where
  config : w'.state.config = w.state.config
  client : w'.state.client = w.state.client
  tunnel : w'.state.tunnel = w.state.tunnel
  current : w'.state.current = w.state.current
  pending : w'.state.pending = w.state.pending
  dismissed : w'.state.dismissed = w.state.dismissed
  lastTune : w'.state.lastTune = w.state.lastTune
  lastTuneAt : w'.state.lastTuneAt = w.state.lastTuneAt
  machine : w'.machine = w.machine
  events : w'.events = w.events
  trial : w'.outside.trial = w.outside.trial
  surroundings : w'.outside.surroundings = w.outside.surroundings
  faults : w'.outside.faults = w.outside.faults
  clock : w.clock ≤ w'.clock

/-- What the filters judge a ranked server by. -/
def RankedServer.place (r : RankedServer) : String × String × Nat := (r.name, r.countryCode, r.load)

/-- A probe or a download keeps the places of the ranking too. -/
structure Samples (w w' : World P) : Prop extends Measures w w' where
  places : w'.state.lastRanking.map RankedServer.place = w.state.lastRanking.map RankedServer.place

/-- Fetching keeps the measurements too. -/
structure Fetches (w w' : World P) : Prop extends Measures w w' where
  lastRanking : w'.state.lastRanking = w.state.lastRanking
  throughputSeen : w'.state.throughputSeen = w.state.throughputSeen
  directMbps : w'.state.directMbps = w.state.directMbps
  network : w'.outside.network = w.outside.network

theorem Measures.refl (w : World P) : Measures w w := by constructor <;> rfl

theorem Measures.trans {w₁ w₂ w₃ : World P} (h₁ : Measures w₁ w₂) (h₂ : Measures w₂ w₃) :
    Measures w₁ w₃ where
  config := h₂.config.trans h₁.config
  client := h₂.client.trans h₁.client
  tunnel := h₂.tunnel.trans h₁.tunnel
  current := h₂.current.trans h₁.current
  pending := h₂.pending.trans h₁.pending
  dismissed := h₂.dismissed.trans h₁.dismissed
  lastTune := h₂.lastTune.trans h₁.lastTune
  lastTuneAt := h₂.lastTuneAt.trans h₁.lastTuneAt
  machine := h₂.machine.trans h₁.machine
  events := h₂.events.trans h₁.events
  trial := h₂.trial.trans h₁.trial
  surroundings := h₂.surroundings.trans h₁.surroundings
  faults := h₂.faults.trans h₁.faults
  clock := h₁.clock.trans h₂.clock

instance : IsPreorder (World P) Measures where
  refl := Measures.refl
  trans _ _ _ := Measures.trans

instance : IsPreorder (World P) Samples where
  refl w := { Measures.refl w with places := rfl }
  trans _ _ _ h₁ h₂ :=
    { h₁.toMeasures.trans h₂.toMeasures with places := h₂.places.trans h₁.places }

instance : IsPreorder (World P) Fetches where
  refl w := { Measures.refl w with
    lastRanking := rfl, throughputSeen := rfl, directMbps := rfl, network := rfl }
  trans _ _ _ h₁ h₂ := { h₁.toMeasures.trans h₂.toMeasures with
    lastRanking := h₂.lastRanking.trans h₁.lastRanking
    throughputSeen := h₂.throughputSeen.trans h₁.throughputSeen
    directMbps := h₂.directMbps.trans h₁.directMbps
    network := h₂.network.trans h₁.network }

theorem Fetches.samples {w w' : World P} (h : Fetches w w') : Samples w w' :=
  { h.toMeasures with places := by rw [h.lastRanking] }

theorem measures_of_fetches {x : Daemon P α} (h : Within Fetches x) : Within Measures x :=
  h.mono fun _ _ => Fetches.toMeasures

theorem samples_of_fetches {x : Daemon P α} (h : Within Fetches x) : Within Samples x :=
  h.mono fun _ _ => Fetches.samples

theorem measures_of_samples {x : Daemon P α} (h : Within Samples x) : Within Measures x :=
  h.mono fun _ _ => Samples.toMeasures

theorem now_fetches : Within Fetches (now : Daemon P Instant) := fun w => by
  constructor
  · constructor <;> first | rfl | exact Nat.le_add_right _ _
  all_goals rfl

theorem elapsed_fetches (at_ : Instant) : Within Fetches (elapsed at_ : Daemon P Duration) :=
  Within.bind now_fetches fun _ => Within.pure _

theorem nextFetch_fetches : Within Fetches (nextFetch : Daemon P Fetch) := fun w => by
  constructor
  · constructor <;> rfl
  all_goals rfl

theorem modify_servers_fetches (servers : Option (ServerList × Instant)) :
    Within Fetches (modify fun s => { s with servers } : Daemon P Unit) := fun w => by
  constructor
  · constructor <;> rfl
  all_goals rfl

theorem isStale_fetches (servers : Option (ServerList × Instant)) :
    Within Fetches (isStale servers : Daemon P Bool) := by
  cases servers with
  | none => exact Within.pure _
  | some cached => exact Within.bind (elapsed_fetches _) fun _ => Within.pure _

theorem refresh_fetches : Within Fetches (refresh : Daemon P Unit) := by
  refine Within.bind nextFetch_fetches fun fetch => ?_
  cases fetch with
  | noClient => exact Within.fail _
  | fetched => exact Within.bind now_fetches fun _ => modify_servers_fetches _
  | failed =>
    refine Within.bind (Within.read _) fun s => ?_
    cases s.servers with
    | none => exact Within.fail _
    | some => exact Within.pure _

theorem cachedList_fetches : Within Fetches (cachedList : Daemon P ServerList) := by
  refine Within.bind (Within.read _) fun s => ?_
  cases s.servers with
  | none => exact Within.fail _
  | some => exact Within.pure _

theorem serverList_fetches : Within Fetches (serverList : Daemon P ServerList) := by
  refine Within.bind (Within.bind (Within.read _) fun s => ?_) fun _ => cachedList_fetches
  refine Within.bind (isStale_fetches _) fun stale => ?_
  exact Within.ite refresh_fetches (Within.pure _)

theorem nextNetwork_samples : Within Samples (nextNetwork : Daemon P Network) := fun w => by
  constructor
  · constructor <;> rfl
  · rfl

theorem nextDownload_samples : Within Samples (nextDownload : Daemon P Download) := fun w => by
  constructor
  · constructor <;> rfl
  · rfl

/-! ### Probing from its parts -/

section Probing

variable {R : World P → World P → Prop} [IsPreorder (World P) R]
  (hlist : Within R (serverList : Daemon P ServerList))
  (hnow : Within R (now : Daemon P Instant))
  (hnetwork : Within R (nextNetwork : Daemon P Network))

include hlist hnetwork

theorem probeCurrent_within (name : String) :
    Within R (probeCurrent name : Daemon P (Option F64)) := by
  refine Within.bind (Within.read _) fun before => ?_
  refine Within.bind (Within.attempt hlist) fun list => ?_
  cases list with
  | error => exact Within.pure _
  | ok list =>
    dsimp only
    cases list.get name with
    | none => exact Within.pure _
    | some server => exact Within.bind hnetwork fun _ => Within.pure _

include hnow

theorem probeNamed_within (name : String) :
    Within R (probeNamed name : Daemon P RankedServer) := by
  refine Within.bind (Within.read _) fun before => Within.bind hlist fun list => ?_
  cases list.get name with
  | none => exact Within.fail _
  | some server =>
    refine Within.bind hnetwork fun net => ?_
    dsimp only
    split
    · exact Within.fail _
    · exact Within.bind hnow fun _ => Within.pure _

theorem sweep_within
    (hnote : ∀ lastSweep, Within R (modify fun s => { s with lastSweep } : Daemon P Unit))
    (hstore : ∀ lastRanking, Within R (modify fun s => { s with lastRanking } : Daemon P Unit))
    (country : Option String) : Within R (sweep country : Daemon P (List RankedServer)) := by
  refine Within.bind (Within.read _) fun before => Within.bind hlist fun list => ?_
  refine Within.ite (Within.fail _) ?_
  refine Within.bind hnow fun started => Within.bind hnetwork fun net => ?_
  refine Within.bind (Within.bind hnow fun _ => Within.pure _) fun duration => ?_
  refine Within.bind hnow fun t => Within.bind (hnote _) fun _ => ?_
  exact Within.ite (Within.fail _) (Within.bind (hstore _) fun _ => Within.pure _)

end Probing

theorem probeNamed_samples (name : String) :
    Within Samples (probeNamed name : Daemon P RankedServer) :=
  probeNamed_within (samples_of_fetches serverList_fetches) (samples_of_fetches now_fetches)
    nextNetwork_samples name

theorem probeCurrent_samples (name : String) :
    Within Samples (probeCurrent name : Daemon P (Option F64)) :=
  probeCurrent_within (samples_of_fetches serverList_fetches) nextNetwork_samples name

theorem recordThroughput_samples (server : String) (mbps : F64) :
    Within Samples (recordThroughput server mbps : Daemon P Unit) := by
  refine Within.bind (samples_of_fetches now_fetches) fun _ => Within.update fun w => ?_
  constructor
  · constructor <;> rfl
  -- an entry that is the server's gets the rate, and keeps its place
  · refine (List.map_map).trans (List.map_congr_left fun r _ => ?_)
    dsimp only [Function.comp_apply]
    split <;> rfl

theorem recordDirect_samples (mbps : F64) :
    Within Samples (recordDirect mbps : Daemon P Unit) := by
  refine Within.bind (samples_of_fetches now_fetches) fun _ => Within.update fun w => ?_
  constructor
  · constructor <;> rfl
  · rfl

/-- The relation admits whatever a probe or a download does. -/
structure Sampling (R : World P → World P → Prop) : Prop where
  probeNamed : ∀ name, Within R (probeNamed name : Daemon P RankedServer)
  nextDownload : Within R (nextDownload : Daemon P Download)
  recordThroughput : ∀ server mbps, Within R (recordThroughput server mbps : Daemon P Unit)
  recordDirect : ∀ mbps, Within R (recordDirect mbps : Daemon P Unit)

theorem Sampling.of_samples {R : World P → World P → Prop} (h : ∀ w w', Samples w w' → R w w') :
    Sampling R where
  probeNamed name := (probeNamed_samples name).mono h
  nextDownload := nextDownload_samples.mono h
  recordThroughput server mbps := (recordThroughput_samples server mbps).mono h
  recordDirect mbps := (recordDirect_samples mbps).mono h

namespace Sampling

variable {R : World P → World P → Prop} [IsPreorder (World P) R]

theorem measure (h : Sampling R) (request : ThroughputRequest) :
    Within R (measure request : Daemon P SpeedSample) :=
  Within.bind h.nextDownload fun _ => Within.lift _

theorem calibrate (h : Sampling R) (shouldMeasure : Bool) :
    Within R (calibrate shouldMeasure : Daemon P Unit) := by
  refine Within.ite ?_ (Within.pure _)
  refine Within.bind (Within.read _) fun s => ?_
  refine Within.bind (Within.attempt (h.measure _)) fun sample => ?_
  cases sample with
  | error => exact Within.pure _
  | ok sample => exact h.recordDirect _

end Sampling

theorem sampling_samples : Sampling (Samples : World P → World P → Prop) :=
  .of_samples fun _ _ h => h

theorem measure_samples (request : ThroughputRequest) :
    Within Samples (measure request : Daemon P SpeedSample) :=
  sampling_samples.measure request

theorem calibrate_samples (shouldMeasure : Bool) :
    Within Samples (calibrate shouldMeasure : Daemon P Unit) :=
  sampling_samples.calibrate shouldMeasure

theorem sweep_measures (country : Option String) :
    Within Measures (sweep country : Daemon P (List RankedServer)) :=
  sweep_within (measures_of_fetches serverList_fetches) (measures_of_fetches now_fetches)
    (measures_of_samples nextNetwork_samples) (fun _ => Within.update fun w => by constructor <;> rfl)
    (fun _ => Within.update fun w => by constructor <;> rfl) country

/-- The measurements of a sweep of a list: the servers its filters accept, as they answer. -/
def State.swept (s : State P) (net : Network) (country : Option String) (list : ServerList) :
    List Measured :=
  s.prober.sweep net ((s.sweepFilters country).apply list).accepted wgEntries
    s.config.provider.airvpn.port

/-- The ranking made of them. -/
def State.ranks (s : State P) (net : Network) (country : Option String) (list : ServerList)
    (t : Instant) : List RankedServer :=
  (rank P.log (s.swept net country list) s.scoring).map (s.toRanked t)

/-- What the filters judge a server of the list by. -/
def Server.place (s : Server) : String × String × Nat := (s.name, s.countryCode, s.load)

/-- The entries of the ranking have the places of the servers that answered. -/
theorem State.ranks_place {s : State P} {net : Network} {country : Option String}
    {list : ServerList} {t : Instant} {r : RankedServer} (h : r ∈ s.ranks net country list t) :
    ∃ m ∈ s.swept net country list, m.rtt.isSome = true ∧ r.place = m.server.place := by
  obtain ⟨scored, hscored, rfl⟩ := List.mem_map.mp h
  obtain ⟨m, hm, rtt, hrtt, rfl⟩ := mem_rank hscored
  exact ⟨m, hm, by rw [hrtt]; rfl, rfl⟩

/-- Every server that answered has its entry in the ranking. -/
theorem State.place_ranks {s : State P} {net : Network} {country : Option String}
    {list : ServerList} {m : Measured} (t : Instant) (h : m ∈ s.swept net country list)
    (hsome : m.rtt.isSome = true) :
    ∃ r ∈ s.ranks net country list t, r.place = m.server.place := by
  obtain ⟨rtt, hrtt⟩ := Option.isSome_iff_exists.mp hsome
  exact ⟨_, List.mem_map_of_mem (scored_mem_rank h hrtt), rfl⟩

/-- A sweep that succeeds heard some server, and stores the ranking it returns. -/
theorem sweep_ok {country : Option String} {ranking : List RankedServer} {w w' : World P}
    (h : sweep country w = (.ok ranking, w')) : ∃ list v t, serverList w = (.ok list, v) ∧
      ranking = w.state.ranks (w.outside.network 0) country list t ∧
      w'.state.lastRanking = ranking ∧
      ∃ m ∈ w.state.swept (w.outside.network 0) country list, m.rtt.isSome = true := by
  obtain ⟨_, _, hself, h⟩ := bind_ok h
  cases hself
  obtain ⟨list, v, hlist, h⟩ := bind_ok h
  have hfetches := serverList_fetches.run hlist
  dsimp only at h
  split at h
  · cases h
  · obtain ⟨started, v₁, hstarted, h⟩ := bind_ok h
    have hbefore := trans_of Fetches hfetches (now_fetches.run hstarted)
    obtain ⟨net, v₂, hnet, h⟩ := bind_ok h
    obtain rfl : v₁.outside.network 0 = net := by cases hnet; rfl
    obtain ⟨duration, v₃, _, h⟩ := bind_ok h
    obtain ⟨t, v₄, _, h⟩ := bind_ok h
    obtain ⟨_, v₅, _, h⟩ := bind_ok h
    split at h
    · cases h
    · next hreachable =>
      obtain ⟨_, v₆, hstored, h⟩ := bind_ok h
      cases h
      cases hstored
      rw [hbefore.network] at hreachable ⊢
      obtain ⟨m, hm⟩ := List.exists_mem_of_length_pos (Nat.pos_of_ne_zero hreachable)
      exact ⟨list, v, t, hlist, rfl, rfl, m, List.mem_filter.mp hm⟩

/-- A sweep that fails stores none: there is no list, or no server of it answers. -/
theorem sweep_error {country : Option String} {e : Error} {w w' : World P}
    (h : sweep country w = (.error e, w')) : w'.state.lastRanking = w.state.lastRanking ∧
      ∀ list, (serverList w).1 = .ok list →
        ∀ m ∈ w.state.swept (w.outside.network 0) country list, m.rtt = none := by
  rcases bind_error h with h | ⟨_, _, hself, h⟩
  · cases h
  cases hself
  rcases bind_error h with h | ⟨list, v, hlist, h⟩
  · refine ⟨(serverList_fetches.run h).lastRanking, fun list hok => ?_⟩
    rw [h] at hok
    cases hok
  have hfetches := serverList_fetches.run hlist
  dsimp only at h
  split at h
  · next hempty =>
    cases h
    refine ⟨hfetches.lastRanking, fun list hok m hm => ?_⟩
    rw [hlist] at hok
    cases hok
    rw [State.swept, hempty] at hm
    cases hm
  · -- only the check that something answered can fail from here on
    simp only [bind_run, now, nextNetwork, draw, elapsed, modify, update, pure_run] at h
    split at h
    · next hnone =>
      cases h
      refine ⟨hfetches.lastRanking, fun list hok m hm => ?_⟩
      rw [hlist] at hok
      cases hok
      rw [hfetches.network] at hnone
      by_contra hsome
      have hmem : m ∈ (w.state.swept _ country list).filter (·.rtt.isSome) :=
        List.mem_filter.mpr ⟨hm, Option.isSome_iff_ne_none.mpr hsome⟩
      exact (List.length_pos_of_mem hmem).ne' hnone
    · cases h

/-- A named server that answers is one of the list. -/
theorem probeNamed_ok {name : String} {chosen : RankedServer} {w w' : World P}
    (h : probeNamed name w = (.ok chosen, w')) : ∃ list v server, serverList w = (.ok list, v) ∧
      list.get name = some server ∧ chosen.place = server.place := by
  obtain ⟨_, _, hself, h⟩ := bind_ok h
  cases hself
  obtain ⟨list, v, hlist, h⟩ := bind_ok h
  refine ⟨list, v, ?_⟩
  cases hget : list.get name with
  | none => rw [hget] at h; cases h
  | some server =>
    rw [hget] at h
    obtain ⟨net, u, _, h⟩ := bind_ok h
    dsimp only at h
    cases hrank : rank P.log (w.state.prober.sweep net [server] wgEntries
        w.state.config.provider.airvpn.port) w.state.scoring with
    | nil => rw [hrank] at h; cases h
    | cons scored rest =>
      rw [hrank] at h
      obtain ⟨t, x, _, h⟩ := bind_ok h
      cases h
      obtain ⟨m, hm, rtt, _, rfl⟩ := mem_rank (hrank ▸ List.mem_cons_self)
      refine ⟨server, hlist, rfl, ?_⟩
      rw [← List.mem_singleton.mp (Prober.mem_sweep hm)]
      rfl

theorem rankForConnect_measures (measureFirst : Option Bool) :
    Within Measures (rankForConnect measureFirst : Daemon P (List RankedServer)) :=
  Within.bind (Within.read _) fun _ =>
    Within.bind (measures_of_samples (calibrate_samples _)) fun _ => sweep_measures none

end Vpnmgr
