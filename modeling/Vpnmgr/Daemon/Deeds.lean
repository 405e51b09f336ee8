import Vpnmgr.Daemon.Pairing
import Vpnmgr.Daemon.Healthy
import Vpnmgr.Probe.Concurrent

/-! What the daemon does, one deed at a time: every operation, and every pass that is abandoned, is a
run of deeds, so that what each deed keeps holds wherever the daemon is led. -/

namespace Vpnmgr

open Ieee Stateful Stateful.Action

variable {P : Platform} {α : Type}

/-- A ranked server is this server of the list, at one of the entries that are probed. -/
structure RankedServer.Describes (r : RankedServer) (s : Server) : Prop where
  name : r.name = s.name
  countryCode : r.countryCode = s.countryCode
  countryName : r.countryName = s.countryName
  location : r.location = s.location
  load : r.load = s.load
  headroomMbps : r.headroomMbps = s.headroomMbps
  entry : ∃ port, (r.entry, r.endpoint) ∈ s.wgEndpoints wgEntries port

/-- A ranked server is one of these. -/
def Known (G : Server → Prop) (r : RankedServer) : Prop := ∃ s, G s ∧ r.Describes s

/-- A measurement is of one of these servers, reported healthy, at an entry of it if there is an
answer. -/
structure Measured.Of (G : Server → Prop) (m : Measured) : Prop where
  listed : G m.server
  healthy : m.server.isHealthy = true
  entry : m.rtt.isSome = true → ∃ port, (m.entry, m.endpoint) ∈ m.server.wgEndpoints wgEntries port

/-- One of these servers that is reported healthy. -/
def Fit (G : Server → Prop) (s : Server) : Prop := G s ∧ s.isHealthy = true

theorem Known.of_fit {G : Server → Prop} {r : RankedServer} (h : Known (Fit G) r) : Known G r :=
  h.imp fun _ hs => ⟨hs.1.1, hs.2⟩

/-- A summary counts no more servers as reachable than were probed, and names one of these as the
best exactly if any was. -/
structure SweepSummary.Of (G : Server → Prop) (s : SweepSummary) : Prop where
  reachable : s.reachable ≤ s.probed
  none : s.best = none ↔ s.reachable = 0
  allUnreachable : s.allUnreachable = true ↔ s.reachable = 0
  best : ∀ r, s.best = some r → Known (Fit G) r

/-- One thing that an operation does to the world, where every list has only such servers. -/
inductive Deed (G : Server → Prop) : World P → World P → Prop where
  /-- Something is asked of the world besides a list. -/
  | ask {w : World P} (o : Outside P) (h : o.fetch = w.outside.fetch) :
    Deed G w { w with outside := o }
  | tick {w : World P} : Deed G w (after now w)
  | fetch {w : World P} : Deed G w (after nextFetch w)
  | stored {w : World P} (list : ServerList) (hlist : ∀ s ∈ list.servers, G s)
    (hstale : ∀ old, w.state.servers = some old → serverCacheTtl < w.clock - old.2) :
    Deed G w { w with state := { w.state with servers := some (list, w.clock) } }
  | noted {w : World P} (summary : SweepSummary) (h : summary.Of G) :
    Deed G w { w with state := { w.state with lastSweep := some (summary, w.clock) } }
  | ranked {w : World P} (measured : List Measured) (h : ∀ m ∈ measured, m.Of G) :
    Deed G w { w with state := { w.state with
      lastRanking := (rank P.log measured w.state.scoring).map (w.state.toRanked w.clock) } }
  | rated {w : World P} (server : String) (mbps : F64) :
    Deed G w { w with state := w.state.withThroughput server mbps w.clock }
  | calibrated {w : World P} (mbps : F64) :
    Deed G w { w with state := { w.state with directMbps := some (mbps, w.clock) } }
  | operated {w : World P} (m : P.Machine) : Deed G w { w with machine := m }
  | up {w : World P} (chosen : RankedServer) (tunnel : P.Tunnel) (m : P.Machine)
    (hnone : w.state.current = none) (hknown : Known G chosen) :
    Deed G w { w with
      machine := m
      state := { w.state with tunnel := some tunnel, current := some (.of chosen) }
      events := .up chosen.endpoint :: w.events }
  | moved {w : World P} (chosen : RankedServer) (tunnel : P.Tunnel) (m : P.Machine)
    (dismissed : Option (String × Instant)) (htunnel : w.state.tunnel.isSome = true)
    (hknown : Known G chosen) (hdismissed : dismissed = w.state.dismissed ∨ dismissed = none) :
    Deed G w { w with
      machine := m
      state := { w.state with
        tunnel := some tunnel, current := some (.of chosen), dismissed := dismissed }
      events := .switched chosen.endpoint :: w.events }
  | stuck {w : World P} (tunnel : P.Tunnel) (m : P.Machine) (htunnel : w.state.tunnel.isSome = true) :
    Deed G w { w with machine := m, state := { w.state with tunnel := some tunnel } }
  | down {w : World P} (m : P.Machine) (htunnel : w.state.tunnel.isSome = true) :
    Deed G w { w with
      machine := m
      state := { w.state with tunnel := none, current := none }
      events := .down :: w.events }
  | killswitch {w : World P} (enabled : Bool) :
    Deed G w { w with state := w.state.setKillswitch enabled }
  | reloaded {w : World P} (config : Config) (client : ClientConfig)
    (hvalid : config.validate = .ok ()) :
    Deed G w { w with state :=
      State.applyFiltersToCachedResults { w.state with config, client, servers := none } }
  | proposed {w : World P} (target : RankedServer) (reason : String)
    (hknown : Known (Fit G) target) :
    Deed G w { w with
      state := { w.state with pending := some (target, reason, w.clock) }
      events := .proposed target.name :: w.events }
  | settled {w : World P} : Deed G w { w with state := { w.state with pending := none } }
  | remembered {w : World P} (current : Connection) (h : w.state.current = some current) :
    Deed G w { w with state := { w.state with dismissed := some (current.server, w.clock) } }
  | told {w : World P} (text : String) :
    Deed G w { w with state := { w.state with lastTune := some text } }
  | timed {w : World P} (lastTuneAt : Option Instant) :
    Deed G w { w with state := { w.state with lastTuneAt } }

/-- The deeds of a run. -/
def Deeds (G : Server → Prop) : World P → World P → Prop := Relation.ReflTransGen (Deed G)

/-- The list in the cache, and every list to come, has only such servers. -/
structure World.Lists (G : Server → Prop) (w : World P) : Prop where
  cached : ∀ c, w.state.servers = some c → ∀ s ∈ c.1.servers, G s
  fetched : ∀ n list, w.outside.fetch n = .fetched list → ∀ s ∈ list.servers, G s

/-! ### What an operation's parts do -/

theorem Deed.lists {G : Server → Prop} {w w' : World P} (h : Deed G w w') (hw : w.Lists G) :
    w'.Lists G := by
  cases h with
  | ask o h => exact ⟨hw.cached, by rw [h]; exact hw.fetched⟩
  | fetch => exact ⟨hw.cached, fun n => hw.fetched (n + 1)⟩
  | stored list hlist => exact ⟨fun c hc => (by cases hc; exact hlist), hw.fetched⟩
  | reloaded => exact ⟨fun c hc => (by cases hc), hw.fetched⟩
  | _ => exact ⟨hw.cached, hw.fetched⟩

theorem Deeds.lists {G : Server → Prop} {w w' : World P} (h : Deeds G w w') (hw : w.Lists G) :
    w'.Lists G := by
  induction h with
  | refl => exact hw
  | tail _ hdeed ih => exact hdeed.lists ih

/-- From a world whose lists have only such servers, only such deeds are done. -/
def Does (G : Server → Prop) (w w' : World P) : Prop := w.Lists G → Deeds G w w'

instance (G : Server → Prop) : IsPreorder (World P) (Deeds G) where
  refl _ := .refl
  trans _ _ _ := .trans

instance (G : Server → Prop) : IsPreorder (World P) (Does G) where
  refl _ _ := .refl
  trans _ _ _ h₁ h₂ hw := (h₁ hw).trans (h₂ ((h₁ hw).lists hw))

variable {G : Server → Prop}

theorem Deed.does {w w' : World P} (h : Deed G w w') : Does G w w' := fun _ => .single h

theorem now_does : Within (Does G) (now : Daemon P Instant) := fun _ => Deed.tick.does

theorem nextNetwork_does : Within (Does G) (nextNetwork : Daemon P Network) :=
  fun w => (Deed.ask (w := w) (after nextNetwork w).outside rfl).does

theorem nextDownload_does : Within (Does G) (nextDownload : Daemon P Download) :=
  fun w => (Deed.ask (w := w) (after nextDownload w).outside rfl).does

theorem nextTrial_does : Within (Does G) (nextTrial : Daemon P Trial) :=
  fun w => (Deed.ask (w := w) (after nextTrial w).outside rfl).does

/-! ### The list -/

/-- A fetch that is due leaves its list, as old as the clock. -/
theorem refresh_deeds {w : World P} (hw : w.Lists G)
    (hstale : ∀ old, w.state.servers = some old → serverCacheTtl < w.clock - old.2) :
    Deeds G w (after refresh w) := by
  refine Within.bind_at (R := Deeds G) (.single .fetch) fun fetch v hfetch => ?_
  cases hfetch
  cases hanswer : w.outside.fetch 0 with
  | noClient => exact .refl
  | failed =>
    show Deeds G (after nextFetch w) (after (self >>= _) (after nextFetch w))
    rw [after, after, self, read_bind]
    cases (nextFetch w).2.state.servers <;> exact .refl
  | fetched list =>
    refine Within.bind_at (R := Deeds G) (.single .tick) fun t u hnow => ?_
    cases hnow
    refine .single (.stored list (hw.fetched 0 list hanswer) fun old hold => ?_)
    exact (hstale old hold).trans_le (Nat.sub_le_sub_right (Nat.le_add_right _ _) _)

theorem serverList_does : Within (Does G) (serverList : Daemon P ServerList) := by
  intro w hw
  refine Within.bind_at (R := Deeds G) ?_ fun _ v _ => ?_
  · rw [refreshIfStale, self, read_bind]
    cases hservers : w.state.servers with
    | none => exact refresh_deeds hw fun old hold => by cases hservers.symm.trans hold
    | some cached =>
      obtain ⟨list, at_⟩ := cached
      refine Within.bind_at (R := Deeds G) (.single .tick) fun stale v hrun => ?_
      cases hrun
      split
      · next hexpired =>
        refine refresh_deeds (Deed.tick.lists hw) fun old hold => ?_
        cases hservers.symm.trans hold
        exact of_decide_eq_true hexpired
      · exact .refl
  · show Deeds G v (after cachedList v)
    rw [after, cachedList, self, read_bind]
    cases v.state.servers <;> exact .refl

/-- A list that is returned is the one in the cache. -/
theorem serverList_cached {w v : World P} {list : ServerList} (h : serverList w = (.ok list, v)) :
    ∃ t, v.state.servers = some (list, t) := by
  obtain ⟨_, u, _, h⟩ := bind_ok h
  rw [cachedList, self, read_bind] at h
  cases hservers : u.state.servers with
  | none => rw [hservers] at h; cases h
  | some cached =>
    rw [hservers] at h
    cases h
    exact ⟨_, hservers⟩

theorem serverList_listed {w v : World P} {list : ServerList} (hw : w.Lists G)
    (h : serverList w = (.ok list, v)) : ∀ s ∈ list.servers, G s := by
  obtain ⟨t, hservers⟩ := serverList_cached h
  have hv : v.Lists G := ((serverList_does.run h) hw).lists hw
  exact hv.cached _ hservers

/-! ### Measuring -/

theorem recordThroughput_does (server : String) (mbps : F64) :
    Within (Does G) (recordThroughput server mbps : Daemon P Unit) := by
  refine fun w => Within.bind_at (now_does w) fun t v hnow => ?_
  cases hnow
  exact (Deed.rated server mbps).does

theorem recordDirect_does (mbps : F64) : Within (Does G) (recordDirect mbps : Daemon P Unit) := by
  refine fun w => Within.bind_at (now_does w) fun t v hnow => ?_
  cases hnow
  exact (Deed.calibrated mbps).does

theorem sampling_does : Sampling (Does G : World P → World P → Prop) where
  probeNamed name := probeNamed_within serverList_does now_does nextNetwork_does name
  nextDownload := nextDownload_does
  recordThroughput := recordThroughput_does
  recordDirect := recordDirect_does

/-- The fastest entry kept is the one before, or that of a target that answered. -/
theorem keepFaster_mem {entries : List (Nat × SocketAddr)}
    {items : List ((Nat × Nat × SocketAddr) × ProbeResult)}
    (h : ∀ x ∈ items, (x.1.2.1, x.2.endpoint) ∈ entries)
    {best : Option (Nat × SocketAddr × Duration)}
    (hbest : ∀ b, best = some b → (b.1, b.2.1) ∈ entries) :
    ∀ b, items.foldl (fun best x => keepFaster x.1.2.1 best x.2) best = some b →
      (b.1, b.2.1) ∈ entries := by
  induction items generalizing best with
  | nil => exact hbest
  | cons x items ih =>
    obtain ⟨hx, hitems⟩ := List.forall_mem_cons.mp h
    refine ih hitems fun b hb => ?_
    dsimp only [keepFaster] at hb
    split at hb
    · exact hbest b hb
    · split at hb
      · exact hbest b hb
      · cases hb
        exact hx
    · cases hb
      exact hx

/-- A measurement that has a time is of an entry of its server. -/
theorem Prober.sweep_entry {p : Prober} {net : Network} {servers : List Server}
    {entries : List Nat} {port : UInt16} {m : Measured} (h : m ∈ p.sweep net servers entries port)
    (hsome : m.rtt.isSome = true) :
    (m.entry, m.endpoint) ∈ m.server.wgEndpoints entries port := by
  simp only [Prober.sweep, List.mem_mapIdx] at h
  obtain ⟨i, hi, rfl⟩ := h
  rw [Scatter.scatter_apply, zip_probeMany] at hsome ⊢
  generalize hitems : List.filter _ _ = items at hsome ⊢
  have hentries : ∀ x ∈ items, (x.1.2.1, x.2.endpoint) ∈ servers[i].wgEndpoints entries port := by
    rintro x hx
    rw [← hitems] at hx
    obtain ⟨hx, howner⟩ := List.mem_filter.mp hx
    obtain ⟨t, ht, rfl⟩ := List.mem_map.mp hx
    have htarget : t.1 ∈ probeTargets servers entries port := List.fst_mem_of_mem_zipIdx ht
    obtain ⟨s, hs, hrow⟩ := List.mem_flatMap.mp htarget
    obtain ⟨e, he, hte⟩ := List.mem_map.mp hrow
    obtain rfl : s.2 = i := by rw [← of_decide_eq_true howner, ← hte]
    have hserver : servers[s.2] = s.1 :=
      (List.getElem_eq_iff hi).mpr (List.mk_mem_zipIdx_iff_getElem?.mp hs)
    rw [hserver, probe_endpoint, ← hte]
    exact he
  cases hbest : items.foldl (fun best x => keepFaster x.1.2.1 best x.2) none with
  | none => rw [hbest] at hsome; cases hsome
  | some b =>
    exact keepFaster_mem hentries (fun b hb => by cases hb) b hbest

/-- What a sweep of a list measures are servers of it that are reported healthy. -/
theorem State.swept_of {s : State P} {net : Network} {country : Option String} {list : ServerList}
    (hlist : ∀ m ∈ list.servers, G m) : ∀ m ∈ s.swept net country list, m.Of G := by
  intro m hm
  have hmem := Filters.mem_accepted.mp (Prober.mem_sweep hm)
  exact ⟨hlist _ hmem.1, hmem.2.1, fun hsome => ⟨_, Prober.sweep_entry hm hsome⟩⟩

/-- The entries of a ranking describe the servers that were measured. -/
theorem ranked_known {s : State P} {t : Instant} {scoring : Scoring} {measured : List Measured}
    (h : ∀ m ∈ measured, m.Of G) :
    ∀ r ∈ (rank P.log measured scoring).map (s.toRanked t), Known (Fit G) r := by
  intro r hr
  obtain ⟨scored, hscored, rfl⟩ := List.mem_map.mp hr
  obtain ⟨m, hm, rtt, hrtt, rfl⟩ := mem_rank hscored
  have hof := h m hm
  exact ⟨m.server, ⟨hof.listed, hof.healthy⟩, rfl, rfl, rfl, rfl, rfl, rfl,
    hof.entry (by rw [hrtt]; rfl)⟩

/-- There is a ranking exactly where some server answered. -/
theorem rank_eq_nil_iff {log : Logarithm} {measured : List Measured} {scoring : Scoring} :
    rank log measured scoring = [] ↔ (measured.filter (·.rtt.isSome)).length = 0 := by
  rw [List.length_eq_zero_iff, List.filter_eq_nil_iff]
  constructor
  · intro hnil m hm hsome
    obtain ⟨rtt, hrtt⟩ := Option.isSome_iff_exists.mp hsome
    have hmem : scoring.scored log (fastestOf measured) m rtt ∈ rank log measured scoring :=
      scored_mem_rank hm hrtt
    rw [hnil] at hmem
    cases hmem
  · intro hnone
    refine List.eq_nil_iff_forall_not_mem.mpr fun r hr => ?_
    obtain ⟨m, hm, rtt, hrtt, _⟩ := mem_rank hr
    exact hnone m hm (by rw [hrtt]; rfl)

/-- What is noted of a sweep, its ranking being what the clients are shown. -/
theorem SweepSummary.Of.of_measured {s : State P} {t : Instant} {scoring : Scoring}
    {measured : List Measured} (h : ∀ m ∈ measured, m.Of G) (elapsedMs ageSecs : Nat) :
    SweepSummary.Of G {
      probed := measured.length
      reachable := (measured.filter (·.rtt.isSome)).length
      elapsedMs
      ageSecs
      best := ((rank P.log measured scoring).map (s.toRanked t)).head?
      allUnreachable := decide ((measured.filter (·.rtt.isSome)).length = 0) } where
  reachable := List.length_filter_le _ _
  none := by rw [List.head?_eq_none_iff, List.map_eq_nil_iff, rank_eq_nil_iff]
  allUnreachable := decide_eq_true_iff
  best r hr := ranked_known h r (List.mem_of_mem_head? hr)

/-- The entries of a ranking are the same from any state with the same rates. -/
theorem State.toRanked_congr {s s' : State P} (h : s'.throughputSeen = s.throughputSeen)
    (t : Instant) : s'.toRanked t = s.toRanked t := by
  funext r
  rw [toRanked, toRanked, h]

theorem State.scoring_congr {s s' : State P} (hconfig : s'.config = s.config)
    (hdirect : s'.directMbps = s.directMbps) : s'.scoring = s.scoring := by
  rw [scoring, scoring, direct, direct, hconfig, hdirect]

theorem sweep_does (country : Option String) :
    Within (Does G) (sweep country : Daemon P (List RankedServer)) := by
  intro w hw
  rw [sweep, self, read_bind]
  refine Within.bind_at (R := Deeds G) (serverList_does w hw) fun list v hrun => ?_
  have hlist := serverList_listed hw hrun
  have hv := serverList_fetches.run hrun
  dsimp only
  split
  · exact .refl
  · refine Within.bind_at (R := Deeds G) (.single .tick) fun started v₁ hnow => ?_
    have hv₁ := trans_of Fetches hv (now_fetches.run hnow)
    refine Within.bind_at (R := Deeds G) (.single (.ask _ rfl)) fun net v₂ hnet => ?_
    have hsame₂ : v₂.state = v₁.state := by cases hnet; rfl
    refine Within.bind_at (R := Deeds G) (.single .tick) fun duration v₃ helapsed => ?_
    have hsame₃ : v₃.state = v₂.state := by cases helapsed; rfl
    refine Within.bind_at (R := Deeds G) (.single .tick) fun t u htime => ?_
    obtain ⟨rfl, hsame₄⟩ : u.clock = t ∧ u.state = v₃.state := by cases htime; exact ⟨rfl, rfl⟩
    have hstate : u.state = v₁.state := hsame₄.trans (hsame₃.trans hsame₂)
    have hof : ∀ m ∈ w.state.swept net country list, m.Of G := State.swept_of hlist
    refine Within.bind_at (R := Deeds G) (.single (.noted _ (.of_measured hof _ _)))
      fun _ x hnoted => ?_
    obtain ⟨hsame₅, hseen, hclock⟩ : x.state.scoring = u.state.scoring ∧
        x.state.throughputSeen = u.state.throughputSeen ∧ x.clock = u.clock := by
      cases hnoted
      exact ⟨rfl, rfl, rfl⟩
    have hscoring : w.state.scoring = x.state.scoring := by
      rw [hsame₅, hstate]
      exact (State.scoring_congr hv₁.config hv₁.directMbps).symm
    have hranked : w.state.toRanked u.clock = x.state.toRanked x.clock := by
      rw [hclock]
      refine (State.toRanked_congr ?_ _).symm
      rw [hseen, hstate, hv₁.throughputSeen]
    split
    · exact .refl
    · refine Within.bind_at (R := Deeds G) (.single ?_) fun _ _ _ => .refl
      rw [hranked, hscoring]
      exact .ranked _ hof

/-! ### Moving the connection -/

/-- A named server that answers is one of these. -/
theorem probeNamed_known {name : String} {chosen : RankedServer} {w v : World P}
    (hw : w.Lists G) (h : probeNamed name w = (.ok chosen, v)) : Known G chosen := by
  rw [probeNamed, self, read_bind] at h
  obtain ⟨list, u, hlist, h⟩ := bind_ok h
  have hlisted := serverList_listed hw hlist
  cases hget : list.get name with
  | none => rw [hget] at h; cases h
  | some server =>
    rw [hget] at h
    obtain ⟨net, x, _, h⟩ := bind_ok h
    have hof : ∀ m ∈ w.state.prober.sweep net [server] wgEntries
        w.state.config.provider.airvpn.port, m.rtt.isSome = true →
        (m.entry, m.endpoint) ∈ m.server.wgEndpoints wgEntries _ ∧ m.server = server :=
      fun m hm hsome => ⟨Prober.sweep_entry hm hsome, List.mem_singleton.mp (Prober.mem_sweep hm)⟩
    dsimp only at h
    cases hrank : rank P.log (w.state.prober.sweep net [server] wgEntries
        w.state.config.provider.airvpn.port) w.state.scoring with
    | nil => rw [hrank] at h; cases h
    | cons scored rest =>
      rw [hrank] at h
      obtain ⟨t, y, _, h⟩ := bind_ok h
      cases h
      obtain ⟨m, hm, rtt, hrtt, rfl⟩ := mem_rank (hrank ▸ List.mem_cons_self)
      obtain ⟨hentry, rfl⟩ := hof m hm (by rw [hrtt]; rfl)
      exact ⟨m.server, hlisted _ (List.mem_of_find?_eq_some hget), rfl, rfl, rfl, rfl, rfl, rfl, _,
        hentry⟩

/-- What a call of the backend leaves is what it left of the machine, besides what was asked. -/
theorem Steers.asks {w w' : World P} (h : Steers w w') :
    Deed G w { w with outside := w'.outside } :=
  .ask _ (by rw [h.outside])

theorem establish_deeds {chosen : RankedServer} {w : World P} (hnone : w.state.current = none)
    (hknown : Known G chosen) : Deeds G w (after (establish chosen) w) := by
  have hsteers := establish_steers chosen w
  rcases h : establish chosen w with ⟨r, ⟨state, machine, clock, outside, events⟩⟩
  rw [h] at hsteers
  rw [after, h]
  refine .head hsteers.asks (.single ?_)
  obtain rfl : clock = w.clock := hsteers.clock
  rcases establish_cases h with ⟨_, _, _, hstate, hevents, hmachine⟩ |
    ⟨_, _, _, _, _, _, _, hstate, hevents, hmachine⟩ | ⟨_, tunnel, _, _, _, hstate, hevents⟩
  · cases hstate
    cases hevents
    exact .operated _
  · cases hstate
    cases hevents
    exact .operated _
  · cases hstate
    cases hevents
    exact .up (w := { w with outside }) chosen tunnel machine hnone hknown

/-- Pointing the tunnel at one of these servers, and recording it, is a move where it succeeds. -/
theorem retarget_deeds {chosen : RankedServer} {record : State P → State P} {w : World P}
    (hrecord : ∀ s, record s = { s with
      current := some (.of chosen), dismissed := (record s).dismissed })
    (hdismissed : ∀ s, (record s).dismissed = s.dismissed ∨ (record s).dismissed = none)
    (hknown : Known G chosen) :
    Deeds G w (after (do retarget chosen; modify record : Daemon P Unit) w) := by
  have hsteers := retarget_steers chosen w
  rcases h : retarget chosen w with ⟨r, w'⟩
  rw [h] at hsteers
  have hcases := retarget_cases h
  obtain ⟨state, machine, clock, outside, events⟩ := w'
  obtain rfl : clock = w.clock := hsteers.clock
  rcases hcases with ⟨_, rfl, hsame⟩ | ⟨_, _, tunnel, htunnel, _, rfl, hstate, hevents⟩ |
    ⟨_, tunnel, htunnel, _, rfl, hstate, hevents⟩
  · rw [after, bind_run_error h, hsame]
    exact .refl
  · cases hstate
    cases hevents
    rw [after, bind_run_error h]
    refine .head hsteers.asks (.single ?_)
    exact .stuck (w := { w with outside }) tunnel machine (by rw [htunnel]; rfl)
  · cases hstate
    cases hevents
    rw [after, bind_run_ok h]
    refine .head hsteers.asks (.single ?_)
    show Deed G { w with outside } ⟨record { w.state with tunnel := some tunnel }, _, _, _, _⟩
    rw [hrecord]
    exact .moved (w := { w with outside }) chosen tunnel machine _ (by rw [htunnel]; rfl) hknown
      (hdismissed _)

theorem moveTo_deeds {chosen : RankedServer} (hknown : Known G chosen) :
    Within (Deeds G) (moveTo chosen : Daemon P Unit) :=
  fun _ => retarget_deeds (fun _ => rfl) (fun _ => .inl rfl) hknown

theorem switch_does (name : String) :
    Within (Does G) (switch name : Daemon P RankedServer) := by
  intro w hw
  rw [switch, self, read_bind]
  split
  · exact .refl
  · refine Within.bind_at (R := Deeds G) (sampling_does.probeNamed name w hw) fun chosen v hprobe => ?_
    let record (s : State P) : State P := { s with dismissed := none, current := some (.of chosen) }
    have hmoved : Deeds G v (after (do retarget chosen; modify record : Daemon P Unit) v) :=
      retarget_deeds (fun _ => rfl) (fun _ => .inr rfl) (probeNamed_known hw hprobe)
    have hpure := Within.bind_at (R := Deeds G) (f := fun _ => pure chosen) hmoved fun _ _ _ => .refl
    rwa [bind_bind] at hpure

theorem disconnect_deeds : Within (Deeds G) (disconnect : Daemon P Unit) := by
  intro w
  have hsteers := disconnect_steers w
  rcases h : disconnect w with ⟨r, w'⟩
  rw [h] at hsteers
  have hcases := disconnect_cases h
  obtain ⟨state, machine, clock, outside, events⟩ := w'
  obtain rfl : clock = w.clock := hsteers.clock
  rcases hcases with ⟨_, _, hsame⟩ | ⟨_, _, _, _, htunnel, _, _, hstate, _, hevents⟩
  · rw [hsame]
    exact .refl
  · cases hstate
    cases hevents
    refine .head hsteers.asks (.single ?_)
    exact .down (w := { w with outside }) machine (by rw [htunnel]; rfl)

/-! ### Whole operations -/

theorem does_of_deeds {x : Daemon P α} (h : Within (Deeds G) x) : Within (Does G) x :=
  h.mono fun _ _ hdeeds _ => hdeeds

/-- A sweep that succeeds ranks only such servers, each reported healthy. -/
theorem sweep_known {country : Option String} {ranking : List RankedServer} {w v : World P}
    (hw : w.Lists G) (h : sweep country w = (.ok ranking, v)) :
    v.state.lastRanking = ranking ∧ ∀ r ∈ ranking, Known (Fit G) r := by
  obtain ⟨list, u, t, hlist, rfl, hstored, -⟩ := sweep_ok h
  exact ⟨hstored, ranked_known (State.swept_of (serverList_listed hw hlist))⟩

theorem rankForConnect_known {measureFirst : Option Bool} {ranked : List RankedServer}
    {w v : World P} (hw : w.Lists G) (h : rankForConnect measureFirst w = (.ok ranked, v)) :
    ∀ c ∈ ranked, Known G c := by
  rw [rankForConnect, self, read_bind] at h
  obtain ⟨_, u, hcalibrate, hsweep⟩ := bind_ok h
  have hu : u.Lists G := ((sampling_does.calibrate _).run hcalibrate hw).lists hw
  exact fun c hc => ((sweep_known hu hsweep).2 c hc).of_fit

theorem connect_does (server : Option String) (measureFirst : Option Bool) :
    Within (Does G) (connect server measureFirst : Daemon P RankedServer) := by
  intro w hw
  rw [connect, self, read_bind]
  cases hnone : w.state.current with
  | some current => exact .refl
  | none =>
    cases server with
    | none =>
      exact connectBest_within sampling_does nextTrial_does
        (fun c hc => does_of_deeds (moveTo_deeds hc)) (sweep_does none)
        (fun c v hc hv _ => establish_deeds hv hc) _ hnone
        (fun _ _ hrank => rankForConnect_known hw hrank) hw
    | some name =>
      refine Within.bind_at (R := Deeds G) (sampling_does.probeNamed name w hw) fun chosen v hprobe => ?_
      have hv : v.state.current = none := ((probeNamed_samples _).run hprobe).current.trans hnone
      exact Within.bind_at (R := Deeds G) (establish_deeds hv (probeNamed_known hw hprobe))
        fun _ _ _ => .refl

theorem baseline_does : Within (Does G) (baseline : Daemon P SpeedReport) := by
  refine Within.bind (Within.read _) fun s => ?_
  cases s.current with
  | none => exact sampling_does.speedtest
  | some current =>
    refine Within.bind (sampling_does.measure _) fun tunnelled => ?_
    refine Within.bind (sampling_does.recordThroughput _ _) fun _ => ?_
    refine Within.bind (does_of_deeds disconnect_deeds) fun _ => ?_
    refine Within.bind (Within.attempt (sampling_does.measure _)) fun direct => ?_
    refine Within.bind (Within.attempt (connect_does _ _)) fun restored => ?_
    refine Within.bind (Within.lift _) fun direct => ?_
    refine Within.bind (Within.lift _) fun _ => ?_
    exact Within.bind (sampling_does.recordDirect _) fun _ => Within.pure _

/-! ### Passes -/

theorem told_does (text : String) :
    Within (Does G) (modify fun s => { s with lastTune := some text } : Daemon P Unit) :=
  fun _ => (Deed.told text).does

theorem pendingSwitch_does :
    Within (Does G) (pendingSwitch : Daemon P (Option PendingSwitch)) := by
  refine Within.bind (Within.read _) fun s => ?_
  cases s.pending with
  | none => exact Within.pure _
  | some pending => exact Within.bind (Within.bind now_does fun _ => Within.pure _) fun _ => Within.pure _

/-- A decision is recorded where what it proposes is one of these servers, reported healthy. -/
theorem record_does {decision : Tuner.Decision} {w : World P}
    (h : ∀ best, decision.target = some best → Known (Fit G) best) :
    Does G w (after (record decision) w) := by
  have hset : Does G w (after (setPending decision) w) := by
    cases decision with
    | propose best reason =>
      refine Within.bind_at (now_does w) fun t v hnow => ?_
      cases hnow
      exact (Deed.proposed best _ (h best rfl)).does
    | _ => exact Deed.settled.does
  refine Within.bind_at hset fun _ v _ => Within.bind (told_does _) (fun _ => ?_) v
  exact Within.bind pendingSwitch_does fun _ => Within.pure _

theorem tuneDegraded_does (current : Connection) (currentRtt : Option F64) :
    Within (Does G) (tuneDegraded current currentRtt : Daemon P TuneReport) := by
  intro w hw
  have hswept := sweep_does none w hw
  rcases h : sweep none w with ⟨e | ranked, v⟩
  · rw [h] at hswept
    rw [tuneDegraded, attempt_bind, h]
    cases e with
    | allUnreachable probed =>
      refine hswept.trans (record_does (fun best hbest => ?_) (hswept.lists hw))
      cases hbest
    | _ => exact hswept
  · rw [h] at hswept
    obtain ⟨_, _, -, hrun⟩ := tuneDegraded_swept current currentRtt h
    have hassessed : Does G v (after (assess current currentRtt ranked) v) :=
      assess_within now_does _ _ _ v
    rw [hrun]
    refine trans_of (Does G) (fun _ => hswept) (trans_of (Does G) hassessed ?_) hw
    refine Within.bind_at (followDecision_within switch_does _ _) fun _ u _ => ?_
    exact record_does fun best hbest =>
      (sweep_known hw h).2 best (List.mem_of_mem_head? (Tuner.decide_target hbest))

theorem tune_does : Within (Does G) (tune : Daemon P TuneReport) := by
  have hrecord : ∀ decision : Tuner.Decision, decision.target = none →
      Within (Does G) (record decision : Daemon P TuneReport) :=
    fun decision hnone w => record_does fun best hbest => by cases hnone.symm.trans hbest
  refine Within.bind (Within.read _) fun s => ?_
  cases s.current with
  | none => exact hrecord _ rfl
  | some current =>
    refine Within.bind (probeCurrent_within serverList_does nextNetwork_does _) fun currentRtt => ?_
    refine Within.bind (Within.read _) fun s => ?_
    split
    · exact hrecord _ rfl
    · exact tuneDegraded_does _ _

theorem timed_does (lastTuneAt : Option Instant) :
    Within (Does G) (modify fun s => { s with lastTuneAt } : Daemon P Unit) :=
  fun _ => (Deed.timed lastTuneAt).does

theorem autotune_does : Within (Does G) (autotune : Daemon P TuneReport) :=
  Within.bind now_does fun _ => Within.bind (timed_does _) fun _ => tune_does

theorem approve_does : Within (Does G) (approve : Daemon P RankedServer) := by
  refine Within.bind (Within.read _) fun s => ?_
  cases s.pending with
  | none => exact Within.fail _
  | some pending =>
    refine Within.bind (fun _ => Deed.settled.does) fun _ => ?_
    refine Within.bind (switch_does _) fun moved => ?_
    exact Within.bind (told_does _) fun _ => Within.pure _

theorem rememberDismissal_does : Within (Does G) (rememberDismissal : Daemon P Unit) := by
  intro w
  rw [rememberDismissal, self, read_bind]
  cases hcurrent : w.state.current with
  | none => exact refl_of (Does G) w
  | some current =>
    refine Within.bind_at (now_does w) fun t v hnow => ?_
    cases hnow
    exact (Deed.remembered (w := after now w) current hcurrent).does

theorem dismiss_does : Within (Does G) (dismiss : Daemon P String) := by
  refine Within.bind (Within.read _) fun s => ?_
  cases s.pending with
  | none => exact Within.fail _
  | some pending =>
    refine Within.bind (fun _ => Deed.settled.does) fun _ => ?_
    refine Within.bind rememberDismissal_does fun _ => ?_
    exact Within.bind (told_does _) fun _ => Within.pure _

theorem reload_does : Within (Does G) (reload : Daemon P Unit) := by
  intro w hw
  refine Within.bind_at (R := Deeds G) ?_ fun loaded v hload => ?_
  · refine Within.bind_at (R := Deeds G) (.single (.ask _ rfl)) fun disk v _ => ?_
    refine Within.bind (R := Deeds G) (Within.lift _) (fun config => ?_) v
    exact Within.bind (Within.lift _) fun client => Within.pure _
  · obtain ⟨config, client⟩ := loaded
    exact .single (.reloaded config client (loadDisk_ok hload))

theorem killswitch_does (enable : Option Bool) :
    Within (Does G) (killswitch enable : Daemon P KillswitchReport) :=
  killswitch_within (fun w => (Deed.ask (w := w) (after nextEngage w).outside rfl).does)
    (fun w => (Deed.ask (w := w) (after nextRelease w).outside rfl).does)
    (fun _ _ => (Deed.operated _).does) (fun enabled _ => (Deed.killswitch enabled).does) enable

theorem servers_does (country : Option String) (limit : Option Nat) (all : Bool) :
    Within (Does G) (servers country limit all : Daemon P (List ServerSummary)) :=
  Within.bind (Within.read _) fun _ => Within.bind serverList_does fun _ => Within.pure _

/-- Whatever is asked of the daemon, it only does such deeds. -/
theorem step_does (w : World P) (op : Op) : Does G w (step w op) := by
  cases op with
  | connect server measure => exact connect_does _ _ w
  | disconnect => exact does_of_deeds disconnect_deeds w
  | switch server => exact switch_does _ w
  | test country => exact sweep_does _ w
  | servers country limit all => exact servers_does _ _ _ w
  | reload => exact reload_does w
  | autotune => exact autotune_does w
  | approve => exact approve_does w
  | dismiss => exact dismiss_does w
  | speedtest => exact sampling_does.speedtest w
  | baseline confirm =>
    cases confirm with
    | false => exact refl_of (Does G) w
    | true => exact baseline_does w
  | killswitch enable => exact killswitch_does _ w
  | scheduledPass =>
    refine Within.bind now_does (fun t => ?_) w
    refine Within.bind (Within.read _) fun s => Within.ite ?_ (Within.pure _)
    exact Within.bind autotune_does fun _ => Within.pure _

/-- An abandoned pass too has only done such deeds. -/
theorem turn_does (w : World P) (t : Turn) : Does G w (turn w t) := by
  cases t with
  | op op => exact step_does w op
  | abandoned at_ =>
    rw [turn]
    cases hwait : (Pass.scheduled.waits w)[at_]? with
    | none => exact refl_of (Does G) w
    | some w' =>
      exact Pass.scheduled_waits now_does serverList_does nextNetwork_does (sweep_does none)
        timed_does w w' (List.mem_of_getElem? hwait)

/-- A server of a list that the world has in store for the daemon. -/
def World.Offered (start : World P) (s : Server) : Prop :=
  ∃ n list, start.outside.fetch n = .fetched list ∧ s ∈ list.servers

theorem Starts.lists {w : World P} (h : Starts w) : w.Lists w.Offered := by
  obtain ⟨_, _, _, _, _, hloaded⟩ := h.loads
  refine ⟨fun c hc => ?_, fun n list hlist s hs => ⟨n, list, hlist, hs⟩⟩
  rw [hloaded] at hc
  cases hc

end Vpnmgr
