import Vpnmgr.Core.Ranking
import Vpnmgr.Daemon.Authority
import Vpnmgr.Daemon.Pass
import Vpnmgr.Probe.Concurrent

/-! When the daemon says that no server answered. A sweep does not see the connected endpoint, and a
pass that heard a slow answer from the server in use forgets it. -/

namespace Vpnmgr

open Ieee Stateful Stateful.Action

variable {P : Platform}

/-- The endpoints that a sweep of a list probes. -/
def State.sweepTargets (s : State P) (country : Option String) (list : ServerList) :
    List SocketAddr :=
  sweepEndpoints ((s.sweepFilters country).apply list).accepted wgEntries
    s.config.provider.airvpn.port

/-- The results of the probes of a sweep that begins in `w`. -/
def World.sweepResults (w : World P) (country : Option String) : List ProbeResult :=
  match (serverList w).1 with
  | .ok list =>
    w.state.prober.probeMany (w.outside.network 0) (w.state.sweepTargets country list)
  | .error _ => []

/-- The results of the probes that measure the server in use. -/
def World.lookResults (w : World P) (name : String) : List ProbeResult :=
  match (serverList w).1 with
  | .ok list =>
    match list.get name with
    | some server => w.state.currentProber.probeMany (w.outside.network 0)
        (sweepEndpoints [server] wgEntries w.state.config.provider.airvpn.port)
    | none => []
  | .error _ => []

/-- No probe got an answer that counts. -/
def Unanswered (results : List ProbeResult) : Prop := ∀ r ∈ results, r.usableTime = none

/-- The `i`-th probe would have been answered, had its endpoint not been excluded. -/
def Prober.WouldAnswer (p : Prober) (net : Network) (i : Nat) (endpoint : SocketAddr) : Prop :=
  (({ p with excluded := none } : Prober).probe (net p i endpoint) endpoint).usableTime.isSome = true

/-! ### What a sweep hears -/

theorem refresh_error {w v : World P} {e : Error} (h : refresh w = (.error e, v)) :
    ∃ reason, e = .fetch reason := by
  rcases bind_error h with h | ⟨fetch, u, -, h⟩
  · cases h
  cases fetch with
  | noClient reason => cases h; exact ⟨reason, rfl⟩
  | fetched list => cases h
  | failed reason =>
    obtain ⟨_, _, hself, h⟩ | h := (bind_error h).symm
    · cases hself
      cases hservers : u.state.servers with
      | some cached => rw [hservers] at h; cases h
      | none => rw [hservers] at h; cases h; exact ⟨reason, rfl⟩
    · cases h

/-- The list is only missed where it cannot be fetched. -/
theorem serverList_error {w v : World P} {e : Error} (h : serverList w = (.error e, v)) :
    ∃ reason, e = .fetch reason := by
  rcases bind_error h with h | ⟨_, u, -, h⟩
  · rw [refreshIfStale, self, read_bind] at h
    rcases bind_error h with h | ⟨stale, u, -, h⟩
    · cases hservers : w.state.servers with
      | none => rw [hservers] at h; cases h
      | some cached => rw [hservers] at h; cases h
    · cases stale with
      | true => exact refresh_error h
      | false => cases h
  · rw [cachedList, self, read_bind] at h
    cases hservers : u.state.servers with
    | some cached => rw [hservers] at h; cases h
    | none => rw [hservers] at h; cases h; exact ⟨_, rfl⟩

/-- A sweep fails only where none of its probes is answered. -/
theorem sweep_unanswered {country : Option String} {e : Error} {w v : World P}
    (h : sweep country w = (.error e, v)) : Unanswered (w.sweepResults country) := by
  unfold World.sweepResults
  cases hlist : (serverList w).1 with
  | error e => exact fun r hr => absurd hr List.not_mem_nil
  | ok list => exact (sweep_silent_iff _ _ _ _ _).mp ((sweep_error h).2 list hlist)

/-- A sweep that succeeds has an answer to one of them, and so a ranking. -/
theorem sweep_answered {country : Option String} {ranking : List RankedServer} {w v : World P}
    (h : sweep country w = (.ok ranking, v)) :
    ¬Unanswered (w.sweepResults country) ∧ ranking ≠ [] := by
  obtain ⟨list, _, t, hlist, hranking, -, m, hm, hsome⟩ := sweep_ok h
  obtain ⟨r, hr, -⟩ := State.place_ranks t hm hsome
  refine ⟨fun hsilent => ?_, fun hnil => ?_⟩
  · unfold World.sweepResults at hsilent
    rw [hlist] at hsilent
    rw [(sweep_silent_iff _ _ _ _ _).mpr hsilent m hm] at hsome
    cases hsome
  · rw [← hranking, hnil] at hr
    cases hr

/-! ### What the look at the server in use hears -/

/-- The time is that of the fastest of the answers. -/
def IsFastest (results : List ProbeResult) (ms : F64) : Prop :=
  ∃ r ∈ results, ∃ d, r.usableTime = some d ∧ ms = d.asSecsF64 * 1000 ∧
    ∀ r' ∈ results, ∀ d', r'.usableTime = some d' → d ≤ d'

/-- A server is measured by the fastest of its answers. -/
theorem sweep_single (p : Prober) (net : Network) (server : Server) (entries : List Nat)
    (port : UInt16) : ∃ m, (p.sweep net [server] entries port).head? = some m ∧
      (m.rtt = none → Unanswered (p.probeMany net (sweepEndpoints [server] entries port))) ∧
      ∀ d, m.rtt = some d →
        IsFastest (p.probeMany net (sweepEndpoints [server] entries port)) (d.asSecsF64 * 1000) := by
  set results := p.probeMany net (sweepEndpoints [server] entries port) with hresults
  have hown : ∀ r ∈ results, ∃ entry,
      (entry, r) ∈ ownResults [server] entries port results 0 server := by
    intro r hr
    obtain ⟨i, server', entry, hserver, hmem⟩ := mem_ownResults hr
    obtain ⟨hlt, rfl⟩ := List.getElem?_eq_some_iff.mp hserver
    obtain rfl : i = 0 := Nat.lt_one_iff.mp hlt
    exact ⟨entry, hmem⟩
  have hfirst := regroup_getElem? [server] entries port results (i := 0) rfl
  have hfastest := server.measured_fastest entries port
    (ownResults [server] entries port results 0 server)
  refine ⟨_, by rw [List.head?_eq_getElem?]; exact hfirst, fun hnone r hr => ?_, fun d hd => ?_⟩
  · obtain ⟨entry, hmem⟩ := hown r hr
    exact hfastest.silent.mp hnone _ hmem
  · obtain ⟨x, hx, -⟩ := hfastest.first d hd
    refine ⟨x.2, ownResults_mem hx.mem, d, hx.key_eq, rfl, fun r' hr' d' hd' => ?_⟩
    obtain ⟨entry, hmem'⟩ := hown r' hr'
    exact hx.le hmem' hd'

/-- Measuring the server in use gives the fastest answer of its endpoints, if there is one. -/
theorem probeCurrent_look {name : String} {rtt : Option F64} {w v : World P}
    (h : probeCurrent name w = (.ok rtt, v)) :
    (rtt = none → Unanswered (w.lookResults name)) ∧
      ∀ ms, rtt = some ms → IsFastest (w.lookResults name) ms := by
  have hnothing : Unanswered [] := fun r hr => absurd hr List.not_mem_nil
  rw [probeCurrent, self, read_bind, attempt_bind] at h
  unfold World.lookResults
  rcases hlist : serverList w with ⟨e | list, u⟩
  · rw [hlist] at h
    cases h
    exact ⟨fun _ => hnothing, fun ms hms => (by cases hms)⟩
  · rw [hlist] at h
    have hfetches := serverList_fetches.run hlist
    dsimp only at h ⊢
    cases hget : list.get name with
    | none =>
      rw [hget] at h
      cases h
      exact ⟨fun _ => hnothing, fun ms hms => (by cases hms)⟩
    | some server =>
      rw [hget] at h
      obtain ⟨net, x, hnet, h⟩ := bind_ok h
      obtain rfl : u.outside.network 0 = net := by cases hnet; rfl
      obtain ⟨m, hhead, hnone, hsome⟩ := sweep_single w.state.currentProber (w.outside.network 0)
        server wgEntries w.state.config.provider.airvpn.port
      rw [hfetches.network, hhead] at h
      cases hrtt : m.rtt with
      | none =>
        rw [Option.bind_some, hrtt] at h
        cases h
        exact ⟨fun _ => hnone hrtt, fun ms hms => (by cases hms)⟩
      | some d =>
        rw [Option.bind_some, hrtt] at h
        cases h
        exact ⟨fun hms => (by cases hms), fun ms hms => (by cases hms; exact hsome d hrtt)⟩

/-! ### What is said of the silence -/

/-- The server in use answers, none of its answers is within the limit, and nothing answers the sweep
that follows. -/
structure World.Overlooks (w : World P) (current : Connection) : Prop where
  heard : ¬Unanswered (w.lookResults current.server)
  slow : ∀ r ∈ w.lookResults current.server, ∀ d, r.usableTime = some d →
    ¬d.asSecsF64 * 1000 ≤ F64.ofNat w.state.config.autotune.maxLatencyMs
  silent : Unanswered ((after (probeCurrent current.server) w).sweepResults none)

/-- A pass says that nothing was reachable of one in which no probe was answered, unless it overlooks
the answer of the server in use. -/
theorem tune_silence_iff {current : Connection} {w w' : World P} {report : TuneReport}
    (hcurrent : w.state.current = some current) (hrun : tune w = (.ok report, w')) :
    (report.nothingReachable = true → Unanswered (w.lookResults current.server) ∧
      Unanswered ((after (probeCurrent current.server) w).sweepResults none)) ↔
      ¬w.Overlooks current := by
  obtain ⟨rtt, hprobe⟩ := probeCurrent_returns current.server w
  obtain ⟨hnone, hsome⟩ := probeCurrent_look hprobe
  have hconfig := ((probeCurrent_samples current.server).run hprobe).config
  have hfast : ∀ ms, rtt = some ms →
      ((after (probeCurrent current.server) w).state.isFast rtt = true ↔
        ms ≤ F64.ofNat w.state.config.autotune.maxLatencyMs) := by
    rintro ms rfl
    rw [State.isFast, hconfig, Option.any_some, decide_eq_true_iff]
  rcases tune_passed hcurrent hprobe hrun with ⟨hisFast, hanswered, -⟩ |
    ⟨probed, u, hslow, hsweep, hsilent, -⟩ | ⟨ranked, u, x, a, -, hsweep, hassess, hsilence, -⟩
  · refine iff_of_true (fun h => by rw [hanswered] at h; cases h) fun hoverlooks => ?_
    obtain ⟨ms, rfl, -⟩ := (Option.any_eq_true _ _).mp hisFast
    obtain ⟨r, hr, d, hd, rfl, -⟩ := hsome ms rfl
    exact hoverlooks.slow r hr d hd ((hfast _ rfl).mp hisFast)
  · have hquiet := sweep_unanswered hsweep
    cases rtt with
    | none =>
      exact iff_of_true (fun _ => ⟨hnone rfl, hquiet⟩) fun hoverlooks => hoverlooks.heard (hnone rfl)
    | some ms =>
      obtain ⟨r, hr, d, hd, rfl, hleast⟩ := hsome ms rfl
      have hheard : ¬Unanswered (w.lookResults current.server) := by
        intro h
        rw [h r hr] at hd
        cases hd
      have hover : ¬d.asSecsF64 * 1000 ≤ F64.ofNat w.state.config.autotune.maxLatencyMs := by
        rw [← hfast _ rfl, hslow]
        exact Bool.false_ne_true
      refine iff_of_false (fun h => hheard (h hsilent).1) (not_not.mpr ⟨hheard, ?_, hquiet⟩)
      intro r' hr' d' hd' hle
      have hmillis := millis_le.mpr (hleast r' hr' d' hd')
      exact hover (F64.finite_le.mpr (hmillis.trans (F64.finite_le.mp hle)))
  · obtain ⟨hheard, hranked⟩ := sweep_answered hsweep
    refine iff_of_true (fun h => ?_) fun hoverlooks => hheard hoverlooks.silent
    rw [hsilence] at h
    obtain ⟨probed, declinedFrom, hassess', -⟩ := tuneDegraded_swept current rtt hsweep
    cases hassess.symm.trans hassess'
    exact absurd (List.head?_eq_none_iff.mp (Tuner.best_of_isSilence h)) hranked

/-- The connected endpoint is one of those that the sweep leaves out, and would have answered. -/
def World.SkipsAnswering (w : World P) (country : Option String) (list : ServerList) : Prop :=
  ∃ c i, w.state.current = some c ∧ (w.state.sweepTargets country list)[i]? = some c.endpoint ∧
    w.state.prober.WouldAnswer (w.outside.network 0) i c.endpoint

theorem State.prober_excluded {s : State P} {endpoint : SocketAddr}
    (h : s.prober.excluded = some endpoint) : ∃ c, s.current = some c ∧ c.endpoint = endpoint := by
  unfold State.prober at h
  cases hcurrent : s.current with
  | none => rw [hcurrent] at h; cases h
  | some c =>
    rw [hcurrent] at h
    exact ⟨c, rfl, Option.some.inj h⟩

theorem Prober.wouldAnswer_probe {p : Prober} {net : Network} {i : Nat} {endpoint : SocketAddr}
    (hexcluded : p.excluded ≠ some endpoint) : p.WouldAnswer net i endpoint ↔
      (p.probe (net p i endpoint) endpoint).usableTime.isSome = true := by
  unfold WouldAnswer probe
  rw [if_neg hexcluded, if_neg (fun h => by cases h)]

/-- A sweep that says that no server answered is right about every endpoint, unless the connected one
is among those it leaves out and would have answered. -/
theorem sweep_silence_iff {country : Option String} {e : Error} {list : ServerList}
    {w w' : World P} (h : sweep country w = (.error e, w')) (hlist : (serverList w).1 = .ok list) :
    (∀ (i : Nat) (endpoint : SocketAddr), (w.state.sweepTargets country list)[i]? = some endpoint →
        ¬w.state.prober.WouldAnswer (w.outside.network 0) i endpoint) ↔
      ¬w.SkipsAnswering country list := by
  have hsilent := sweep_unanswered h
  unfold World.sweepResults at hsilent
  rw [hlist] at hsilent
  constructor
  · rintro hnone ⟨c, i, -, htarget, hwould⟩
    exact hnone i c.endpoint htarget hwould
  · intro hnot i endpoint htarget hwould
    by_cases hexcluded : w.state.prober.excluded = some endpoint
    · obtain ⟨c, hcurrent, rfl⟩ := State.prober_excluded hexcluded
      exact hnot ⟨c, i, hcurrent, htarget, hwould⟩
    · rw [Prober.wouldAnswer_probe hexcluded] at hwould
      have hmem : w.state.prober.probe (w.outside.network 0 w.state.prober i endpoint) endpoint ∈
          w.state.prober.probeMany (w.outside.network 0) (w.state.sweepTargets country list) := by
        refine List.mem_of_getElem? (i := i) ?_
        rw [Prober.probeMany, List.getElem?_mapIdx, htarget]
        rfl
      rw [hsilent _ hmem] at hwould
      cases hwould

/-- What the daemon says of a silence is true of a pass that does not overlook the server in use, and
of a sweep that does not leave out an endpoint that would have answered, and false otherwise. -/
theorem silence_iff (w : World P) :
    (∀ current report w', w.state.current = some current → autotune w = (.ok report, w') →
      ((report.nothingReachable = true → Unanswered (w.noted.lookResults current.server) ∧
        Unanswered ((after (probeCurrent current.server) w.noted).sweepResults none)) ↔
          ¬w.noted.Overlooks current)) ∧
    ∀ country probed w', sweep country w = (.error (.allUnreachable probed), w') →
      ∃ list, (serverList w).1 = .ok list ∧ ((∀ (i : Nat) (endpoint : SocketAddr),
        (w.state.sweepTargets country list)[i]? = some endpoint →
          ¬w.state.prober.WouldAnswer (w.outside.network 0) i endpoint) ↔
            ¬w.SkipsAnswering country list) := by
  refine ⟨fun current report w' hcurrent hrun => tune_silence_iff (w := w.noted) hcurrent hrun,
    fun country probed w' hsweep => ?_⟩
  rcases hlist : serverList w with ⟨e | list, v⟩
  · have hstop := hsweep.symm.trans (bind_run_ok (x := self) (s := w) rfl)
    rw [bind_run_error hlist] at hstop
    cases hstop
    obtain ⟨reason, h⟩ := serverList_error hlist
    cases h
  · exact ⟨list, rfl, sweep_silence_iff hsweep (by rw [hlist])⟩

namespace Sample

/-- One server of one entry, over the latency limit. -/
def loneStart : World (.linux log) :=
  world config linuxMachine (outside config ⟨[server "Achernar" "nl" 0x0a000001 none]⟩
    (fun _ => some (.ofMillis 100)) linuxFaults)

def lone : World (.linux log) := step loneStart (.connect (some "Achernar") none)

theorem lone_reachable : Reachable lone :=
  ⟨loneStart, world_starts config_valid rfl _ _, .next .here trivial⟩

theorem lone_current : ∃ current, lone.state.current = some current ∧ current.server = "Achernar" :=
  Option.map_eq_some_iff.mp (show lone.state.current.map Connection.server = some "Achernar" by
    decide +kernel)

end Sample

theorem lone_pass : ∃ current report w', Sample.lone.state.current = some current ∧
    autotune Sample.lone = (.ok report, w') ∧
      ((report.nothingReachable = true →
        Unanswered (Sample.lone.noted.lookResults current.server) ∧
        Unanswered ((after (probeCurrent current.server) Sample.lone.noted).sweepResults none)) ↔
          ¬Sample.lone.noted.Overlooks current) := by
  obtain ⟨current, hcurrent, -⟩ := Sample.lone_current
  obtain ⟨report, hrun⟩ := run_ok (x := autotune) (s := Sample.lone) (by decide +kernel)
  exact ⟨current, report, _, hcurrent, hrun,
    (silence_iff Sample.lone).1 current report _ hcurrent hrun⟩

/-- A pass says that nothing was reachable right after the server in use answered, and a sweep says it
of the endpoint that it left out. -/
theorem lone_unheard :
    (¬∀ (w w' : World (.linux Sample.log)) (current : Connection) (report : TuneReport),
      Reachable w → w.state.current = some current → autotune w = (.ok report, w') →
      report.nothingReachable = true → Unanswered (w.noted.lookResults current.server) ∧
        Unanswered ((after (probeCurrent current.server) w.noted).sweepResults none)) ∧
    ¬∀ (w w' : World (.linux Sample.log)) (country : Option String) (probed : Nat)
      (list : ServerList) (i : Nat) (endpoint : SocketAddr), Reachable w →
      sweep country w = (.error (.allUnreachable probed), w') → (serverList w).1 = .ok list →
      (w.state.sweepTargets country list)[i]? = some endpoint →
        ¬w.state.prober.WouldAnswer (w.outside.network 0) i endpoint := by
  constructor
  · intro hsound
    obtain ⟨current, hcurrent, hname⟩ := Sample.lone_current
    obtain ⟨report, hrun⟩ := run_ok (x := autotune) (s := Sample.lone) (by decide +kernel)
    have hsilent : (autotune Sample.lone).1.toOption.map TuneReport.nothingReachable = some true := by
      decide +kernel
    rw [hrun] at hsilent
    have hheard : (Sample.lone.noted.lookResults "Achernar").all (·.usableTime.isNone) = false := by
      decide +kernel
    have hunheard := (hsound _ _ _ _ Sample.lone_reachable hcurrent hrun
      (Option.some.inj hsilent)).1
    rw [hname] at hunheard
    rw [List.all_eq_true.mpr fun r hr => by rw [hunheard r hr]; rfl] at hheard
    cases hheard
  · intro hsound
    obtain ⟨list, hlist⟩ := run_ok (x := serverList) (s := Sample.lone) (by decide +kernel)
    have htarget : ((serverList Sample.lone).1.toOption.bind fun list =>
        (Sample.lone.state.sweepTargets none list)[0]?) = some ⟨.v4 0x0a000001, 1637⟩ := by
      decide +kernel
    rw [hlist] at htarget
    refine hsound _ (after (sweep none) Sample.lone) none 1 list 0 ⟨.v4 0x0a000001, 1637⟩
      Sample.lone_reachable ?_ (by rw [hlist]) htarget ?_
    · have hfails : (match (sweep none Sample.lone).1 with
          | .error e => some e
          | .ok _ => none) = some (.allUnreachable 1) := by decide +kernel
      cases hsweep : (sweep none Sample.lone).1 with
      | error e =>
        rw [hsweep] at hfails
        rw [← Option.some.inj hfails, ← hsweep]
        rfl
      | ok ranking => rw [hsweep] at hfails; cases hfails
    · unfold Prober.WouldAnswer
      decide +kernel

end Vpnmgr
