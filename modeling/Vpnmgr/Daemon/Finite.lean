import Vpnmgr.Daemon.Scores
import Vpnmgr.Daemon.Steering
import Vpnmgr.Ipc.Message

/-! The numbers that the daemon keeps and reports are finite, where those of its settings are: every
operation keeps them so, and returns no others. -/

namespace Vpnmgr

open Ieee Stateful Stateful.Action

variable {P : Platform} {α : Type}

/-! ### What is finite -/

/-- The rate to reach is a number, and so is the sum of the weights. -/
structure Config.Finite (c : Config) : Prop where
  minMbps : c.autotune.minMbps.isFinite = true
  weights : (c.autotune.weights.rtt + c.autotune.weights.load +
    c.autotune.weights.headroom).isFinite = true

/-- `Throughput::from_parts`: the rate of a transfer. -/
def SpeedSample.ofParts (bytes : Nat) (elapsed : Duration) (truncated : Bool) : SpeedSample where
  mbps :=
    let seconds := elapsed.asSecsF64
    if 0 < seconds then F64.ofNat bytes * 8 / seconds / 1000000 else 0
  bytes
  elapsedMs := elapsed.asMillis
  truncated

/-- What a download ends with is the rate of some transfer. -/
def Download.Measured (d : Download) : Prop :=
  ∀ request sample, d request = .ok sample →
    ∃ bytes elapsed truncated, sample = .ofParts bytes elapsed truncated

/-- Every download to come is of some transfer. -/
structure Outside.Measured (o : Outside P) : Prop where
  download : ∀ n, (o.download n).Measured
  trial : ∀ n, (o.trial n).download.Measured

/-- The numbers of every file that may still be loaded are finite. -/
def Outside.Finite (o : Outside P) : Prop :=
  ∀ n config, Config.load (o.disk n) = .ok config → config.Finite

structure State.Finite (s : State P) : Prop where
  checked : s.config.validate = .ok ()
  config : s.config.Finite
  seen : ∀ name m, s.throughputSeen name = some m → m.1.isFinite = true
  direct : ∀ m, s.directMbps = some m → m.1.isFinite = true
  ranking : ∀ r ∈ s.lastRanking, r.Finite
  sweep : ∀ m, s.lastSweep = some m → m.1.Finite
  pending : ∀ p, s.pending = some p → p.1.Finite

structure World.Finite (w : World P) : Prop where
  state : w.state.Finite
  measured : w.outside.Measured
  settings : w.outside.Finite

theorem F64.isFinite_add {a b : F64} (h : (a + b).isFinite = true) :
    a.isFinite = true ∧ b.isFinite = true := by
  cases a <;> cases b <;> first | exact ⟨rfl, rfl⟩ | cases h

theorem Config.Finite.weights_finite {c : Config} (h : c.Finite) : c.autotune.weights.Finite := by
  obtain ⟨hsum, hheadroom⟩ := F64.isFinite_add h.weights
  obtain ⟨hrtt, hload⟩ := F64.isFinite_add hsum
  obtain ⟨a, ha⟩ := F64.isFinite_iff.mp hrtt
  obtain ⟨b, hb⟩ := F64.isFinite_iff.mp hload
  obtain ⟨d, hd⟩ := F64.isFinite_iff.mp hheadroom
  exact ⟨a, b, d, by rw [← ha, ← hb, ← hd]⟩

theorem SpeedSample.ofParts_finite (bytes : Nat) (elapsed : Duration) (truncated : Bool) :
    (ofParts bytes elapsed truncated).Finite := by
  unfold SpeedSample.Finite ofParts Duration.asSecsF64
  dsimp only
  split
  · next hpos =>
    have hpos : (0 : ℚ) < elapsed / 1000000000 := F64.finite_lt.mp hpos
    have hbits : F64.ofNat bytes * 8 = .finite (bytes * 8) := rfl
    have hmega : (1000000 : F64) = .finite 1000000 := rfl
    rw [hbits, F64.finite_div _ hpos.ne', hmega, F64.finite_div _ (by norm_num)]
    rfl
  · rfl

theorem Download.Measured.finite {d : Download} (h : d.Measured) {request : ThroughputRequest}
    {sample : SpeedSample} (hd : d request = .ok sample) : sample.Finite := by
  obtain ⟨bytes, elapsed, truncated, rfl⟩ := h request sample hd
  exact SpeedSample.ofParts_finite bytes elapsed truncated

/-- A score of the daemon's own ranking is a number. -/
theorem State.Finite.score {s : State P} (h : s.Finite) {measured : List Measured} {r : Scored}
    (hr : r ∈ rank P.log measured s.scoring) : r.score.isFinite = true := by
  obtain ⟨direct, hdirect⟩ : ∃ direct : Option ℚ, s.direct = direct.map F64.finite := by
    cases hm : s.directMbps with
    | none => exact ⟨none, by rw [State.direct, hm]; rfl⟩
    | some m =>
      obtain ⟨q, hq⟩ := F64.isFinite_iff.mp (h.direct m hm)
      exact ⟨some q, by rw [State.direct, hm]; exact congrArg some hq⟩
  rw [State.scoring, hdirect] at hr
  obtain ⟨q, hq, -⟩ := rank_inUnit h.checked P.log direct measured h.config.weights_finite hr
  exact F64.isFinite_iff.mpr ⟨q, hq⟩

theorem State.Finite.toRanked {s : State P} (h : s.Finite) {r : Scored}
    (hr : r.score.isFinite = true) (t : Instant) : (s.toRanked t r).Finite where
  rttMs := rfl
  score := hr
  mbps x hx := by
    obtain ⟨m, hm, rfl⟩ := Option.map_eq_some_iff.mp hx
    exact h.seen _ m hm

/-! ### The parts of the operations -/

/-- Whatever the operation does, the numbers stay finite. -/
abbrev StaysFinite (x : Daemon P α) : Prop := Yields World.Finite (fun _ => True) x

theorem State.Finite.congr {s s' : State P} (h : s.Finite) (hconfig : s'.config = s.config)
    (hseen : s'.throughputSeen = s.throughputSeen) (hdirect : s'.directMbps = s.directMbps)
    (hranking : s'.lastRanking = s.lastRanking) (hsweep : s'.lastSweep = s.lastSweep)
    (hpending : s'.pending = s.pending ∨ s'.pending = none) : s'.Finite where
  checked := by rw [hconfig]; exact h.checked
  config := by rw [hconfig]; exact h.config
  seen := by rw [hseen]; exact h.seen
  direct := by rw [hdirect]; exact h.direct
  ranking := by rw [hranking]; exact h.ranking
  sweep := by rw [hsweep]; exact h.sweep
  pending := by
    rcases hpending with hpending | hpending
    · rw [hpending]
      exact h.pending
    · rw [hpending]
      exact fun _ h => (by cases h)

theorem Outside.Measured.congr {o o' : Outside P} (h : o.Measured)
    (hdownload : o'.download = o.download) (htrial : o'.trial = o.trial) : o'.Measured :=
  ⟨by rw [hdownload]; exact h.download, by rw [htrial]; exact h.trial⟩

theorem World.Finite.congr {w w' : World P} (h : w.Finite) (hstate : w'.state = w.state)
    (hdownload : w'.outside.download = w.outside.download)
    (htrial : w'.outside.trial = w.outside.trial) (hdisk : w'.outside.disk = w.outside.disk) :
    w'.Finite where
  state := by rw [hstate]; exact h.state
  measured := h.measured.congr hdownload htrial
  settings n config := by rw [hdisk]; exact h.settings n config

theorem finite_of_steers {x : Daemon P α} (h : Within Steers x) : StaysFinite x := by
  refine Keeps.yields fun w hw => ?_
  obtain ⟨hstate, houtside, -, -⟩ := h w
  refine ⟨?_, ?_, ?_⟩
  · rw [hstate]
    obtain ⟨hchecked, hconfig, hseen, hdirect, hranking, hsweep, hpending⟩ := hw.state
    exact ⟨hchecked, hconfig, hseen, hdirect, hranking, hsweep, hpending⟩
  · rw [houtside]
    exact hw.measured.congr rfl rfl
  · rw [houtside]
    exact hw.settings

theorem modify_finite {f : State P → State P} (h : ∀ s, s.Finite → (f s).Finite) :
    StaysFinite (modify f : Daemon P Unit) :=
  Keeps.yields fun w hw => ⟨h w.state hw.state, hw.measured, hw.settings⟩

theorem self_finite : Yields World.Finite State.Finite (self : Daemon P (State P)) :=
  Yields.read fun _ hw => hw.state

theorem now_finite : StaysFinite (now : Daemon P Instant) :=
  Keeps.yields fun _ hw => hw.congr rfl rfl rfl rfl

theorem elapsed_finite (at_ : Instant) : StaysFinite (elapsed at_ : Daemon P Duration) :=
  Yields.bind now_finite fun _ _ => Yields.pure trivial

theorem nextFetch_finite : StaysFinite (nextFetch : Daemon P Fetch) :=
  Keeps.yields fun _ hw => hw.congr rfl rfl rfl rfl

theorem nextNetwork_finite : StaysFinite (nextNetwork : Daemon P Network) :=
  Keeps.yields fun _ hw => hw.congr rfl rfl rfl rfl

theorem nextDownload_finite :
    Yields World.Finite Download.Measured (nextDownload : Daemon P Download) := fun _ hw =>
  ⟨⟨hw.state, ⟨fun n => hw.measured.download (n + 1), hw.measured.trial⟩, hw.settings⟩,
    fun _ hd => (by cases hd; exact hw.measured.download 0)⟩

theorem nextTrial_finite :
    Yields World.Finite (fun t => t.download.Measured) (nextTrial : Daemon P Trial) := fun _ hw =>
  ⟨⟨hw.state, ⟨hw.measured.download, fun n => hw.measured.trial (n + 1)⟩, hw.settings⟩,
    fun _ ht => (by cases ht; exact hw.measured.trial 0)⟩

theorem nextDisk_finite : Yields World.Finite
    (fun disk => ∀ config, Config.load disk = .ok config → config.Finite)
    (nextDisk : Daemon P Disk) := fun _ hw =>
  ⟨⟨hw.state, hw.measured.congr rfl rfl, fun n => hw.settings (n + 1)⟩,
    fun _ hd => (by cases hd; exact hw.settings 0)⟩

theorem serverList_finite : StaysFinite (serverList : Daemon P ServerList) := by
  have hcached : StaysFinite (cachedList : Daemon P ServerList) := by
    refine Yields.bind self_finite fun s _ => ?_
    cases s.servers with
    | none => exact Yields.fail _
    | some => exact Yields.pure trivial
  have hstale (servers : Option (ServerList × Instant)) :
      StaysFinite (isStale servers : Daemon P Bool) := by
    cases servers with
    | none => exact Yields.pure trivial
    | some => exact Yields.bind (elapsed_finite _) fun _ _ => Yields.pure trivial
  have hrefresh : StaysFinite (refresh : Daemon P Unit) := by
    refine Yields.bind nextFetch_finite fun fetch _ => ?_
    cases fetch with
    | noClient => exact Yields.fail _
    | fetched list =>
      refine Yields.bind now_finite fun t _ => modify_finite fun s hs => ?_
      exact hs.congr rfl rfl rfl rfl rfl (.inl rfl)
    | failed =>
      refine Yields.bind self_finite fun s _ => ?_
      cases s.servers with
      | none => exact Yields.fail _
      | some => exact Yields.pure trivial
  refine Yields.bind (Q := fun _ => True) (Yields.bind self_finite fun s _ => ?_) fun _ _ => hcached
  refine Yields.bind (hstale _) fun stale _ => ?_
  cases stale with
  | false => exact Yields.pure trivial
  | true => exact hrefresh

/-! ### Measuring -/

/-- A sweep returns a ranking of finite numbers. -/
theorem sweep_finite (country : Option String) :
    Yields World.Finite (fun ranking => ∀ r ∈ ranking, r.Finite)
      (sweep country : Daemon P (List RankedServer)) := by
  refine Yields.bind self_finite fun before hbefore => ?_
  refine Yields.bind serverList_finite fun list _ => Yields.ite (Yields.fail _) ?_
  refine Yields.bind now_finite fun started _ => ?_
  refine Yields.bind nextNetwork_finite fun net _ => ?_
  refine Yields.bind (elapsed_finite _) fun duration _ => ?_
  refine Yields.bind now_finite fun t _ => ?_
  have hranking (measured : List Measured) :
      ∀ r ∈ (rank P.log measured before.scoring).map (before.toRanked t), r.Finite := by
    intro r hr
    obtain ⟨scored, hscored, rfl⟩ := List.mem_map.mp hr
    exact hbefore.toRanked (hbefore.score hscored) t
  refine Yields.bind (modify_finite fun s hs => ?_) fun _ _ => ?_
  · refine ⟨hs.checked, hs.config, hs.seen, hs.direct, hs.ranking, fun m hm r hr => ?_, hs.pending⟩
    cases hm
    exact hranking _ r (List.mem_of_head? hr)
  refine Yields.ite (Yields.fail _) (Yields.bind (modify_finite fun s hs => ?_) fun _ _ => ?_)
  · exact ⟨hs.checked, hs.config, hs.seen, hs.direct, hranking _, hs.sweep, hs.pending⟩
  · exact Yields.pure (hranking _)

theorem probeNamed_finite (name : String) :
    StaysFinite (probeNamed name : Daemon P RankedServer) := by
  refine Yields.bind self_finite fun before _ => Yields.bind serverList_finite fun list _ => ?_
  cases list.get name with
  | none => exact Yields.fail _
  | some server =>
    refine Yields.bind nextNetwork_finite fun net _ => ?_
    dsimp only
    split
    · exact Yields.fail _
    · exact Yields.bind now_finite fun _ _ => Yields.pure trivial

theorem probeCurrent_finite (name : String) :
    StaysFinite (probeCurrent name : Daemon P (Option F64)) := by
  refine Yields.bind self_finite fun before _ => ?_
  refine Yields.bind (Yields.attempt serverList_finite) fun list _ => ?_
  cases list with
  | error => exact Yields.pure trivial
  | ok list =>
    dsimp only
    cases list.get name with
    | none => exact Yields.pure trivial
    | some server => exact Yields.bind nextNetwork_finite fun _ _ => Yields.pure trivial

theorem measure_finite (request : ThroughputRequest) :
    Yields World.Finite SpeedSample.Finite (measure request : Daemon P SpeedSample) := by
  refine Yields.bind nextDownload_finite fun download hdownload => Yields.lift fun sample h => ?_
  cases hd : download request with
  | error e =>
    rw [hd] at h
    cases h
  | ok s =>
    rw [hd] at h
    cases h
    exact hdownload.finite hd

theorem recordThroughput_finite (server : String) {mbps : F64} (h : mbps.isFinite = true) :
    StaysFinite (recordThroughput server mbps : Daemon P Unit) := by
  refine Yields.bind now_finite fun t _ => modify_finite fun s hs => ?_
  refine ⟨hs.checked, hs.config, fun name m hm => ?_, hs.direct, fun r hr => ?_, hs.sweep, hs.pending⟩
  · dsimp only [State.withThroughput] at hm
    split at hm
    · cases hm
      exact h
    · exact hs.seen name m hm
  · obtain ⟨r, hmem, rfl⟩ := List.mem_map.mp hr
    obtain ⟨hrtt, hscore, hmbps⟩ := hs.ranking r hmem
    split
    · exact ⟨hrtt, hscore, fun x hx => (by cases hx; exact h)⟩
    · exact ⟨hrtt, hscore, hmbps⟩

theorem recordDirect_finite {mbps : F64} (h : mbps.isFinite = true) :
    StaysFinite (recordDirect mbps : Daemon P Unit) := by
  refine Yields.bind now_finite fun t _ => modify_finite fun s hs => ?_
  exact ⟨hs.checked, hs.config, hs.seen, fun m hm => (by cases hm; exact h), hs.ranking, hs.sweep,
    hs.pending⟩

theorem calibrate_finite (shouldMeasure : Bool) :
    StaysFinite (calibrate shouldMeasure : Daemon P Unit) := by
  refine Yields.ite (Yields.bind self_finite fun s _ => ?_) (Yields.pure trivial)
  refine Yields.bind (Yields.attempt (measure_finite _)) fun sample hsample => ?_
  cases sample with
  | error => exact Yields.pure trivial
  | ok sample => exact recordDirect_finite (hsample sample rfl)

/-! ### Connecting -/

theorem tryOut_finite (candidate : RankedServer) {trial : Trial} (h : trial.download.Measured)
    (request : ThroughputRequest) :
    StaysFinite (tryOut candidate trial request : Daemon P (Option F64)) := by
  have hwait : StaysFinite (waitUntilCarrying trial : Daemon P Bool) :=
    Yields.bind self_finite fun _ _ => Yields.pure trivial
  refine Yields.bind hwait fun carries _ => Yields.ite ?_ (Yields.pure trivial)
  cases hd : trial.download request with
  | error e => exact Yields.pure trivial
  | ok sample =>
    exact Yields.bind (recordThroughput_finite _ (h.finite hd)) fun _ _ => Yields.pure trivial

theorem tryCandidates_finite (target : F64) (request : ThroughputRequest) (first : Bool)
    (best : Option (RankedServer × F64)) (candidates : List RankedServer) :
    StaysFinite (tryCandidates target request first best candidates : Daemon P Tried) := by
  induction candidates generalizing first best with
  | nil => exact Yields.pure trivial
  | cons candidate rest ih =>
    refine Yields.bind nextTrial_finite fun trial htrial => ?_
    refine Yields.bind (finite_of_steers (pointAt_steers _ _)) fun _ _ => ?_
    refine Yields.bind (tryOut_finite _ htrial _) fun rate _ => ?_
    cases rate with
    | none => exact ih _ _
    | some mbps => exact Yields.ite (Yields.pure trivial) (ih _ _)

theorem returnTo_finite (server : RankedServer) : StaysFinite (returnTo server : Daemon P Unit) :=
  Yields.bind self_finite fun _ _ =>
    Yields.ite (finite_of_steers (moveTo_steers _)) (Yields.pure trivial)

theorem ensureUp_finite (fallback : RankedServer) :
    StaysFinite (ensureUp fallback : Daemon P Unit) :=
  Yields.bind self_finite fun _ _ =>
    Yields.ite (finite_of_steers (establish_steers _)) (Yields.pure trivial)

theorem settleFor_finite (shortlist : List RankedServer) (best : Option (RankedServer × F64)) :
    StaysFinite (settleFor shortlist best : Daemon P RankedServer) := by
  cases best with
  | some best => exact Yields.bind (returnTo_finite _) fun _ _ => Yields.pure trivial
  | none =>
    cases shortlist with
    | nil => exact Yields.fail _
    | cons fallback _ => exact Yields.bind (ensureUp_finite _) fun _ _ => Yields.pure trivial

theorem connectBest_finite (measureFirst : Option Bool) :
    StaysFinite (connectBest measureFirst : Daemon P RankedServer) := by
  have hrank : StaysFinite (rankForConnect measureFirst : Daemon P (List RankedServer)) := by
    refine Yields.bind self_finite fun s _ => Yields.bind (calibrate_finite _) fun _ _ => ?_
    exact (sweep_finite none).keeps.yields
  refine Yields.bind hrank fun ranked _ => Yields.bind self_finite fun s _ => ?_
  cases ranked with
  | nil => exact Yields.fail _
  | cons first rest =>
    refine Yields.ite ?_ ?_
    · exact Yields.bind (finite_of_steers (establish_steers _)) fun _ _ => Yields.pure trivial
    · refine Yields.bind (tryCandidates_finite _ _ _ _ _) fun tried _ => ?_
      cases tried with
      | settled chosen => exact Yields.pure trivial
      | best best => exact settleFor_finite _ _

theorem connect_finite (server : Option String) (measureFirst : Option Bool) :
    StaysFinite (connect server measureFirst : Daemon P RankedServer) := by
  refine Yields.bind self_finite fun s _ => ?_
  cases s.current with
  | some current => exact Yields.fail _
  | none =>
    cases server with
    | none => exact connectBest_finite _
    | some name =>
      refine Yields.bind (probeNamed_finite _) fun chosen _ => ?_
      exact Yields.bind (finite_of_steers (establish_steers _)) fun _ _ => Yields.pure trivial

theorem switch_finite (name : String) : StaysFinite (switch name : Daemon P RankedServer) := by
  refine Yields.bind self_finite fun s _ => Yields.ite (Yields.fail _) ?_
  refine Yields.bind (probeNamed_finite _) fun chosen _ => ?_
  refine Yields.bind (finite_of_steers (retarget_steers _)) fun _ _ => ?_
  refine Yields.bind (modify_finite fun s hs => ?_) fun _ _ => Yields.pure trivial
  exact hs.congr rfl rfl rfl rfl rfl (.inl rfl)

theorem disconnect_finite : StaysFinite (disconnect : Daemon P Unit) :=
  finite_of_steers disconnect_steers

/-! ### Reporting -/

theorem speedtest_finite :
    Yields World.Finite SpeedReport.Finite (speedtest : Daemon P SpeedReport) := by
  refine Yields.bind self_finite fun s hs => ?_
  refine Yields.bind (measure_finite _) fun sample hsample => ?_
  have hreport : ∀ current : Option Connection, SpeedReport.Finite {
      tunnelled := if current.isSome then some sample else none
      direct := if current.isNone then some sample else none
      server := current.map Connection.server
      minMbps := s.config.autotune.minMbps
      meetsTarget := decide (s.config.autotune.minMbps ≤ sample.mbps)
      verdict := speedVerdict (current.map Connection.server) sample.mbps
        s.config.autotune.minMbps } := by
    intro current
    cases current with
    | none => exact ⟨fun _ h => (by cases h), fun _ h => (by cases h; exact hsample), hs.config.minMbps⟩
    | some current => exact ⟨fun _ h => (by cases h; exact hsample), fun _ h => (by cases h), hs.config.minMbps⟩
  specialize hreport s.current
  cases hcurrent : s.current with
  | none =>
    rw [hcurrent] at hreport
    exact Yields.bind (recordDirect_finite hsample) fun _ _ => Yields.pure hreport
  | some current =>
    rw [hcurrent] at hreport
    exact Yields.bind (recordThroughput_finite _ hsample) fun _ _ => Yields.pure hreport

theorem baseline_finite :
    Yields World.Finite SpeedReport.Finite (baseline : Daemon P SpeedReport) := by
  refine Yields.bind self_finite fun s hs => ?_
  cases s.current with
  | none => exact speedtest_finite
  | some current =>
    refine Yields.bind (measure_finite _) fun tunnelled htunnelled => ?_
    refine Yields.bind (recordThroughput_finite _ htunnelled) fun _ _ => ?_
    refine Yields.bind disconnect_finite fun _ _ => ?_
    refine Yields.bind (Yields.attempt (measure_finite _)) fun direct hdirect => ?_
    refine Yields.bind (Yields.attempt (connect_finite _ _)) fun restored hrestored => ?_
    refine Yields.bind (Yields.lift hdirect) fun direct hdirect => ?_
    refine Yields.bind (Yields.lift hrestored) fun _ _ => ?_
    refine Yields.bind (recordDirect_finite hdirect) fun _ _ => Yields.pure ?_
    exact ⟨fun _ h => (by cases h; exact htunnelled), fun _ h => (by cases h; exact hdirect),
      hs.config.minMbps⟩

theorem killswitch_finite (enable : Option Bool) :
    StaysFinite (killswitch enable : Daemon P KillswitchReport) := by
  have hset (enabled : Bool) :
      StaysFinite (modify fun s => s.setKillswitch enabled : Daemon P Unit) :=
    modify_finite fun s hs =>
      ⟨hs.checked, ⟨hs.config.minMbps, hs.config.weights⟩, hs.seen, hs.direct, hs.ranking, hs.sweep,
        hs.pending⟩
  have hmachine (x : P.Machine → Except TunnelError Unit × P.Machine) :
      StaysFinite (onMachine x) := Keeps.yields fun _ hw => hw.congr rfl rfl rfl rfl
  have hturn : StaysFinite (turnKillswitch enable : Daemon P Unit) := by
    match enable with
    | none => exact Yields.pure trivial
    | some true =>
      refine Yields.bind self_finite fun s _ => ?_
      refine Yields.bind (Q := fun _ => True)
        (Keeps.yields fun _ hw => hw.congr rfl rfl rfl rfl) fun fault _ => ?_
      exact Yields.bind (hmachine _) fun _ _ => hset true
    | some false =>
      refine Yields.bind (Q := fun _ => True)
        (Keeps.yields fun _ hw => hw.congr rfl rfl rfl rfl) fun fault _ => ?_
      exact Yields.bind (hmachine _) fun _ _ => hset false
  refine Yields.bind hturn fun _ _ => ?_
  refine Yields.bind (Q := fun _ => True) (Yields.read fun _ _ => trivial) fun m _ => ?_
  exact Yields.bind self_finite fun _ _ => Yields.pure trivial

theorem servers_finite (country : Option String) (limit : Option Nat) (all : Bool) :
    StaysFinite (servers country limit all : Daemon P (List ServerSummary)) :=
  Yields.bind self_finite fun _ _ => Yields.bind serverList_finite fun _ _ => Yields.pure trivial

/-- Settings that are loaded are checked and finite. -/
theorem loadDisk_finite : Yields World.Finite
    (fun loaded => loaded.1.validate = .ok () ∧ loaded.1.Finite)
    (loadDisk : Daemon P (Config × ClientConfig)) := by
  refine Yields.bind nextDisk_finite fun disk hdisk => ?_
  have hload : ∀ config, (Config.load disk).mapError .load = (.ok config : Except Error Config) →
      config.validate = .ok () ∧ config.Finite := by
    intro config h
    cases hread : Config.load disk with
    | error e =>
      rw [hread] at h
      cases h
    | ok c =>
      rw [hread] at h
      cases h
      exact ⟨Config.load_validate hread, hdisk _ hread⟩
  refine Yields.bind (Yields.lift hload) fun config hconfig => ?_
  exact Yields.bind (Q := fun _ => True) (Yields.lift fun _ _ => trivial) fun _ _ =>
    Yields.pure hconfig

theorem reload_finite : StaysFinite (reload : Daemon P Unit) := by
  refine Yields.bind loadDisk_finite fun loaded hloaded => ?_
  refine Yields.bind (modify_finite fun s hs => ?_) fun _ _ => modify_finite fun s hs => ?_
  · exact ⟨hloaded.1, hloaded.2, hs.seen, hs.direct, hs.ranking, hs.sweep, hs.pending⟩
  · refine ⟨hs.checked, hs.config, hs.seen, hs.direct, fun r hr => ?_, hs.sweep, fun p hp => ?_⟩
    · exact hs.ranking r (List.mem_of_mem_filter hr)
    · exact hs.pending p (Option.filter_eq_some_iff.mp hp).1

/-! ### Tuning -/

theorem pendingSwitch_finite : Yields World.Finite (fun pending => ∀ p, pending = some p → p.Finite)
    (pendingSwitch : Daemon P (Option PendingSwitch)) := by
  refine Yields.bind self_finite fun s hs => ?_
  cases hpending : s.pending with
  | none => exact Yields.pure fun _ h => (by cases h)
  | some p =>
    refine Yields.bind (elapsed_finite _) fun age _ => Yields.pure fun _ h => ?_
    cases h
    exact hs.pending p hpending

/-- Recording a decision parks and reports no server but the one it names. -/
theorem record_finite {decision : Tuner.Decision} (h : ∀ r, decision.target = some r → r.Finite) :
    Yields World.Finite TuneReport.Finite (record decision : Daemon P TuneReport) := by
  have hforget : StaysFinite (modify fun s => { s with pending := none } : Daemon P Unit) :=
    modify_finite fun s hs =>
      ⟨hs.checked, hs.config, hs.seen, hs.direct, hs.ranking, hs.sweep, fun _ h => (by cases h)⟩
  have hset : StaysFinite (setPending decision : Daemon P Unit) := by
    cases decision with
    | propose target reason =>
      refine Yields.bind now_finite fun t _ => Yields.bind (modify_finite fun s hs => ?_) fun _ _ =>
        finite_of_steers (emit_steers _)
      exact ⟨hs.checked, hs.config, hs.seen, hs.direct, hs.ranking, hs.sweep,
        fun p hp => (by cases hp; exact h target rfl)⟩
    | _ => exact hforget
  refine Yields.bind hset fun _ _ => Yields.bind (modify_finite fun s hs => ?_) fun _ _ =>
    Yields.bind pendingSwitch_finite fun pending hpending => Yields.pure hpending
  exact hs.congr rfl rfl rfl rfl rfl (.inl rfl)

theorem assess_finite (current : Connection) (currentRtt : Option F64) {ranked : List RankedServer}
    (h : ∀ r ∈ ranked, r.Finite) : Yields World.Finite
      (fun assessment => ∀ best, assessment.best = some best → best.Finite)
      (assess current currentRtt ranked : Daemon P Tuner.Assessment) := by
  have hdismissal : StaysFinite (activeDismissal : Daemon P (Option String)) := by
    refine Yields.bind self_finite fun s _ => ?_
    cases s.dismissed with
    | none => exact Yields.pure trivial
    | some => exact Yields.bind (elapsed_finite _) fun _ _ => Yields.pure trivial
  refine Yields.bind hdismissal fun _ _ => Yields.bind self_finite fun s _ => Yields.pure ?_
  exact fun best hbest => h best (List.mem_of_head? hbest)

theorem followDecision_finite (decision : Tuner.Decision) :
    StaysFinite (followDecision decision : Daemon P Unit) := by
  unfold followDecision
  split
  · exact Yields.bind (switch_finite _) fun _ _ => Yields.pure trivial
  · exact Yields.pure trivial

theorem tuneDegraded_finite (current : Connection) (currentRtt : Option F64) :
    Yields World.Finite TuneReport.Finite
      (tuneDegraded current currentRtt : Daemon P TuneReport) := by
  refine Yields.bind (Yields.attempt (sweep_finite none)) fun swept hswept => ?_
  split
  · exact record_finite fun _ h => (by cases h)
  · exact Yields.fail _
  · next ranked =>
    refine Yields.bind (assess_finite current currentRtt (hswept ranked rfl)) fun a ha => ?_
    refine Yields.bind self_finite fun s _ => Yields.bind (followDecision_finite _) fun _ _ => ?_
    exact record_finite fun r hr => ha r (Tuner.decide_target hr)

theorem tune_finite : Yields World.Finite TuneReport.Finite (tune : Daemon P TuneReport) := by
  refine Yields.bind self_finite fun s _ => ?_
  cases s.current with
  | none => exact record_finite fun _ h => (by cases h)
  | some current =>
    refine Yields.bind (probeCurrent_finite _) fun rtt _ => Yields.bind self_finite fun s _ => ?_
    split
    · exact record_finite fun _ h => (by cases h)
    · exact tuneDegraded_finite _ _

theorem autotune_finite :
    Yields World.Finite TuneReport.Finite (autotune : Daemon P TuneReport) := by
  refine Yields.bind now_finite fun t _ => Yields.bind (modify_finite fun s hs => ?_) fun _ _ =>
    tune_finite
  exact hs.congr rfl rfl rfl rfl rfl (.inl rfl)

theorem scheduledPass_finite : StaysFinite (scheduledPass : Daemon P (Option TuneReport)) := by
  refine Yields.bind now_finite fun t _ => Yields.bind self_finite fun s _ => ?_
  exact Yields.ite (Yields.bind autotune_finite fun _ _ => Yields.pure trivial) (Yields.pure trivial)

theorem approve_finite : StaysFinite (approve : Daemon P RankedServer) := by
  refine Yields.bind self_finite fun s _ => ?_
  cases s.pending with
  | none => exact Yields.fail _
  | some pending =>
    refine Yields.bind (modify_finite fun s hs => ?_) fun _ _ => ?_
    · exact hs.congr rfl rfl rfl rfl rfl (.inr rfl)
    refine Yields.bind (switch_finite _) fun moved _ => ?_
    refine Yields.bind (modify_finite fun s hs => ?_) fun _ _ => Yields.pure trivial
    exact hs.congr rfl rfl rfl rfl rfl (.inl rfl)

theorem dismiss_finite : StaysFinite (dismiss : Daemon P String) := by
  have hremember : StaysFinite (rememberDismissal : Daemon P Unit) := by
    refine Yields.bind self_finite fun s _ => ?_
    cases s.current with
    | none => exact Yields.pure trivial
    | some current =>
      refine Yields.bind now_finite fun t _ => modify_finite fun s hs => ?_
      exact hs.congr rfl rfl rfl rfl rfl (.inl rfl)
  refine Yields.bind self_finite fun s _ => ?_
  cases s.pending with
  | none => exact Yields.fail _
  | some pending =>
    refine Yields.bind (modify_finite fun s hs => ?_) fun _ _ => ?_
    · exact hs.congr rfl rfl rfl rfl rfl (.inr rfl)
    refine Yields.bind hremember fun _ _ => ?_
    refine Yields.bind (modify_finite fun s hs => ?_) fun _ _ => Yields.pure trivial
    exact hs.congr rfl rfl rfl rfl rfl (.inl rfl)

theorem State.Finite.lastRankingAt {s : State P} (h : s.Finite) (t : Instant) (limit : Option Nat) :
    ∀ r ∈ s.lastRankingAt t limit, r.Finite := by
  intro r hr
  obtain ⟨r, hmem, rfl⟩ := List.mem_map.mp (State.lastRankingAt_subset hr)
  have hfinite := h.ranking r hmem
  cases hseen : s.throughputSeen r.name with
  | none => exact hfinite
  | some m => exact ⟨hfinite.rttMs, hfinite.score, fun x hx => (by cases hx; exact h.seen _ m hseen)⟩

/-- At a start the state holds no numbers but those of its settings. -/
theorem Starts.finite {w : World P} (h : Starts w) (hmeasured : w.outside.Measured)
    (hconfig : w.state.config.Finite) (hsettings : w.outside.Finite) : w.Finite := by
  obtain ⟨disk, config, client, hload, -, hstate⟩ := h.loads
  rw [hstate] at hconfig
  refine ⟨?_, hmeasured, hsettings⟩
  rw [hstate]
  exact ⟨Config.load_validate hload, hconfig, fun _ _ h => (by cases h), fun _ h => (by cases h),
    fun _ h => (by cases h), fun _ h => (by cases h), fun _ h => (by cases h)⟩

end Vpnmgr
