import Vpnmgr.Daemon.Steering

/-! What the daemon offers, the stored ranking and the proposal, is accepted by the filters in force,
in every run whose tests of one country store no other. -/

namespace Vpnmgr

open Ieee Stateful Stateful.Action

variable {P : Platform}

namespace State

/-- Whether the filters in force accept a ranked server. -/
def accepts (s : State P) (r : RankedServer) : Prop :=
  (Ruleset.new s.config.filters).accepts r.name r.countryCode r.load = true

/-- The stored ranking and the target of the proposal are accepted. -/
structure Offers (s : State P) : Prop where
  ranking : ∀ r ∈ s.lastRanking, s.accepts r
  pending : ∀ p, s.pending = some p → s.accepts p.1

theorem accepts_congr {s s' : State P} {r : RankedServer} (h : s'.config = s.config) :
    s'.accepts r ↔ s.accepts r := by
  unfold accepts
  rw [h]

/-- The filters judge a ranked server by its place alone. -/
theorem accepts_of_place {s : State P} {r r' : RankedServer} (h : r.place = r'.place) :
    s.accepts r ↔ s.accepts r' := by
  obtain ⟨hname, hrest⟩ := Prod.mk.inj h
  obtain ⟨hcountry, hload⟩ := Prod.mk.inj hrest
  unfold accepts
  rw [hname, hcountry, hload]

theorem Offers.of_places {s s' : State P} (h : s.Offers) (hconfig : s'.config = s.config)
    (hpending : s'.pending = s.pending)
    (hplaces : s'.lastRanking.map RankedServer.place = s.lastRanking.map RankedServer.place) :
    s'.Offers where
  ranking r hr := by
    have hmem : r.place ∈ s'.lastRanking.map RankedServer.place := List.mem_map_of_mem hr
    rw [hplaces, List.mem_map] at hmem
    obtain ⟨r', hr', hplace⟩ := hmem
    rw [accepts_congr hconfig, ← accepts_of_place hplace]
    exact h.ranking r' hr'
  pending p hp := by
    rw [accepts_congr hconfig]
    exact h.pending p (hpending ▸ hp)

/-- Reading the settings again drops what they exclude. -/
theorem applyFiltersToCachedResults_offers (s : State P) :
    s.applyFiltersToCachedResults.Offers where
  ranking _ hr := (List.mem_filter.mp hr).2
  pending _ hp := (Option.filter_eq_some_iff.mp hp).2

/-- What the filters make of a server of the list they make of its entry in the ranking. -/
theorem accepts_of_server {s : State P} {r : RankedServer} {m : Server} (h : r.place = m.place) :
    s.accepts r ↔ (Ruleset.new s.config.filters).accepts m.name m.countryCode m.load = true := by
  obtain ⟨hname, hrest⟩ := Prod.mk.inj h
  obtain ⟨hcountry, hload⟩ := Prod.mk.inj hrest
  rw [accepts, hname, hcountry, hload]

/-- The ranking of a sweep without a country holds accepted servers only. -/
theorem ranks_accepts {s : State P} {net : Network} {list : ServerList} {t : Instant}
    {r : RankedServer} (h : r ∈ s.ranks net none list t) : s.accepts r := by
  obtain ⟨m, hm, _, hplace⟩ := ranks_place h
  exact (accepts_of_server hplace).mpr (Filters.mem_accepted.mp (Prober.mem_sweep hm)).2.2

/-- What clients are served of the stored ranking is accepted with it. -/
theorem Offers.served {s : State P} (h : s.Offers) (t : Instant) (limit : Option Nat) :
    ∀ r ∈ s.lastRankingAt t limit, s.accepts r := by
  intro r hr
  obtain ⟨r', hr', rfl⟩ := List.mem_map.mp (lastRankingAt_subset hr)
  have haccepts := h.ranking r' hr'
  split <;> exact haccepts

end State

/-- What is on offer after an operation is accepted if it was before. -/
def StaysOffering (w w' : World P) : Prop := w.state.Offers → w'.state.Offers

instance : IsPreorder (World P) StaysOffering :=
  inferInstanceAs (IsPreorder (World P) fun w w' => w.state.Offers → w'.state.Offers)

theorem samples_offers (w w' : World P) (h : Samples w w') : StaysOffering w w' :=
  fun hw => hw.of_places h.config h.pending h.places

theorem steers_offers (w w' : World P) (h : Steers w w') : StaysOffering w w' := fun hw =>
  hw.of_places (by rw [h.state]) (by rw [h.state]) (by rw [h.state])

/-- A change of the state that keeps the filters, the ranking and the proposal. -/
theorem modify_offers {f : State P → State P}
    (hfilters : ∀ s, (f s).config.filters = s.config.filters)
    (hranking : ∀ s, (f s).lastRanking = s.lastRanking)
    (hpending : ∀ s, (f s).pending = s.pending ∨ (f s).pending = none) :
    Within StaysOffering (modify f : Daemon P Unit) := by
  refine Within.update fun w hw => ⟨fun r hr => ?_, fun p hp => ?_⟩
  · rw [State.accepts, hfilters]
    exact hw.ranking r (hranking w.state ▸ hr)
  · rw [State.accepts, hfilters]
    rcases hpending w.state with hkept | hnone
    · exact hw.pending p (hkept.symm.trans hp)
    · cases hnone.symm.trans hp

theorem sweep_offers : Within StaysOffering (sweep none : Daemon P (List RankedServer)) := by
  intro w hw
  have hmeasures := sweep_measures none w
  rcases h : sweep none w with ⟨e | ranking, w'⟩
  · rw [h] at hmeasures
    exact hw.of_places hmeasures.config hmeasures.pending (by rw [(sweep_error h).1])
  · rw [h] at hmeasures
    obtain ⟨list, v, t, _, rfl, hstored, -⟩ := sweep_ok h
    refine ⟨fun r hr => ?_, fun p hp => ?_⟩
    · rw [State.accepts_congr hmeasures.config]
      rw [hstored] at hr
      exact State.ranks_accepts hr
    · rw [State.accepts_congr hmeasures.config]
      exact hw.pending p (hmeasures.pending ▸ hp)

theorem switch_offers (name : String) :
    Within StaysOffering (switch name : Daemon P RankedServer) := by
  refine switch_within (.of_samples samples_offers) (fun chosen => ?_) name
  refine Within.bind ((retarget_steers _).mono steers_offers) fun _ => ?_
  exact modify_offers (fun _ => rfl) (fun _ => rfl) fun _ => .inl rfl

theorem connect_offers (server : Option String) (measureFirst : Option Bool) :
    Within StaysOffering (connect server measureFirst : Daemon P RankedServer) :=
  connect_within (.of_samples samples_offers) (fun _ hw => hw)
    (fun _ => (moveTo_steers _).mono steers_offers) sweep_offers
    (fun _ w _ => steers_offers _ _ (establish_steers _ w)) _ _

theorem baseline_offers : Within StaysOffering (baseline : Daemon P SpeedReport) :=
  baseline_within (.of_samples samples_offers) (fun _ hw => hw)
    (fun _ => (moveTo_steers _).mono steers_offers) sweep_offers
    (fun _ w _ => steers_offers _ _ (establish_steers _ w))
    (disconnect_steers.mono steers_offers)

theorem reload_offers : Within StaysOffering (reload : Daemon P Unit) := by
  refine Within.bind (Within.bind (fun _ hw => hw) fun disk => ?_) fun loaded w _ => ?_
  · refine Within.bind (Within.lift _) fun config => ?_
    exact Within.bind (Within.lift _) fun client => Within.pure _
  · exact State.applyFiltersToCachedResults_offers _

theorem killswitch_offers (enable : Option Bool) :
    Within StaysOffering (killswitch enable : Daemon P KillswitchReport) := by
  refine Within.bind ?_ fun _ =>
    Within.bind (Within.read _) fun m => Within.bind (Within.read _) fun s => Within.pure _
  have hset : ∀ on, Within StaysOffering (modify fun s => s.setKillswitch on : Daemon P Unit) :=
    fun on => modify_offers (fun _ => rfl) (fun _ => rfl) fun _ => .inl rfl
  match enable with
  | none => exact Within.pure _
  | some true =>
    refine Within.bind (Within.read _) fun s => Within.bind (fun _ hw => hw) fun fault => ?_
    exact Within.bind (fun _ hw => hw) fun _ => hset _
  | some false =>
    refine Within.bind (fun _ hw => hw) fun fault => ?_
    exact Within.bind (fun _ hw => hw) fun _ => hset _

theorem approve_offers : Within StaysOffering (approve : Daemon P RankedServer) := by
  refine Within.bind (Within.read _) fun s => ?_
  cases s.pending with
  | none => exact Within.fail _
  | some pending =>
    refine Within.bind (modify_offers (fun _ => rfl) (fun _ => rfl) fun _ => .inr rfl) fun _ => ?_
    refine Within.bind (switch_offers _) fun moved => ?_
    exact Within.bind (modify_offers (fun _ => rfl) (fun _ => rfl) fun _ => .inl rfl) fun _ =>
      Within.pure _

theorem now_offers : Within StaysOffering (now : Daemon P Instant) :=
  (samples_of_fetches now_fetches).mono samples_offers

theorem dismiss_offers : Within StaysOffering (dismiss : Daemon P String) := by
  refine Within.bind (Within.read _) fun s => ?_
  cases s.pending with
  | none => exact Within.fail _
  | some pending =>
    refine Within.bind (modify_offers (fun _ => rfl) (fun _ => rfl) fun _ => .inr rfl) fun _ => ?_
    refine Within.bind (Within.bind (Within.read _) fun s => ?_) fun _ => Within.bind
      (modify_offers (fun _ => rfl) (fun _ => rfl) fun _ => .inl rfl) fun _ => Within.pure _
    cases s.current with
    | none => exact Within.pure _
    | some current =>
      exact Within.bind now_offers fun t =>
        modify_offers (fun _ => rfl) (fun _ => rfl) fun _ => .inl rfl

/-- A decision that proposes a server the filters accept may be recorded. -/
theorem record_offers {decision : Tuner.Decision} {w : World P}
    (hbest : ∀ best, decision.target = some best → w.state.accepts best) :
    StaysOffering w (after (record decision) w) := by
  intro hw
  have hset : (after (setPending decision) w).state.Offers := by
    cases decision with
    | propose best reason =>
      refine ⟨hw.ranking, fun p hp => ?_⟩
      cases hp
      exact hbest best rfl
    | _ => exact ⟨hw.ranking, fun p hp => by cases hp⟩
  refine record_within (fun _ _ h => samples_offers _ _ h.samples) (fun text => ?_) decision w hset
  exact modify_offers (fun _ => rfl) (fun _ => rfl) fun _ => .inl rfl

/-- A pass that sweeps proposes or moves to the best of the ranking it has just stored. -/
theorem tuneDegraded_offers (current : Connection) (currentRtt : Option F64) :
    Within StaysOffering (tuneDegraded current currentRtt : Daemon P TuneReport) := by
  intro w hw
  have hswept := sweep_offers w hw
  rcases h : sweep none w with ⟨e | ranked, v⟩
  · rw [h] at hswept
    have hrecord : ∀ probed, v.state.Offers →
        (after (record (.nothingReachable probed)) v).state.Offers :=
      fun probed => record_offers fun best hbest => by cases hbest
    rw [tuneDegraded, attempt_bind, h]
    cases e with
    | allUnreachable probed => exact hrecord probed hswept
    | _ => exact hswept
  · rw [h] at hswept
    obtain ⟨_, _, _, _, _, hstored, -⟩ := sweep_ok h
    obtain ⟨_, _, -, hrun⟩ := tuneDegraded_swept current currentRtt h
    have hfetches : Fetches v (after (assess current currentRtt ranked) v) := assess_fetches _ _ _ v
    generalize after (assess current currentRtt ranked) v = u at hfetches hrun
    have hu := samples_offers _ _ hfetches.samples hswept
    rw [hrun]
    refine Within.bind_at (followDecision_within switch_offers _ u) (fun _ v' hfollow hv' => ?_) hu
    have hconfig := ((followDecision_within switch_operates _).run hfollow).config
    refine record_offers (fun best hbest => ?_) hv'
    have hmem : best ∈ u.state.lastRanking := by
      rw [hfetches.lastRanking, hstored]
      exact List.mem_of_mem_head? (Tuner.decide_target hbest)
    rw [State.accepts_congr hconfig]
    exact hu.ranking best hmem

theorem tune_offers : Within StaysOffering (tune : Daemon P TuneReport) := by
  have hrecord : ∀ decision : Tuner.Decision, decision.target = none →
      Within StaysOffering (record decision : Daemon P TuneReport) :=
    fun decision hnone w => record_offers fun best hbest => by cases hnone.symm.trans hbest
  refine Within.bind (Within.read _) fun s => ?_
  cases s.current with
  | none => exact hrecord _ rfl
  | some current =>
    refine Within.bind ((probeCurrent_samples _).mono samples_offers) fun currentRtt => ?_
    refine Within.bind (Within.read _) fun s => ?_
    split
    · exact hrecord _ rfl
    · exact tuneDegraded_offers _ _

theorem autotune_offers : Within StaysOffering (autotune : Daemon P TuneReport) := by
  refine Within.bind now_offers fun t => ?_
  refine Within.bind ?_ fun _ => tune_offers
  exact modify_offers (fun _ => rfl) (fun _ => rfl) fun _ => .inl rfl

/-- A test of one country ranks no server that the settings exclude: whichever passes the filters of
the test and answers it passes those of the settings. -/
def World.TestsAccepted (w : World P) (country : String) : Prop :=
  ∀ list, (serverList w).1 = .ok list →
    ∀ m ∈ w.state.swept (w.outside.network 0) (some country) list, m.rtt.isSome = true →
      (Ruleset.new w.state.config.filters).accepts m.server.name m.server.countryCode
        m.server.load = true

/-- A test of one country keeps the offer exactly where it ranks no excluded server. -/
theorem test_offers_iff {w : World P} {country : String} (hw : w.state.Offers) :
    (step w (.test (some country))).state.Offers ↔ w.TestsAccepted country := by
  have hmeasures := sweep_measures (some country) w
  rw [step, after]
  rcases h : sweep (some country) w with ⟨e | ranking, w'⟩
  · obtain ⟨hkept, hsilent⟩ := sweep_error h
    rw [h] at hmeasures
    refine iff_of_true (hw.of_places hmeasures.config hmeasures.pending (by rw [hkept])) ?_
    intro list hlist m hm hsome
    rw [hsilent list hlist m hm] at hsome
    cases hsome
  · obtain ⟨list, v, t, hlist, rfl, hstored, -⟩ := sweep_ok h
    rw [h] at hmeasures
    constructor
    · intro hoffers list' hlist' m hm hsome
      rw [hlist] at hlist'
      cases hlist'
      obtain ⟨r, hr, hplace⟩ := State.place_ranks t hm hsome
      rw [← State.accepts_of_server hplace, ← State.accepts_congr hmeasures.config]
      exact hoffers.ranking r (hstored ▸ hr)
    · intro htests
      refine ⟨fun r hr => ?_, fun p hp => ?_⟩
      · rw [hstored] at hr
        obtain ⟨m, hm, hsome, hplace⟩ := State.ranks_place hr
        rw [State.accepts_congr hmeasures.config, State.accepts_of_server hplace]
        exact htests list (by rw [hlist]) m hm hsome
      · rw [State.accepts_congr hmeasures.config]
        exact hw.pending p (hmeasures.pending ▸ hp)

/-- The operation is no test of a country, or one that ranks no excluded server. -/
def World.Accepts (w : World P) : Op → Prop
  | .test (some country) => w.TestsAccepted country
  | _ => True

theorem step_offers (w : World P) (op : Op) (hop : w.Accepts op) (hw : w.state.Offers) :
    (step w op).state.Offers := by
  cases op with
  | connect server measure => exact connect_offers _ _ w hw
  | disconnect => exact steers_offers _ _ (disconnect_steers w) hw
  | switch server => exact switch_offers _ w hw
  | test country =>
    cases country with
    | none => exact sweep_offers w hw
    | some country => exact (test_offers_iff hw).mpr hop
  | servers country limit all => exact samples_offers _ _ (servers_fetches _ _ _ w).samples hw
  | reload => exact reload_offers w hw
  | autotune => exact autotune_offers w hw
  | approve => exact approve_offers w hw
  | dismiss => exact dismiss_offers w hw
  | speedtest => exact samples_offers _ _ (speedtest_samples w) hw
  | baseline confirm =>
    cases confirm with
    | false => exact hw
    | true => exact baseline_offers w hw
  | killswitch enable => exact killswitch_offers _ w hw
  | scheduledPass =>
    refine Within.bind now_offers (fun t => ?_) w hw
    refine Within.bind (Within.read _) fun s => Within.ite ?_ (Within.pure _)
    exact Within.bind autotune_offers fun _ => Within.pure _

/-- Wherever a run leads whose tests of one country rank no excluded server, the stored ranking and
the proposal are accepted by the filters then in force. -/
theorem reachable_offers {w : World P} (h : ReachableBy World.Accepts w) : w.state.Offers := by
  refine h.holds (fun start hs => ?_) step_offers
  obtain ⟨disk, config, client, _, _, hloaded⟩ := hs.loads
  rw [hloaded]
  exact ⟨fun r hr => (List.not_mem_nil hr).elim, fun p hp => by cases hp⟩

namespace Sample

/-- Settings that allow one country. -/
def dutchConfig : Config :=
  { config with filters := { config.filters with countryWhitelist := ["nl"] } }

/-- A server of the country that the settings allow, and one of another. -/
def dutchList : ServerList :=
  ⟨[server "Achernar" "nl" 0x0a000001 none, server "Castor" "ca" 0x0a000002 none]⟩

def dutch : World (.linux log) :=
  world dutchConfig linuxMachine (outside dutchConfig dutchList pairReply linuxFaults)

theorem dutch_starts : Starts dutch := world_starts (by decide +kernel) rfl _ _

end Sample

theorem allowed_test_offers : (step Sample.dutch (.test (some "nl"))).state.Offers := by
  refine reachable_offers ⟨_, Sample.dutch_starts, .next .here ?_⟩
  intro list _ m hm _
  exact (Filters.mem_accepted.mp (Prober.mem_sweep hm)).2.2

/-- A test of a country outside the whitelist leaves its servers on offer. -/
theorem test_offers_excluded :
    ¬∀ w : World (.linux Sample.log), Reachable w → w.state.Offers := by
  intro hoffers
  have hranking := (hoffers (step Sample.dutch (.test (some "ca")))
    ⟨_, Sample.dutch_starts, .next .here trivial⟩).ranking
  have hexcluded : ¬∀ r ∈ (step Sample.dutch (.test (some "ca"))).state.lastRanking,
      (Ruleset.new (step Sample.dutch (.test (some "ca"))).state.config.filters).accepts r.name
        r.countryCode r.load = true := by decide +kernel
  exact hexcluded hranking

end Vpnmgr
