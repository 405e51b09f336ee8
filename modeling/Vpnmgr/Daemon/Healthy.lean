import Vpnmgr.Daemon.Dismissal
import Vpnmgr.Daemon.Listing

/-! A pass on a server that answers in time. It leaves the tunnel alone and proposes nothing, unless
it cannot find in the list what it has to probe: that it takes for silence. -/

namespace Vpnmgr

open Ieee Stateful Stateful.Action

variable {P : Platform} {α : Type}

/-! ### The settings are always ones that were accepted -/

/-- Settings that pass every check are not replaced by others. -/
def Vets (w w' : World P) : Prop :=
  w.state.config.validate = .ok () → w'.state.config.validate = .ok ()

instance : IsPreorder (World P) Vets :=
  inferInstanceAs (IsPreorder (World P) fun w w' =>
    w.state.config.validate = .ok () → w'.state.config.validate = .ok ())

theorem vets_of_config {w w' : World P} (h : w'.state.config = w.state.config) : Vets w w' := by
  intro hw
  rw [h]
  exact hw

theorem vets_of_operates {x : Daemon P α} (h : Within Operates x) : Within Vets x :=
  h.mono fun _ _ h => vets_of_config h.config

theorem vets_of_measures {x : Daemon P α} (h : Within Measures x) : Within Vets x :=
  vets_of_operates (operates_of_measures h)

theorem modify_vets {f : State P → State P} (h : ∀ s, (f s).config.validate = s.config.validate) :
    Within Vets (modify f : Daemon P Unit) :=
  Within.update fun w hw => (h w.state).trans hw

theorem approve_vets : Within Vets (approve : Daemon P RankedServer) := by
  refine Within.bind (Within.read _) fun s => ?_
  cases s.pending with
  | none => exact Within.fail _
  | some pending =>
    refine Within.bind (modify_vets fun _ => rfl) fun _ => ?_
    refine Within.bind (vets_of_operates (switch_operates _)) fun moved => ?_
    exact Within.bind (modify_vets fun _ => rfl) fun _ => Within.pure _

theorem dismiss_vets : Within Vets (dismiss : Daemon P String) := by
  refine Within.bind (Within.read _) fun s => ?_
  cases s.pending with
  | none => exact Within.fail _
  | some pending =>
    refine Within.bind (modify_vets fun _ => rfl) fun _ => ?_
    refine Within.bind (Within.bind (Within.read _) fun s => ?_) fun _ =>
      Within.bind (modify_vets fun _ => rfl) fun _ => Within.pure _
    cases s.current with
    | none => exact Within.pure _
    | some current =>
      exact Within.bind (vets_of_measures (measures_of_fetches now_fetches)) fun t =>
        modify_vets fun _ => rfl

theorem killswitch_vets (enable : Option Bool) :
    Within Vets (killswitch enable : Daemon P KillswitchReport) := by
  refine Within.bind ?_ fun _ =>
    Within.bind (Within.read _) fun m => Within.bind (Within.read _) fun s => Within.pure _
  match enable with
  | none => exact Within.pure _
  | some true =>
    refine Within.bind (Within.read _) fun s => Within.bind (fun _ hw => hw) fun fault => ?_
    exact Within.bind (fun _ hw => hw) fun _ => modify_vets fun _ => rfl
  | some false =>
    refine Within.bind (fun _ hw => hw) fun fault => ?_
    exact Within.bind (fun _ hw => hw) fun _ => modify_vets fun _ => rfl

/-- What is read from disk has passed every check. -/
theorem loadDisk_ok {config : Config} {client : ClientConfig} {w v : World P}
    (h : loadDisk w = (.ok (config, client), v)) : config.validate = .ok () := by
  obtain ⟨disk, u, _, h⟩ := bind_ok h
  obtain ⟨loaded, u', hload, h⟩ := bind_ok h
  obtain ⟨client', u'', _, h⟩ := bind_ok h
  cases h
  cases hread : Config.load disk with
  | error e =>
    rw [hread] at hload
    cases hload
  | ok c =>
    rw [hread] at hload
    cases hload
    exact Config.load_validate hread

theorem reload_vets : Within Vets (reload : Daemon P Unit) := by
  intro w hw
  rcases hload : loadDisk w with ⟨e | ⟨config, client⟩, v⟩
  · have hrun : reload w = (.error e, v) := bind_run_error hload
    rw [hrun]
    exact vets_of_config (loadDisk_operates.run hload).config hw
  · have hrun : reload w = _ := bind_run_ok hload
    rw [hrun]
    exact loadDisk_ok hload

theorem tune_vets : Within Vets (tune : Daemon P TuneReport) :=
  tune_within (fun _ => vets_of_operates (switch_operates _))
    (fun _ => vets_of_measures (measures_of_samples (probeCurrent_samples _)))
    (vets_of_measures (sweep_measures none))
    (fun _ _ _ => vets_of_measures (measures_of_fetches (assess_fetches _ _ _)))
    fun decision w => vets_of_config (record_idles decision w).config

theorem step_vets (w : World P) (op : Op) : Vets w (step w op) := by
  cases hbegins : w.passBegins op with
  | some u =>
    rw [step_pass hbegins]
    refine trans_of Vets (vets_of_config ?_) (tune_vets u)
    rw [(passBegins_state hbegins).1]
  | none =>
    cases op with
    | connect server measure => exact vets_of_operates (connect_operates _ _) w
    | disconnect => exact vets_of_operates (operates_of_steers disconnect_steers) w
    | switch server => exact vets_of_operates (switch_operates _) w
    | test country => exact vets_of_measures (sweep_measures _) w
    | servers country limit all => exact vets_of_config (servers_fetches _ _ _ w).config
    | reload => exact reload_vets w
    | autotune => cases hbegins
    | approve => exact approve_vets w
    | dismiss => exact dismiss_vets w
    | speedtest => exact vets_of_config (speedtest_samples w).config
    | baseline confirm =>
      cases confirm with
      | false => exact refl_of Vets w
      | true => exact vets_of_operates baseline_operates w
    | killswitch enable => exact killswitch_vets _ w
    | scheduledPass =>
      rw [step, after, scheduledPass_run, hbegins]
      exact vets_of_config (now_fetches w).config

/-- The settings in force have passed every check. -/
theorem Reachable.validate {w : World P} (h : Reachable w) : w.state.config.validate = .ok () := by
  refine h.holds (fun start hs => ?_) fun v op _ => step_vets v op
  obtain ⟨disk, config, client, hload, _, hloaded⟩ := hs.loads
  rw [hloaded]
  exact Config.load_validate hload

/-! ### The time of the server in use -/

/-- The list that a caller gets now has the server of the connection, and the endpoint it is connected
to is among the ones that are probed. -/
def World.Finds (w : World P) (c : Connection) : Prop :=
  ∃ list server, w.atHand = some list ∧ list.get c.server = some server ∧
    c.endpoint ∈ (server.wgEndpoints wgEntries w.state.config.provider.airvpn.port).map Prod.snd

/-- There is no list, and neither of the next two fetches brings one. -/
def World.Unlisted (w : World P) : Prop :=
  w.state.servers = none ∧ ∀ n < 2, ∀ list, w.outside.fetch n ≠ .fetched list

theorem inTime_fast {rtt : Duration} {ms : Nat} (h : rtt ≤ .ofMillis ms) :
    rtt.asSecsF64 * 1000 ≤ F64.ofNat ms := by
  have hcast : (rtt : ℚ) ≤ ms * 1000000 := by exact_mod_cast h
  show F64.finite _ ≤ F64.finite _
  rw [F64.finite_le]
  push_cast
  linarith

/-- The check of a pass finds a server fast that it can look up and that answers in time. -/
theorem probeCurrent_fast {w : World P} {c : Connection} (hfinds : w.Finds c)
    (hsamples : 0 < w.state.config.probe.samples)
    (hanswers : (w.outside.network 0).Answers c.endpoint
      (.ofMillis w.state.config.autotune.maxLatencyMs)) :
    ∃ rtt v, probeCurrent c.server w = (.ok rtt, v) ∧ v.state.isFast rtt = true := by
  obtain ⟨list, server, hlist, hget, hentry⟩ := hfinds
  rcases hrun : serverList w with ⟨e | found, v⟩
  · have hgives := (serverList_gives w).1
    rw [hrun, hlist] at hgives
    cases hgives
  have hgives := (serverList_gives w).1
  rw [hrun, hlist] at hgives
  obtain rfl : found = list := Option.some.inj hgives
  have hfetches := serverList_fetches.run hrun
  have hattempt : (attempt serverList : Daemon P (Except Error ServerList)) w =
      (.ok (.ok found), v) := by rw [attempt_run, hrun]
  obtain ⟨rtt, hrtt, hle⟩ := Prober.sweep_answered (p := w.state.currentProber) hentry
    (by rintro ⟨⟩) hsamples hanswers
  refine ⟨some (rtt.asSecsF64 * 1000), after nextNetwork v, ?_, ?_⟩
  · rw [probeCurrent, self, read_bind, bind_run_ok hattempt]
    dsimp only
    rw [hget]
    have hnet : nextNetwork v = (.ok (v.outside.network 0), after nextNetwork v) := rfl
    refine (bind_run_ok hnet).trans ?_
    rw [hfetches.network, hrtt]
    rfl
  · have hconfig : (after nextNetwork v).state.config = w.state.config := hfetches.config
    rw [State.isFast, hconfig]
    exact decide_eq_true (inTime_fast hle)

/-! ### The pass -/

/-- The tunnel, the record of it and the machine are left as they are, and neither a move nor a
proposal is announced. -/
structure Undisturbed (w w' : World P) : Prop where
  tunnel : w'.state.tunnel = w.state.tunnel
  current : w'.state.current = w.state.current
  machine : w'.machine = w.machine
  events : w'.events = w.events

theorem Tuner.decide_never {a : Tuner.Assessment} {autotune : Autotune} {current : Tuner.Current}
    (hcurrent : a.current = some current) (hnever : autotune.switchPolicy = .never) :
    (Tuner.decide a autotune).isActionable = false ∧
      ∀ target reason, Tuner.decide a autotune ≠ .propose target reason := by
  refine ⟨Bool.eq_false_iff.mpr fun hactionable => ?_, fun target reason hpropose => ?_⟩
  · obtain ⟨target, reason, hswitch⟩ := Tuner.Decision.isActionable_iff.mp hactionable
    have hauto := (Tuner.decide_switch hcurrent hswitch).1
    cases hnever.symm.trans hauto
  · have hask := (Tuner.decide_propose hcurrent hpropose).1
    cases hnever.symm.trans hask

/-- Without a list, a call whose fetch brings none fails and leaves none. -/
theorem serverList_none {w : World P} (hservers : w.state.servers = none)
    (hfetch : ∀ list, w.outside.fetch 0 ≠ .fetched list) : ∃ e v, serverList w = (.error e, v) ∧
      v.state.servers = none ∧ v.outside.fetch = later w.outside.fetch := by
  have hcached : w.cached = none := by rw [World.cached, hservers]; rfl
  have hstale : w.isStale = true := by rw [World.isStale, hservers]
  obtain ⟨hresult, hkept, hlater⟩ := serverList_gives w
  rw [World.atHand, hstale, if_pos rfl, hcached] at hresult
  rw [World.answer, hstale, if_pos rfl, hcached] at hkept
  rw [hstale, if_pos rfl] at hlater
  have hnone : (w.outside.fetch 0).gives none = none ∧
      Fetch.keep none (some (w.outside.fetch 0)) = none := by
    cases h : w.outside.fetch 0 with
    | fetched list => exact absurd h (hfetch list)
    | _ => exact ⟨rfl, rfl⟩
  rw [hnone.1] at hresult
  rw [hnone.2] at hkept
  rw [after] at hkept hlater
  rcases hrun : serverList w with ⟨e | list, v⟩
  · rw [hrun] at hkept hlater
    exact ⟨e, v, rfl, Option.map_eq_none_iff.mp hkept, hlater⟩
  · rw [hrun] at hresult
    cases hresult

/-- Without a list the sweep of a pass fails too. -/
theorem World.Unlisted.not_assesses {w x : World P} {a : Tuner.Assessment} (h : w.Unlisted) :
    ¬w.Assesses x a := by
  rintro ⟨current, rtt, v, ranked, u, _, hprobe, _, hsweep, _⟩
  obtain ⟨hservers, hfetch⟩ := h
  obtain ⟨e, y, hrun, hnone, hlater⟩ := serverList_none hservers (hfetch 0 (by decide))
  have hattempt : (attempt serverList : Daemon P (Except Error ServerList)) w =
      (.ok (.error e), y) := by rw [attempt_run, hrun]
  rw [probeCurrent, self, read_bind, bind_run_ok hattempt] at hprobe
  cases hprobe
  obtain ⟨list, _, _, hlist, _, _⟩ := sweep_ok hsweep
  have hnext : ∀ list, v.outside.fetch 0 ≠ .fetched list := by
    rw [hlater]
    exact hfetch 1 (by decide)
  obtain ⟨_, _, hfails, _⟩ := serverList_none hnone hnext
  cases hlist.symm.trans hfails

theorem tune_undisturbed {w : World P} {c : Connection} (hcurrent : w.state.current = some c)
    (hsamples : 0 < w.state.config.probe.samples)
    (hanswers : (w.outside.network 0).Answers c.endpoint
      (.ofMillis w.state.config.autotune.maxLatencyMs))
    (hfinds : w.state.config.autotune.switchPolicy = .never ∨ w.Unlisted ∨ w.Finds c) :
    Undisturbed w (after tune w) := by
  have hunmoved := tune_unmoved hcurrent fun a x hassesses => ?_
  · exact ⟨hunmoved.1.tunnel, hunmoved.1.current, hunmoved.1.machine, hunmoved.2.1⟩
  rcases hfinds with hnever | hunlisted | hfound
  · obtain ⟨current, rtt, v, ranked, u, _, _, _, _, hassess⟩ := hassesses
    obtain ⟨probed, rfl⟩ := assess_declinedFrom hassess
    exact Tuner.decide_never rfl hnever
  · exact absurd hassesses hunlisted.not_assesses
  · obtain ⟨current, rtt, v, ranked, u, hsame, hprobe, hslow, _, _⟩ := hassesses
    cases hcurrent.symm.trans hsame
    obtain ⟨_, _, hprobe', hfast⟩ := probeCurrent_fast hfound hsamples hanswers
    cases hprobe.symm.trans hprobe'
    cases hslow.symm.trans hfast

/-- From every state the daemon reaches, a pass whose check has every probe of the endpoint in use
answered within the limit leaves the tunnel alone and proposes nothing, if the list for the check names
that endpoint, or there is no list for the sweep either, or the policy never acts. -/
theorem healthy_undisturbed {w u : World P} {op : Op} {c : Connection} (hw : Reachable w)
    (hcurrent : w.state.current = some c) (hpass : w.passBegins op = some u)
    (hanswers : (u.outside.network 0).Answers c.endpoint
      (.ofMillis w.state.config.autotune.maxLatencyMs))
    (hfinds : w.state.config.autotune.switchPolicy = .never ∨ u.Unlisted ∨ u.Finds c) :
    Undisturbed w (step w op) := by
  obtain ⟨hstate, hevents, _⟩ := passBegins_state hpass
  have hconfig : u.state.config = w.state.config := by rw [hstate]
  have hsamples := (Config.validate_ok.mp hw.validate).samples
  rw [← hconfig] at hanswers hfinds hsamples
  have hcurrent' : u.state.current = some c := by rw [hstate]; exact hcurrent
  have hpassed := tune_undisturbed hcurrent' (Nat.pos_of_ne_zero hsamples) hanswers hfinds
  rw [step_pass hpass]
  refine ⟨hpassed.tunnel.trans ?_, hpassed.current.trans ?_,
    hpassed.machine.trans (passBegins_machine hpass), hpassed.events.trans hevents⟩
  · rw [hstate]
  · rw [hstate]

namespace Sample

/-- A daemon connected to the faster of two servers. -/
def settled : World (.linux log) := step (pair linuxFaults) (.connect (some "Achernar") none)

/-- The same two servers, with the second fetch of the list failing. -/
def flaky : World (.linux log) :=
  world config linuxMachine { outside config pairList pairReply linuxFaults with
    fetch := fun n => if n = 1 then .failed "timed out" else .fetched pairList }

/-- A daemon connected to the faster one that has read its settings again. -/
def reloaded : World (.linux log) :=
  step (step flaky (.connect (some "Achernar") none)) .reload

theorem settled_reachable : Reachable settled :=
  ⟨pair linuxFaults, world_starts config_valid rfl _ _, .next .here trivial⟩

theorem reloaded_reachable : Reachable reloaded :=
  ⟨flaky, world_starts config_valid rfl _ _, .next (.next .here trivial) trivial⟩

/-- The faster one answers every probe within the limit. -/
theorem pair_answers {c : Connection} (h : c.endpoint = ⟨.v4 0x0a000001, 1637⟩) :
    (network pairReply).Answers c.endpoint (.ofMillis config.autotune.maxLatencyMs) := by
  have hreply : pairReply ⟨.v4 0x0a000001, 1637⟩ = some (.ofMillis 20) := rfl
  rw [h]
  exact (network_fixed pairReply).answers hreply (by decide)

end Sample

theorem settled_undisturbed : Undisturbed Sample.settled (step Sample.settled .autotune) := by
  have hconnected : Sample.settled.state.current.map
      (fun c => (c.server, c.endpoint)) = some ("Achernar", ⟨.v4 0x0a000001, 1637⟩) := by
    decide +kernel
  obtain ⟨c, hcurrent, hc⟩ := Option.map_eq_some_iff.mp hconnected
  obtain ⟨hserver, hendpoint⟩ := Prod.mk.inj hc
  have hnetwork : Sample.settled.noted.outside.network = fun _ => Sample.network Sample.pairReply :=
    by with_unfolding_all rfl
  have hlimit : Sample.settled.state.config.autotune.maxLatencyMs =
      Sample.config.autotune.maxLatencyMs := by decide +kernel
  have hlist : Sample.settled.noted.atHand = some Sample.pairList := by with_unfolding_all rfl
  have hport : Sample.settled.noted.state.config.provider.airvpn.port = 1637 := by decide +kernel
  have hget : Sample.pairList.get c.server = some (Sample.server "Achernar" "nl" 0x0a000001 none) := by
    rw [hserver]
    decide +kernel
  have hfinds : Sample.settled.noted.Finds c := by
    refine ⟨_, _, hlist, hget, ?_⟩
    rw [hport, hendpoint]
    decide +kernel
  refine healthy_undisturbed Sample.settled_reachable hcurrent rfl ?_ (.inr (.inr hfinds))
  rw [hnetwork, hlimit]
  exact Sample.pair_answers hendpoint

/-- After a reload, a fetch that fails once and then succeeds makes the pass propose to leave a server
that answers every probe. -/
theorem failed_fetch_disturbs :
    ¬∀ (w u : World (.linux Sample.log)) (op : Op) (c : Connection), Reachable w →
      w.state.current = some c → w.passBegins op = some u →
      (∀ n, (u.outside.network n).Answers c.endpoint
        (.ofMillis w.state.config.autotune.maxLatencyMs)) →
      Undisturbed w (step w op) := by
  intro hquiet
  have hserver : Sample.reloaded.state.current.map Connection.endpoint =
      some ⟨.v4 0x0a000001, 1637⟩ := by decide +kernel
  obtain ⟨c, hcurrent, hendpoint⟩ := Option.map_eq_some_iff.mp hserver
  have hnetwork : Sample.reloaded.noted.outside.network = fun _ => Sample.network Sample.pairReply :=
    by with_unfolding_all rfl
  have hlimit : Sample.reloaded.state.config.autotune.maxLatencyMs =
      Sample.config.autotune.maxLatencyMs := by decide +kernel
  have hdisturbed := hquiet _ _ .autotune c Sample.reloaded_reachable hcurrent rfl fun n => by
    rw [hnetwork, hlimit]
    exact Sample.pair_answers hendpoint
  exact absurd hdisturbed.events (by decide +kernel)

end Vpnmgr
