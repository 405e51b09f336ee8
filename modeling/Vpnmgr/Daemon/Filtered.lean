import Vpnmgr.Daemon.Authority
import Vpnmgr.Daemon.Offer

/-! The servers the daemon chooses by itself. Connecting to the best server, tuning, and carrying out
a proposal point the tunnel only at servers that the lists of the filters in force let pass, in every
run in which the servers keep their countries. -/

namespace Vpnmgr

open Ieee Text Stateful Stateful.Action

variable {P : Platform} {α : Type}

/-! ### What the filters compare -/

/-- The white- and blacklists have nothing against a name and a country: whatever the rules exclude
under them, they exclude for its load. -/
def Ruleset.ListsPass (r : Ruleset) (name countryCode : String) : Prop :=
  ∀ load reason, r.judge name countryCode load = some reason → reason = .loadTooHigh load r.maxLoad

theorem Ruleset.listsPass_of_accepts {r : Ruleset} {name countryCode : String} {load : Nat}
    (h : r.accepts name countryCode load = true) : r.ListsPass name countryCode := by
  intro other reason hother
  simp only [accepts, judge, Option.isNone_iff_eq_none] at h hother
  split at h
  · cases h
  · next h1 =>
    split at h
    · cases h
    · next h2 =>
      split at h
      · cases h
      · next h3 =>
        split at h
        · cases h
        · next h4 =>
          rw [if_neg h1, if_neg h2, if_neg h3, if_neg h4] at hother
          split at hother
          · cases hother
            rfl
          · cases hother

theorem Ruleset.listsPass_congr {r : Ruleset} {name name' countryCode : String}
    (h : eqIgnoreAsciiCase name name' = true) :
    r.ListsPass name countryCode ↔ r.ListsPass name' countryCode := by
  unfold ListsPass judge
  rw [lower_congr h]

theorem Ruleset.load_of_accepts {r : Ruleset} {name countryCode : String} {load : Nat}
    (h : r.accepts name countryCode load = true) : load ≤ r.maxLoad := by
  by_contra hover
  simp only [accepts, judge, Option.isNone_iff_eq_none] at h
  split_ifs at h
  exact hover (by omega)

/-! ### Lists that keep the countries -/

/-- The list gives each name the country of the map, with names told apart as the lookup does. -/
def ServerList.Maps (country : String → String) (list : ServerList) : Prop :=
  ∀ s ∈ list.servers, s.countryCode = country (toAsciiLowercase s.name)

/-- So does the list at hand, and every one still to be fetched. -/
structure World.Maps (country : String → String) (w : World P) : Prop where
  cached : ∀ list t, w.state.servers = some (list, t) → list.Maps country
  fetched : ∀ n list, w.outside.fetch n = .fetched list → list.Maps country

/-- The countries stay as they are. -/
def StaysMapped (country : String → String) (w w' : World P) : Prop :=
  w.Maps country → w'.Maps country

instance (country : String → String) : IsPreorder (World P) (StaysMapped country) :=
  inferInstanceAs (IsPreorder (World P) fun w w' => w.Maps country → w'.Maps country)

section Mapped

variable {country : String → String}

theorem now_mapped : Within (StaysMapped country) (now : Daemon P Instant) :=
  fun _ hw => ⟨hw.cached, hw.fetched⟩

theorem elapsed_mapped (at_ : Instant) :
    Within (StaysMapped country) (elapsed at_ : Daemon P Duration) :=
  Within.bind now_mapped fun _ => Within.pure _

theorem modify_mapped {f : State P → State P} (hservers : ∀ s, (f s).servers = s.servers) :
    Within (StaysMapped country) (modify f : Daemon P Unit) :=
  Within.update fun w hw =>
    ⟨fun l t h => hw.cached l t ((hservers w.state).symm.trans h), hw.fetched⟩

theorem nextNetwork_mapped : Within (StaysMapped country) (nextNetwork : Daemon P Network) :=
  fun _ hw => ⟨hw.cached, hw.fetched⟩

theorem refresh_mapped : Within (StaysMapped country) (refresh : Daemon P Unit) := by
  intro w hw
  have hnext : nextFetch w = (.ok (w.outside.fetch 0), after nextFetch w) := rfl
  have hv : (after nextFetch w).Maps country := ⟨hw.cached, fun n => hw.fetched (n + 1)⟩
  generalize after nextFetch w = v at hnext hv
  rw [refresh, bind_run_ok hnext]
  cases hfetch : w.outside.fetch 0 with
  | noClient reason => exact hv
  | fetched list =>
    refine ⟨fun l t hl => ?_, hv.fetched⟩
    cases hl
    exact hw.fetched 0 _ hfetch
  | failed reason =>
    dsimp only
    rw [self, read_bind]
    cases v.state.servers with
    | none => exact hv
    | some cached => exact hv

theorem refreshIfStale_mapped : Within (StaysMapped country) (refreshIfStale : Daemon P Unit) := by
  refine Within.bind (Within.read _) fun s => Within.bind ?_ fun stale =>
    Within.ite refresh_mapped (Within.pure _)
  cases s.servers with
  | none => exact Within.pure _
  | some cached => exact Within.bind (elapsed_mapped _) fun _ => Within.pure _

theorem serverList_mapped : Within (StaysMapped country) (serverList : Daemon P ServerList) := by
  refine Within.bind refreshIfStale_mapped fun _ => Within.bind (Within.read _) fun s => ?_
  cases s.servers with
  | none => exact Within.fail _
  | some cached => exact Within.pure _

/-- Whatever list is at hand keeps the countries. -/
theorem serverList_maps {list : ServerList} {w v : World P} (hw : w.Maps country)
    (h : serverList w = (.ok list, v)) : list.Maps country := by
  obtain ⟨_, u, hrefresh, h⟩ := bind_ok h
  have hu := refreshIfStale_mapped.run hrefresh hw
  rw [cachedList, self, read_bind] at h
  cases hservers : u.state.servers with
  | none =>
    rw [hservers] at h
    cases h
  | some cached =>
    rw [hservers] at h
    cases h
    exact hu.cached _ _ hservers

theorem probeCurrent_mapped (name : String) :
    Within (StaysMapped country) (probeCurrent name : Daemon P (Option F64)) :=
  probeCurrent_within serverList_mapped nextNetwork_mapped name

theorem sweep_mapped (code : Option String) :
    Within (StaysMapped country) (sweep code : Daemon P (List RankedServer)) :=
  sweep_within serverList_mapped now_mapped nextNetwork_mapped
    (fun _ => modify_mapped fun _ => rfl) (fun _ => modify_mapped fun _ => rfl) code

theorem assess_mapped (current : Connection) (currentRtt : Option F64) (ranked : List RankedServer) :
    Within (StaysMapped country) (assess current currentRtt ranked : Daemon P Tuner.Assessment) :=
  assess_within now_mapped current currentRtt ranked

/-- A server that is looked up has the name asked for, and the country of its name. -/
theorem probeNamed_maps {name : String} {chosen : RankedServer} {w v : World P}
    (hw : w.Maps country) (h : probeNamed name w = (.ok chosen, v)) :
    eqIgnoreAsciiCase chosen.name name = true ∧
      chosen.countryCode = country (toAsciiLowercase chosen.name) := by
  obtain ⟨list, u, server, hlist, hget, hplace⟩ := probeNamed_ok h
  obtain ⟨hname, hrest⟩ := Prod.mk.inj hplace
  have hfound : eqIgnoreAsciiCase server.name name = true := ServerList.get_name hget
  rw [hname, (Prod.mk.inj hrest).1]
  exact ⟨hfound, serverList_maps hw hlist server (List.mem_of_find?_eq_some hget)⟩

end Mapped

/-! ### The proposal under the filters in force -/

/-- The filters in force accept the target of the proposal, and it has the country of its name. -/
def World.Pledged (country : String → String) (w : World P) : Prop :=
  ∀ p, w.state.pending = some p →
    w.state.accepts p.1 ∧ p.1.countryCode = country (toAsciiLowercase p.1.name)

/-- The filters stay, and so does the proposal unless it is dropped. -/
structure Retains (w w' : World P) : Prop where
  filters : w'.state.config.filters = w.state.config.filters
  pending : w'.state.pending = w.state.pending ∨ w'.state.pending = none

instance : IsPreorder (World P) Retains where
  refl _ := ⟨rfl, .inl rfl⟩
  trans _ _ _ h₁ h₂ := by
    refine ⟨h₂.filters.trans h₁.filters, ?_⟩
    rcases h₂.pending with h | h
    · exact h₁.pending.imp h.trans h.trans
    · exact .inr h

theorem Operates.retains {w w' : World P} (h : Operates w w') : Retains w w' :=
  ⟨congrArg Config.filters h.config, .inl h.pending⟩

theorem Measures.retains {w w' : World P} (h : Measures w w') : Retains w w' := h.operates.retains

theorem modify_retains {f : State P → State P}
    (hfilters : ∀ s, (f s).config.filters = s.config.filters)
    (hpending : ∀ s, (f s).pending = s.pending ∨ (f s).pending = none) :
    Within Retains (modify f : Daemon P Unit) :=
  Within.update fun w => ⟨hfilters w.state, hpending w.state⟩

theorem dismiss_retains : Within Retains (dismiss : Daemon P String) := by
  refine Within.bind (Within.read _) fun s => ?_
  cases s.pending with
  | none => exact Within.fail _
  | some pending =>
    refine Within.bind (modify_retains (fun _ => rfl) fun _ => .inr rfl) fun _ => ?_
    refine Within.bind (Within.bind (Within.read _) fun s => ?_) fun _ =>
      Within.bind (modify_retains (fun _ => rfl) fun _ => .inl rfl) fun _ => Within.pure _
    cases s.current with
    | none => exact Within.pure _
    | some current =>
      exact Within.bind (fun w => (now_fetches w).toMeasures.retains) fun t =>
        modify_retains (fun _ => rfl) fun _ => .inl rfl

theorem approve_retains : Within Retains (approve : Daemon P RankedServer) := by
  refine Within.bind (Within.read _) fun s => ?_
  cases s.pending with
  | none => exact Within.fail _
  | some pending =>
    refine Within.bind (modify_retains (fun _ => rfl) fun _ => .inr rfl) fun _ => ?_
    refine Within.bind ((switch_operates _).mono fun _ _ => Operates.retains) fun moved => ?_
    exact Within.bind (modify_retains (fun _ => rfl) fun _ => .inl rfl) fun _ => Within.pure _

theorem killswitch_retains (enable : Option Bool) :
    Within Retains (killswitch enable : Daemon P KillswitchReport) := by
  refine Within.bind ?_ fun _ =>
    Within.bind (Within.read _) fun m => Within.bind (Within.read _) fun s => Within.pure _
  have hset : ∀ on, Within Retains (modify fun s => s.setKillswitch on : Daemon P Unit) :=
    fun on => modify_retains (fun _ => rfl) fun _ => .inl rfl
  match enable with
  | none => exact Within.pure _
  | some true =>
    refine Within.bind (Within.read _) fun s => Within.bind (fun _ => ⟨rfl, .inl rfl⟩) fun fault => ?_
    exact Within.bind (fun _ => ⟨rfl, .inl rfl⟩) fun _ => hset _
  | some false =>
    refine Within.bind (fun _ => ⟨rfl, .inl rfl⟩) fun fault => ?_
    exact Within.bind (fun _ => ⟨rfl, .inl rfl⟩) fun _ => hset _

section Pledges

variable {country : String → String}

theorem World.pledged_of_none {w : World P} (h : w.state.pending = none) : w.Pledged country :=
  fun p hp => by cases h.symm.trans hp

theorem Retains.pledged {w w' : World P} (h : Retains w w') (hw : w.Pledged country) :
    w'.Pledged country := by
  rcases h.pending with hkept | hnone
  · intro p hp
    rw [State.accepts, h.filters]
    exact hw p (hkept.symm.trans hp)
  · exact World.pledged_of_none hnone

/-- The ranking of a sweep holds servers that the filters accept, each with the country of its
name. -/
theorem sweep_pledges {ranking : List RankedServer} {w v : World P} (hw : w.Maps country)
    (h : sweep none w = (.ok ranking, v)) : ∀ r ∈ ranking,
      w.state.accepts r ∧ r.countryCode = country (toAsciiLowercase r.name) := by
  obtain ⟨list, u, t, hlist, rfl, _⟩ := sweep_ok h
  intro r hr
  refine ⟨State.ranks_accepts hr, ?_⟩
  obtain ⟨m, hm, _, hplace⟩ := State.ranks_place hr
  obtain ⟨hname, hrest⟩ := Prod.mk.inj hplace
  rw [hname, (Prod.mk.inj hrest).1]
  exact serverList_maps hw hlist _ (Filters.mem_accepted.mp (Prober.mem_sweep hm)).1

theorem record_pledged {decision : Tuner.Decision} {w : World P}
    (h : ∀ best reason, decision = .propose best reason →
      w.state.accepts best ∧ best.countryCode = country (toAsciiLowercase best.name)) :
    (after (record decision) w).Pledged country := by
  have hset : (after (setPending decision) w).Pledged country := by
    cases decision with
    | propose best reason =>
      intro p hp
      cases hp
      exact h best reason rfl
    | _ => exact World.pledged_of_none rfl
  have hrest := record_within (R := Retains) (fun _ _ h => h.toMeasures.retains)
    (fun _ => modify_retains (fun _ => rfl) fun _ => .inl rfl) decision w
  exact hrest.pledged hset

theorem tuneDegraded_pledged {current : Connection} {currentRtt : Option F64} {w : World P}
    (hmaps : w.Maps country) (hw : w.Pledged country) :
    (after (tuneDegraded current currentRtt) w).Pledged country := by
  have hmeasures := sweep_measures none w
  rcases h : sweep none w with ⟨e | ranked, v⟩
  · rw [h] at hmeasures
    rw [after, tuneDegraded, attempt_bind, h]
    cases e with
    | allUnreachable probed => exact record_pledged (by rintro _ _ ⟨⟩)
    | _ => exact hmeasures.retains.pledged hw
  · rw [h] at hmeasures
    obtain ⟨_, _, -, hrun⟩ := tuneDegraded_swept current currentRtt h
    have hfetches : Fetches v (after (assess current currentRtt ranked) v) := assess_fetches _ _ _ v
    generalize after (assess current currentRtt ranked) v = u at hfetches hrun
    have hswept := hmeasures.trans hfetches.toMeasures
    rw [after, hrun]
    dsimp only
    generalize hdecision : Tuner.decide _ _ = decision
    have hfollow : Operates u (after (followDecision decision) u) :=
      followDecision_within switch_operates decision u
    rcases hrun : followDecision decision u with ⟨e | _, v'⟩
    · rw [after, hrun] at hfollow
      rw [bind_run_error hrun]
      exact hfollow.retains.pledged (hswept.retains.pledged hw)
    · rw [after, hrun] at hfollow
      rw [bind_run_ok hrun]
      refine record_pledged fun best reason hpropose => ?_
      subst hpropose
      have hbest : ranked.head? = some best :=
        Tuner.decide_target (congrArg Tuner.Decision.target hdecision)
      rw [State.accepts_congr (hfollow.config.trans hswept.config)]
      exact sweep_pledges hmaps h best (List.mem_of_mem_head? hbest)

theorem tune_pledged {w : World P} (hmaps : w.Maps country) (hw : w.Pledged country) :
    (after tune w).Pledged country := by
  cases hcurrent : w.state.current with
  | none =>
    have hrun : tune w = record .notConnected w := by rw [tune, self, read_bind, hcurrent]
    rw [after, hrun]
    exact record_pledged (by rintro _ _ ⟨⟩)
  | some current =>
    have hprobed := probeCurrent_samples current.server w
    have hmapped : (after (probeCurrent current.server) w).Maps country :=
      probeCurrent_mapped current.server w hmaps
    obtain ⟨currentRtt, hprobe⟩ := probeCurrent_returns current.server w
    rw [after, hprobe] at hmapped
    rw [hprobe] at hprobed
    generalize after (probeCurrent current.server) w = v at hprobe hprobed hmapped
    cases hfast : v.state.isFast currentRtt with
    | true =>
      obtain ⟨rttMs, rfl, _⟩ := (Option.any_eq_true _ _).mp hfast
      rw [after, tune_fast hcurrent hprobe hfast]
      exact record_pledged (by rintro _ _ ⟨⟩)
    | false =>
      rw [after, tune_slow hcurrent hprobe hfast]
      exact tuneDegraded_pledged hmapped (hprobed.toMeasures.retains.pledged hw)

/-- Reading the settings again keeps the proposal only where they accept it. -/
theorem reload_pledged {w : World P} (hw : w.Pledged country) :
    (after reload w).Pledged country := by
  rcases hload : loadDisk w with ⟨e | ⟨config, client⟩, v⟩
  · have hrun : reload w = (.error e, v) := bind_run_error hload
    rw [after, hrun]
    exact (loadDisk_operates.run hload).retains.pledged hw
  · have hrun : reload w = _ := bind_run_ok hload
    rw [after, hrun]
    intro p hp
    obtain ⟨hkept, haccepts⟩ := Option.filter_eq_some_iff.mp hp
    exact ⟨haccepts, (hw p ((loadDisk_operates.run hload).pending.symm.trans hkept)).2⟩

theorem World.Maps.noted {w : World P} (h : w.Maps country) : w.noted.Maps country :=
  ⟨h.cached, h.fetched⟩

theorem step_pledged (w : World P) (op : Op) (hmaps : w.Maps country) (hw : w.Pledged country) :
    (step w op).Pledged country := by
  have hautotune : ∀ v : World P, v.Maps country → v.Pledged country →
      (after autotune v).Pledged country := fun v hv hpledged => tune_pledged hv.noted hpledged
  cases op with
  | connect server measure => exact (connect_operates _ _ w).retains.pledged hw
  | disconnect => exact (disconnect_steers w).operates.retains.pledged hw
  | switch server => exact (switch_operates _ w).retains.pledged hw
  | test country => exact (sweep_measures _ w).retains.pledged hw
  | servers country limit all => exact (servers_fetches _ _ _ w).toMeasures.retains.pledged hw
  | reload => exact reload_pledged hw
  | autotune => exact hautotune w hmaps hw
  | approve => exact (approve_retains w).pledged hw
  | dismiss => exact (dismiss_retains w).pledged hw
  | speedtest => exact (speedtest_samples w).toMeasures.retains.pledged hw
  | baseline confirm =>
    cases confirm with
    | false => exact hw
    | true => exact (baseline_operates w).retains.pledged hw
  | killswitch enable => exact (killswitch_retains _ w).pledged hw
  | scheduledPass =>
    have hnow : (after now w).Pledged country := (now_fetches w).toMeasures.retains.pledged hw
    rw [step, after_scheduledPass]
    split
    · exact hautotune _ (now_mapped w hmaps) hnow
    · exact hnow

end Pledges

/-! ### Where the tunnel is pointed -/

/-- What leads from `w` to `w'` leaves the settings and the tunnel alone, or points the tunnel at an
allowed server, again and again. -/
inductive Points (allowed : RankedServer → Prop) : World P → World P → Prop where
  | idle {w w' : World P} : Idles w w' → Points allowed w w'
  | establish {w : World P} {chosen : RankedServer} :
    allowed chosen → Points allowed w (after (establish chosen) w)
  | moveTo {w : World P} {chosen : RankedServer} :
    allowed chosen → Points allowed w (after (moveTo chosen) w)
  | trans {w v u : World P} : Points allowed w v → Points allowed v u → Points allowed w u

instance (allowed : RankedServer → Prop) : IsPreorder (World P) (Points allowed) where
  refl w := .idle (refl_of Idles w)
  trans _ _ _ := .trans

/-- The lists of the filters in force let the server pass. -/
def World.Permits (w : World P) (r : RankedServer) : Prop :=
  (Ruleset.new w.state.config.filters).ListsPass r.name r.countryCode

/-- The list that a sweep from `u` filters has a server of this name, healthy and within the load
limit. -/
def World.Sifts (u : World P) (r : RankedServer) : Prop :=
  ∃ list v, serverList u = (.ok list, v) ∧ ∃ server ∈ list.servers,
    eqIgnoreAsciiCase r.name server.name = true ∧ server.isHealthy = true ∧
      server.load ≤ u.state.config.filters.maxLoad

/-- The server that a pass from `w` may move to. -/
def World.PassAllows (w : World P) (r : RankedServer) : Prop :=
  w.Permits r ∧ ∃ current, w.state.current = some current ∧
    (after (probeCurrent current.server) w).Sifts r

/-- The servers that an operation which chooses by itself may point the tunnel at. -/
def World.Allows (w : World P) : Op → Option (RankedServer → Prop)
  | .connect none measureFirst => some fun r =>
    w.Permits r ∧ (after (calibrate (w.state.shouldMeasure measureFirst)) w).Sifts r
  | .autotune => some w.noted.PassAllows
  | .scheduledPass => some (after now w).noted.PassAllows
  | .approve => some w.Permits
  | _ => none

theorem points_of_measures {allowed : RankedServer → Prop} (w w' : World P) (h : Measures w w') :
    Points allowed w w' := .idle h.idles

/-- What a sweep ranks it may be pointed at. -/
theorem sweep_sifts {ranking : List RankedServer} {u v : World P}
    (h : sweep none u = (.ok ranking, v)) : ∀ r ∈ ranking, u.Permits r ∧ u.Sifts r := by
  obtain ⟨list, x, t, hlist, rfl, _⟩ := sweep_ok h
  intro r hr
  refine ⟨Ruleset.listsPass_of_accepts (State.ranks_accepts hr), list, x, hlist, ?_⟩
  obtain ⟨m, hm, _, hplace⟩ := State.ranks_place hr
  obtain ⟨hmem, hhealthy, haccepts⟩ := Filters.mem_accepted.mp (Prober.mem_sweep hm)
  have hname : r.name = m.server.name := (Prod.mk.inj hplace).1
  refine ⟨m.server, hmem, ?_, hhealthy, Ruleset.load_of_accepts haccepts⟩
  rw [hname, eqIgnoreAsciiCase]
  exact BEq.rfl

/-- Connecting to the best server points the tunnel at ranked servers only. -/
theorem connect_points {allowed : RankedServer → Prop} {measureFirst : Option Bool} {w : World P}
    (h : ∀ ranked v, rankForConnect measureFirst w = (.ok ranked, v) → ∀ r ∈ ranked, allowed r) :
    Points allowed w (after (connect none measureFirst) w) := by
  rw [after, connect, self, read_bind]
  cases hcurrent : w.state.current with
  | some current => exact refl_of (Points allowed) w
  | none =>
    exact connectBest_within (.of_samples fun w w' h => points_of_measures w w' h.toMeasures)
      (fun _ => .idle ⟨rfl, rfl, rfl, rfl, rfl, [], rfl⟩) (fun _ h _ => .moveTo h)
      ((sweep_measures none).mono points_of_measures) (fun _ _ h _ => .establish h) _ hcurrent h

/-- Switching points the tunnel at the server it looked up. -/
theorem switch_points {allowed : RankedServer → Prop} {name : String} {w : World P}
    (h : ∀ chosen v, probeNamed name w = (.ok chosen, v) → allowed chosen) :
    Points allowed w (after (switch name) w) := by
  rw [after, switch, self, read_bind]
  split
  · exact refl_of (Points allowed) w
  · refine Within.bind_at (points_of_measures _ _ (probeNamed_samples name w).toMeasures)
      fun chosen v hprobe => ?_
    have hmoved : ((do
        retarget chosen
        modify fun s => { s with dismissed := none, current := some (.of chosen) }
        pure chosen : Daemon P RankedServer) v).2 =
        ((do
          moveTo chosen
          modify fun s => { s with dismissed := none } : Daemon P Unit) v).2 := by
      rw [moveTo, bind_bind]
      rcases hretarget : retarget chosen v with ⟨e | _, u⟩
      · rw [bind_run_error hretarget, bind_run_error hretarget]
      · rw [bind_run_ok hretarget, bind_run_ok hretarget]
        rfl
    rw [hmoved]
    refine Within.bind_at (Points.moveTo (h chosen v hprobe)) fun _ u _ => ?_
    exact .idle ⟨rfl, rfl, rfl, rfl, rfl, [], rfl⟩

section Chosen

variable {country : String → String}

/-- A server that is looked up by the name of a permitted one is permitted, as it has its country. -/
theorem World.Permits.of_name {w x y : World P} {target chosen : RankedServer}
    (h : w.Permits target) (hcountry : target.countryCode = country (toAsciiLowercase target.name))
    (hx : x.Maps country) (hchosen : probeNamed target.name x = (.ok chosen, y)) :
    w.Permits chosen := by
  obtain ⟨hname, hits⟩ := probeNamed_maps hx hchosen
  have hsame : toAsciiLowercase chosen.name = toAsciiLowercase target.name := eq_of_beq hname
  rw [World.Permits, Ruleset.listsPass_congr hname, hits, hsame, ← hcountry]
  exact h

theorem World.Sifts.of_name {u : World P} {target chosen : RankedServer} (h : u.Sifts target)
    (hname : eqIgnoreAsciiCase chosen.name target.name = true) : u.Sifts chosen := by
  obtain ⟨list, v, hlist, server, hmem, hserver, hrest⟩ := h
  refine ⟨list, v, hlist, server, hmem, ?_, hrest⟩
  rw [eqIgnoreAsciiCase, eq_of_beq hname]
  exact hserver

/-- A pass points the tunnel at no server but one of the name of the best of its sweep. -/
theorem tune_points {w : World P} (hmaps : w.Maps country) :
    Points w.PassAllows w (after tune w) := by
  rcases tune_cases w with ⟨hidles, _⟩ | ⟨target, reason, x, _, horders, hrun⟩
  · exact .idle hidles
  · have hmeasures := horders.measures
    obtain ⟨current, rtt, v, ranked, u, assessment, hcurrent, hprobe, hsweep, hassess, hdecision⟩ :=
      horders
    have hv := (probeCurrent_mapped current.server).run hprobe hmaps
    have hx := (assess_mapped current rtt ranked).run hassess ((sweep_mapped none).run hsweep hv)
    have hbest : ranked.head? = some target := by
      obtain ⟨probed, declined, hassessed⟩ := assess_run current rtt ranked u
      have hsame := Except.ok.inj (congrArg Prod.fst (hassess.symm.trans hassessed))
      rw [hsame] at hdecision
      exact Tuner.decide_target (congrArg Tuner.Decision.target hdecision)
    have hmem := List.mem_of_mem_head? hbest
    obtain ⟨hpermits, hsifts⟩ := sweep_sifts hsweep target hmem
    have hcountry := (sweep_pledges hv hsweep target hmem).2
    have hwhole : Points w.PassAllows w (after (do
        let _ ← switch target.name
        record (.switch target reason) : Daemon P TuneReport) x) := by
      refine trans_of (Points _) (points_of_measures _ _ hmeasures) (Within.bind_at
        (switch_points fun chosen y hchosen => ?_) fun _ y _ => .idle (record_idles _ y))
      have hfiltered : after (probeCurrent current.server) w = v := congrArg Prod.snd hprobe
      rw [World.Permits, ((probeCurrent_samples _).run hprobe).config] at hpermits
      refine ⟨World.Permits.of_name (w := w) hpermits hcountry hx hchosen, current, hcurrent, ?_⟩
      rw [hfiltered]
      exact hsifts.of_name (probeNamed_maps hx hchosen).1
    rw [after, hrun]
    exact hwhole

theorem autotune_points {w : World P} (hmaps : w.Maps country) :
    Points w.noted.PassAllows w (after autotune w) := by
  have hidle : Idles w w.noted := ⟨rfl, rfl, rfl, rfl, rfl, [], rfl⟩
  have hrun : after autotune w = after tune w.noted := rfl
  rw [hrun]
  exact .trans (.idle hidle) (tune_points hmaps.noted)

/-- Approving points the tunnel at the server of the proposal. -/
theorem approve_points {w : World P} (hmaps : w.Maps country) (hw : w.Pledged country) :
    Points w.Permits w (after approve w) := by
  rw [after, approve, self, read_bind]
  cases hpending : w.state.pending with
  | none => exact refl_of (Points _) w
  | some p =>
    obtain ⟨haccepts, hcountry⟩ := hw p hpending
    refine Within.bind_at (.idle ⟨rfl, rfl, rfl, rfl, rfl, [], rfl⟩) fun _ v hv => ?_
    cases hv
    refine Within.bind_at (switch_points fun chosen y hchosen => ?_) fun moved y _ =>
      .idle ⟨rfl, rfl, rfl, rfl, rfl, [], rfl⟩
    have hx : ({ w with state := { w.state with pending := none } } : World P).Maps country :=
      ⟨hmaps.cached, hmaps.fetched⟩
    exact World.Permits.of_name (Ruleset.listsPass_of_accepts haccepts) hcountry hx hchosen

/-- In every run in which the servers keep their countries, whatever chooses a server by itself points
the tunnel only at servers it is allowed. -/
theorem chosen_allowed {w : World P} (h : ReachableBy (fun w _ => w.Maps country) w)
    (hmaps : w.Maps country) {op : Op} {allowed : RankedServer → Prop}
    (hop : w.Allows op = some allowed) : Points allowed w (step w op) := by
  have hpledged : w.Pledged country := by
    refine h.holds (fun start hs => World.pledged_of_none ?_) fun w op hw => step_pledged w op hw
    obtain ⟨disk, config, client, _, _, hloaded⟩ := hs.loads
    rw [hloaded]
    rfl
  cases op with
  | connect server measureFirst =>
    cases server with
    | some name => cases hop
    | none =>
      cases hop
      refine connect_points fun ranked v hrank r hr => ?_
      obtain ⟨_, _, hself, hrank⟩ := bind_ok hrank
      cases hself
      obtain ⟨_, u, hcalibrate, hsweep⟩ := bind_ok hrank
      have hu : after (calibrate (w.state.shouldMeasure measureFirst)) w = u :=
        congrArg Prod.snd hcalibrate
      obtain ⟨hpermits, hsifts⟩ := sweep_sifts hsweep r hr
      rw [World.Permits, ((calibrate_samples _).run hcalibrate).config] at hpermits
      rw [hu]
      exact ⟨hpermits, hsifts⟩
  | autotune =>
    cases hop
    exact autotune_points hmaps
  | scheduledPass =>
    cases hop
    have hnow := (now_fetches w).toMeasures
    have hmapped : (after now w).Maps country := now_mapped w hmaps
    rw [step, after_scheduledPass]
    change Measures w (after now w) at hnow
    generalize after now w = v at hnow hmapped ⊢
    refine trans_of (Points _) (points_of_measures _ _ hnow) ?_
    split
    · exact autotune_points hmapped
    · exact refl_of (Points _) v
  | approve =>
    cases hop
    exact approve_points hmaps hpledged
  | _ => cases hop

end Chosen

theorem dutch_connect_allowed : ∃ allowed, Sample.dutch.Allows (.connect none none) = some allowed ∧
    Points allowed Sample.dutch (step Sample.dutch (.connect none none)) := by
  have hmaps : Sample.dutch.Maps fun key => if key = "achernar" then "nl" else "ca" := by
    refine ⟨fun _ _ h => (by cases h), fun n list h => ?_⟩
    cases h
    unfold ServerList.Maps
    decide +kernel
  exact ⟨_, rfl, chosen_allowed ⟨_, Sample.dutch_starts, .here⟩ hmaps rfl⟩

end Vpnmgr
