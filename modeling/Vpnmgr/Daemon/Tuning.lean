import Vpnmgr.Daemon.Proposal
import Mathlib.Logic.Function.Iterate

/-! Consecutive passes against a network that does not change. A server that a pass has left is not
returned to as long as every move goes upwards in the ranking of what all endpoints answer. A pass
ranks without the connected endpoint, so its move need not go upwards. -/

namespace Vpnmgr

open Ieee Stateful Stateful.Action

variable {P : Platform} {α : Type} {reply : SocketAddr → Option Duration} {list : ServerList}

/-- Every probe of an endpoint is answered alike, and the server list is the same whenever it is
asked for: a request for it that fails finds it in the cache. -/
structure World.FixedBy (reply : SocketAddr → Option Duration) (list : ServerList) (w : World P) :
    Prop where
  network : ∀ n, (w.outside.network n).Fixed reply
  cached : ∀ l t, w.state.servers = some (l, t) → l = list
  fetch : ∀ n, w.outside.fetch n = .fetched list ∨
    w.state.servers.isSome = true ∧ ∃ reason, w.outside.fetch n = .failed reason

/-- What the ranking depends on stays as it is, and the network stays fixed. -/
structure Tunes (reply : SocketAddr → Option Duration) (list : ServerList) (w w' : World P) :
    Prop where
  config : w'.state.config = w.state.config
  directMbps : w'.state.directMbps = w.state.directMbps
  fixed : w.FixedBy reply list → w'.FixedBy reply list

instance : IsPreorder (World P) (Tunes reply list) where
  refl _ := ⟨rfl, rfl, id⟩
  trans _ _ _ h₁ h₂ :=
    ⟨h₂.config.trans h₁.config, h₂.directMbps.trans h₁.directMbps, h₂.fixed ∘ h₁.fixed⟩

theorem now_tunes : Within (Tunes reply list) (now : Daemon P Instant) :=
  fun _ => ⟨rfl, rfl, fun hw => ⟨hw.network, hw.cached, hw.fetch⟩⟩

theorem elapsed_tunes (at_ : Instant) :
    Within (Tunes reply list) (elapsed at_ : Daemon P Duration) :=
  Within.bind now_tunes fun _ => Within.pure _

theorem modify_tunes {f : State P → State P} (hconfig : ∀ s, (f s).config = s.config)
    (hdirect : ∀ s, (f s).directMbps = s.directMbps) (hservers : ∀ s, (f s).servers = s.servers) :
    Within (Tunes reply list) (modify f : Daemon P Unit) :=
  Within.update fun w => ⟨hconfig w.state, hdirect w.state, fun hw =>
    ⟨hw.network, fun l t h => hw.cached l t ((hservers w.state).symm.trans h), fun n => by
      rw [hservers]
      exact hw.fetch n⟩⟩

/-! ### What is fetched and measured of a fixed network -/

/-- A request for the list leaves it in the cache. -/
theorem refresh_fixed {w : World P} (hw : w.FixedBy reply list) :
    ∃ v, refresh w = (.ok (), v) ∧ v.FixedBy reply list ∧ v.state.servers.isSome = true := by
  have hnext : nextFetch w = (.ok (w.outside.fetch 0), after nextFetch w) := rfl
  have hservers : (after nextFetch w).state.servers = w.state.servers := rfl
  have hv : (after nextFetch w).FixedBy reply list :=
    ⟨hw.network, hw.cached, fun n => hw.fetch (n + 1)⟩
  generalize after nextFetch w = v at hnext hservers hv
  rcases hw.fetch 0 with h | ⟨hsome, reason, h⟩
  · rw [h] at hnext
    have hu := (now_tunes v).fixed hv
    refine ⟨_, (bind_run_ok hnext).trans rfl, ⟨hu.network, fun l t hl => ?_, fun n => ?_⟩, rfl⟩
    · cases hl
      rfl
    · exact (hu.fetch n).imp_right fun hfailed => ⟨rfl, hfailed.2⟩
  · rw [h] at hnext
    obtain ⟨cached, hcached⟩ := Option.isSome_iff_exists.mp hsome
    refine ⟨v, (bind_run_ok hnext).trans ?_, hv, by rw [hservers, hsome]⟩
    dsimp only
    rw [self, read_bind, hservers, hcached]
    rfl

theorem refreshIfStale_fixed {w : World P} (hw : w.FixedBy reply list) :
    ∃ v, refreshIfStale w = (.ok (), v) ∧ v.FixedBy reply list ∧ v.state.servers.isSome = true := by
  rw [refreshIfStale, self, read_bind]
  cases hservers : w.state.servers with
  | none => exact refresh_fixed hw
  | some cached =>
    have hnow : (now w).2.FixedBy reply list := (now_tunes w).fixed hw
    have hrun : (isStale (some cached) >>= fun stale => if stale then refresh else pure ()) w =
        (if decide (serverCacheTtl < (now w).2.clock - cached.2) then refresh else pure () :
          Daemon P Unit) (now w).2 := rfl
    rw [hrun]
    split
    · exact refresh_fixed hnow
    · exact ⟨_, rfl, hnow, by rw [show (now w).2.state.servers = _ from hservers]; rfl⟩

theorem serverList_fixed {w : World P} (hw : w.FixedBy reply list) :
    ∃ v, serverList w = (.ok list, v) ∧ v.FixedBy reply list := by
  obtain ⟨v, hrefresh, hv, hsome⟩ := refreshIfStale_fixed hw
  obtain ⟨⟨l, t⟩, hcached⟩ := Option.isSome_iff_exists.mp hsome
  refine ⟨v, (bind_run_ok hrefresh).trans ?_, hv⟩
  rw [cachedList, self, read_bind, hcached]
  rw [hv.cached l t hcached]
  rfl

theorem serverList_tunes : Within (Tunes reply list) (serverList : Daemon P ServerList) := by
  intro w
  have hfetches := serverList_fetches w
  refine ⟨hfetches.config, hfetches.directMbps, fun hw => ?_⟩
  obtain ⟨v, hrun, hv⟩ := serverList_fixed hw
  rw [hrun]
  exact hv

theorem nextNetwork_tunes : Within (Tunes reply list) (nextNetwork : Daemon P Network) :=
  fun _ => ⟨rfl, rfl, fun hw => ⟨fun n => hw.network (n + 1), hw.cached, hw.fetch⟩⟩

theorem probeNamed_tunes (name : String) :
    Within (Tunes reply list) (probeNamed name : Daemon P RankedServer) :=
  probeNamed_within serverList_tunes now_tunes nextNetwork_tunes name

theorem probeCurrent_tunes (name : String) :
    Within (Tunes reply list) (probeCurrent name : Daemon P (Option F64)) :=
  probeCurrent_within serverList_tunes nextNetwork_tunes name

theorem sweep_tunes (country : Option String) :
    Within (Tunes reply list) (sweep country : Daemon P (List RankedServer)) :=
  sweep_within serverList_tunes now_tunes nextNetwork_tunes
    (fun _ => modify_tunes (fun _ => rfl) (fun _ => rfl) fun _ => rfl)
    (fun _ => modify_tunes (fun _ => rfl) (fun _ => rfl) fun _ => rfl) country

/-- The time of a server in milliseconds, where every one of its endpoints is probed. -/
def timeOf (reply : SocketAddr → Option Duration) (list : ServerList) (port : UInt16)
    (name : String) : Option F64 :=
  (list.get name).bind fun server =>
    (server.fastest reply wgEntries port).map fun best => best.2.2.asSecsF64 * 1000

/-- Measuring the server in use probes every endpoint it has. -/
theorem probeCurrent_fixed {w : World P} {name : String} (hw : w.FixedBy reply list)
    (hsamples : 0 < w.state.config.probe.samples) : ∃ v, probeCurrent name w =
      (.ok (timeOf reply list w.state.config.provider.airvpn.port name), v) := by
  obtain ⟨v, hlist, hv⟩ := serverList_fixed hw
  have hattempt : (attempt serverList : Daemon P (Except Error ServerList)) w =
      (.ok (.ok list), v) := by rw [attempt_run, hlist]
  rw [probeCurrent, self, read_bind, timeOf, bind_run_ok hattempt]
  dsimp only
  cases list.get name with
  | none => exact ⟨v, rfl⟩
  | some server =>
    have hnet : nextNetwork v = (.ok (v.outside.network 0), after nextNetwork v) := rfl
    have hheard : w.state.currentProber.heard reply = reply := rfl
    refine ⟨after nextNetwork v, (bind_run_ok hnet).trans ?_⟩
    rw [Prober.sweep_fixed (hv.network 0) hsamples, hheard, List.map_singleton,
      Option.bind_some]
    cases server.fastest reply wgEntries w.state.config.provider.airvpn.port <;> rfl

namespace State

/-- The ranking of a list of which `heard` is all that comes back. -/
def rankedBy (s : State P) (heard : SocketAddr → Option Duration) (list : ServerList) :
    List Scored :=
  let port := s.config.provider.airvpn.port
  rank P.log ((s.config.filters.apply list).accepted.map fun server =>
    server.measured wgEntries port (server.fastest heard wgEntries port)) s.scoring

/-- A sweep ranks what its prober hears. -/
theorem ranks_fixed {s : State P} {net : Network} (hnet : net.Fixed reply)
    (hsamples : 0 < s.config.probe.samples) (t : Instant) :
    s.ranks net none list t = (s.rankedBy (s.prober.heard reply) list).map (s.toRanked t) := by
  have hprober : 0 < s.prober.settings.samples := by
    unfold prober
    cases s.current <;> exact hsamples
  rw [ranks, swept, Prober.sweep_fixed hnet hprober]
  rfl

end State

/-! ### A whole pass keeps them -/

theorem tunes_of_steers (w w' : World P) (h : Steers w w') : Tunes reply list w w' where
  config := by rw [h.state]
  directMbps := by rw [h.state]
  fixed hw := by
    refine ⟨?_, ?_, ?_⟩
    · rw [h.outside]; exact hw.network
    · rw [h.state]; exact hw.cached
    · rw [h.outside, h.state]; exact hw.fetch

theorem switch_tunes (name : String) :
    Within (Tunes reply list) (switch name : Daemon P RankedServer) := by
  refine Within.bind (Within.read _) fun s => Within.ite (Within.fail _) ?_
  refine Within.bind (probeNamed_tunes _) fun chosen => ?_
  refine Within.bind ((retarget_steers _).mono tunes_of_steers) fun _ => ?_
  exact Within.bind (modify_tunes (fun _ => rfl) (fun _ => rfl) fun _ => rfl) fun _ => Within.pure _

/-- Connecting to a named server keeps them too. -/
theorem connect_tunes (name : String) (measureFirst : Option Bool) :
    Within (Tunes reply list) (connect (some name) measureFirst : Daemon P RankedServer) := by
  refine Within.bind (Within.read _) fun s => ?_
  cases s.current with
  | some current => exact Within.fail _
  | none =>
    refine Within.bind (probeNamed_tunes _) fun chosen => ?_
    exact Within.bind ((establish_steers _).mono tunes_of_steers) fun _ => Within.pure _

theorem assess_tunes (current : Connection) (currentRtt : Option F64) (ranked : List RankedServer) :
    Within (Tunes reply list) (assess current currentRtt ranked : Daemon P Tuner.Assessment) :=
  assess_within now_tunes current currentRtt ranked

theorem record_tunes (decision : Tuner.Decision) :
    Within (Tunes reply list) (record decision : Daemon P TuneReport) := by
  have hset : Within (Tunes reply list) (setPending decision : Daemon P Unit) := by
    cases decision with
    | propose target reason =>
      refine Within.bind now_tunes fun t => Within.bind
        (modify_tunes (fun _ => rfl) (fun _ => rfl) fun _ => rfl) fun _ => ?_
      exact Within.update fun _ => ⟨rfl, rfl, fun hw => ⟨hw.network, hw.cached, hw.fetch⟩⟩
    | _ => exact modify_tunes (fun _ => rfl) (fun _ => rfl) fun _ => rfl
  have hpending : Within (Tunes reply list) (pendingSwitch : Daemon P (Option PendingSwitch)) := by
    refine Within.bind (Within.read _) fun s => ?_
    cases s.pending with
    | none => exact Within.pure _
    | some pending => exact Within.bind (elapsed_tunes _) fun _ => Within.pure _
  refine Within.bind hset fun _ => ?_
  refine Within.bind (modify_tunes (fun _ => rfl) (fun _ => rfl) fun _ => rfl) fun _ => ?_
  exact Within.bind hpending fun _ => Within.pure _

theorem autotune_tunes : Within (Tunes reply list) (autotune : Daemon P TuneReport) := by
  refine Within.bind now_tunes fun t => ?_
  refine Within.bind (modify_tunes (fun _ => rfl) (fun _ => rfl) fun _ => rfl) fun _ => ?_
  exact tune_within switch_tunes probeCurrent_tunes (sweep_tunes none) assess_tunes record_tunes

/-! ### The move of a pass -/

/-- Two assessments of the same server whose best servers look alike are acted on alike. -/
theorem Tuner.decide_congr {a b : Tuner.Assessment} (autotune : Autotune)
    (hcurrent : a.current = b.current)
    (hbest : a.best.map (fun r => (r.name, r.score, r.rttMs)) =
      b.best.map fun r => (r.name, r.score, r.rttMs)) :
    (Tuner.decide a autotune).isActionable = (Tuner.decide b autotune).isActionable := by
  have hact : ∀ best best' reason reason' declined declined',
      (act autotune.switchPolicy best reason declined).isActionable =
        (act autotune.switchPolicy best' reason' declined').isActionable := by
    intro best best' reason reason' declined declined'
    cases autotune.switchPolicy <;> cases declined <;> cases declined' <;> rfl
  obtain ⟨current, best, probed, declined⟩ := a
  obtain ⟨current', best', probed', declined'⟩ := b
  subst hcurrent
  cases current with
  | none => rfl
  | some current =>
    cases best with
    | none =>
      obtain rfl := Option.map_eq_none_iff.mp hbest.symm
      rfl
    | some best =>
      obtain ⟨best', rfl, hsame⟩ := Option.map_eq_some_iff.mp hbest.symm
      obtain ⟨hname, hrest⟩ := Prod.mk.inj hsame
      obtain ⟨hscore, hrtt⟩ := Prod.mk.inj hrest
      cases hms : current.rttMs with
      | none =>
        simp only [decide, hms]
        exact hact _ _ _ _ _ _
      | some rttMs =>
        have himprovement : improvement current rttMs best = improvement current rttMs best' := by
          rw [improvement, improvement, hscore, hrtt]
        simp only [decide, hms, hname, himprovement]
        split_ifs <;> first | rfl | exact hact _ _ _ _ _ _

namespace State

/-- What a pass decides about its server in use, if no move from there was declined. -/
def foreseen (s : State P) (reply : SocketAddr → Option Duration) (list : ServerList)
    (current : Connection) : Tuner.Decision :=
  Tuner.decide (assessed current (timeOf reply list s.config.provider.airvpn.port current.server)
    ((s.rankedBy (s.prober.heard reply) list).map (s.toRanked 0)) 0 none) s.config.autotune

/-- The server a pass would leave, and the one of the list that it would move to. -/
def moveOf (s : State P) (reply : SocketAddr → Option Duration) (list : ServerList) :
    Option (Connection × Server) := do
  let current ← s.current
  let best ← (s.rankedBy (s.prober.heard reply) list).head?
  let server ← list.get best.server.name
  if (s.foreseen reply list current).isActionable then some (current, server) else none

/-- The names of the servers as they rank where every endpoint is probed. -/
def standings (s : State P) (reply : SocketAddr → Option Duration) (list : ServerList) :
    List String := (s.rankedBy reply list).map fun r => r.server.name

/-- The server a pass would move to ranks before the one it would leave, where every endpoint is
probed. -/
def Improves (s : State P) (reply : SocketAddr → Option Duration) (list : ServerList) : Prop :=
  ∀ m ∈ s.moveOf reply list, m.2.name = m.1.server ∨
    (s.standings reply list).idxOf m.2.name < (s.standings reply list).idxOf m.1.server

instance (s : State P) (reply : SocketAddr → Option Duration) (list : ServerList) :
    Decidable (s.Improves reply list) :=
  inferInstanceAs (Decidable (∀ m ∈ s.moveOf reply list, _))

end State

namespace State

theorem rankedBy_congr {s s' : State P} (hconfig : s'.config = s.config)
    (hdirect : s'.directMbps = s.directMbps) (heard : SocketAddr → Option Duration) :
    s'.rankedBy heard list = s.rankedBy heard list := by
  rw [rankedBy, rankedBy, scoring, scoring, direct, direct, hconfig, hdirect]

theorem heard_congr {s s' : State P} (hcurrent : s'.current = s.current) :
    s'.prober.heard reply = s.prober.heard reply := by
  funext endpoint
  rw [prober, prober, hcurrent]
  cases s.current <;> rfl

/-- A decision is acted on whatever its reading of the clock, its count and its dismissals. -/
theorem foreseen_actionable (s s' : State P) (reply : SocketAddr → Option Duration)
    (list : ServerList) (t : Instant) (current : Connection) (probed : Nat)
    (declinedFrom : Option String) :
    (Tuner.decide (assessed current
      (timeOf reply list s.config.provider.airvpn.port current.server)
      ((s.rankedBy (s.prober.heard reply) list).map (s'.toRanked t)) probed declinedFrom)
      s.config.autotune).isActionable = (s.foreseen reply list current).isActionable := by
  have hscore : ∀ (u : State P) t (l : List Scored),
      ((l.map (u.toRanked t)).find? fun r => r.name = current.server).map RankedServer.score =
        (l.find? fun r => r.server.name = current.server).map Scored.score := by
    intro u t l
    rw [List.find?_map, Option.map_map]
    rfl
  have hbest : ∀ (u : State P) t (l : List Scored),
      (l.map (u.toRanked t)).head?.map (fun r => (r.name, r.score, r.rttMs)) =
        l.head?.map fun r => (r.server.name, r.score, r.rtt.asSecsF64 * 1000) := by
    intro u t l
    rw [List.head?_map, Option.map_map]
    rfl
  refine Tuner.decide_congr _ ?_ ?_
  · simp only [assessed, hscore]
  · simp only [assessed, hbest]

/-- The move of a pass is a matter of the settings, the connection and the line rate. -/
theorem moveOf_congr {s s' : State P} (hconfig : s'.config = s.config)
    (hcurrent : s'.current = s.current) (hdirect : s'.directMbps = s.directMbps) :
    s'.moveOf reply list = s.moveOf reply list := by
  have hforeseen : ∀ current, (s'.foreseen reply list current).isActionable =
      (s.foreseen reply list current).isActionable := by
    intro current
    rw [← s.foreseen_actionable s' reply list 0 current 0 none, foreseen, hconfig,
      rankedBy_congr hconfig hdirect, heard_congr hcurrent]
  rw [moveOf, moveOf, hcurrent, heard_congr hcurrent, rankedBy_congr hconfig hdirect]
  simp only [hforeseen]

end State

theorem record_current (decision : Tuner.Decision) (w : World P) :
    (after (record decision) w).state.current = w.state.current := (record_rests decision w).current

/-- What follows a sweep moves the connection to the server of the list that the best server names,
or leaves it. -/
theorem tuneDegraded_moves {w w' : World P} {current : Connection} {currentRtt : Option F64}
    (hw : w.FixedBy reply list) (hsamples : 0 < w.state.config.probe.samples)
    (hcurrent : w.state.current = some current)
    (hrtt : timeOf reply list w.state.config.provider.airvpn.port current.server = currentRtt)
    (hrun : after (tuneDegraded current currentRtt) w = w') :
    w'.state.current = w.state.current ∨ ∃ m ∈ w.state.moveOf reply list, ∃ moved,
      w'.state.current = some moved ∧ moved.server = m.2.name := by
  subst hrun
  rcases tuneDegraded_cases (fun _ _ => Measures.rests) (fun decision _ => record_rests decision)
    current currentRtt w with
    ⟨hrests, -⟩ | ⟨ranked, v, probed, declinedFrom, best, reason, h, -, hdecision, hrun⟩
  · exact .inl hrests.current
  have hswept := (sweep_measures none).run h
  have hmeasures : Measures w (after (assess current currentRtt ranked) v) :=
    hswept.trans (assess_fetches _ _ _ v).toMeasures
  have htunes : Within (Tunes reply list) (sweep none : Daemon P (List RankedServer)) :=
    sweep_tunes none
  have hu : (after (assess current currentRtt ranked) v).FixedBy reply list :=
    (assess_tunes _ _ _ v).fixed ((htunes.run h).fixed hw)
  obtain ⟨l, x, t, hlist, hranked, -⟩ := sweep_ok h
  obtain ⟨y, hfixed, -⟩ := serverList_fixed hw
  cases hlist.symm.trans hfixed
  rw [State.ranks_fixed (hw.network 0) hsamples] at hranked
  rw [after, hrun]
  generalize after (assess current currentRtt ranked) v = u at hmeasures hu ⊢
  rcases hswitch : switch best.name u with ⟨e | chosen, w'⟩
  · rw [bind_run_error hswitch]
    exact .inl ((switch_error hswitch).current.trans hmeasures.current)
  rw [bind_run_ok hswitch, ← after, record_current]
  obtain ⟨z, hprobe, hmoved, -⟩ := switch_records hswitch
  obtain ⟨l', _, server, hlist', hget, hplace⟩ := probeNamed_ok hprobe
  obtain ⟨_, hfixed', -⟩ := serverList_fixed hu
  cases hlist'.symm.trans hfixed'
  have hbest : ranked.head? = some best :=
    Tuner.decide_target (congrArg Tuner.Decision.target hdecision)
  have hactionable : (w.state.foreseen reply list current).isActionable = true := by
    rw [← w.state.foreseen_actionable w.state reply list t current probed declinedFrom, ← hranked,
      hrtt, ← hswept.config, hdecision]
    rfl
  rw [hranked, List.head?_map, Option.map_eq_some_iff] at hbest
  obtain ⟨scored, hhead, rfl⟩ := hbest
  refine .inr ⟨(current, server), ?_, .of chosen, hmoved, congrArg Prod.fst hplace⟩
  have hget' : list.get scored.server.name = some server := hget
  simp [State.moveOf, hcurrent, hhead, hget', hactionable]

theorem tune_moves {w : World P} (hw : w.FixedBy reply list)
    (hsamples : 0 < w.state.config.probe.samples) :
    (after tune w).state.current = w.state.current ∨ ∃ m ∈ w.state.moveOf reply list, ∃ moved,
      (after tune w).state.current = some moved ∧ moved.server = m.2.name := by
  cases hcurrent : w.state.current with
  | none =>
    have hrun : tune w = record .notConnected w := by rw [tune, self, read_bind, hcurrent]
    rw [after, hrun]
    exact .inl ((record_current _ w).trans hcurrent)
  | some current =>
    obtain ⟨v, hprobe⟩ := probeCurrent_fixed hw hsamples
    have hkept := ((probeCurrent_samples _).run hprobe).toMeasures
    have htunes : Within (Tunes reply list) (probeCurrent current.server : Daemon P (Option F64)) :=
      probeCurrent_tunes _
    have hv := htunes.run hprobe
    generalize hrtt : timeOf reply list w.state.config.provider.airvpn.port current.server = rtt
      at hprobe
    cases hfast : v.state.isFast rtt with
    | true =>
      obtain ⟨rttMs, rfl, _⟩ := (Option.any_eq_true _ _).mp hfast
      rw [after, tune_fast hcurrent hprobe hfast]
      exact .inl (((record_current _ v).trans hkept.current).trans hcurrent)
    | false =>
      have hmove : v.state.moveOf reply list = w.state.moveOf reply list :=
        State.moveOf_congr hkept.config hkept.current hv.directMbps
      rw [after, tune_slow hcurrent hprobe hfast, ← hmove]
      have hcases := tuneDegraded_moves (hv.fixed hw) (hkept.config ▸ hsamples)
        (hkept.current.trans hcurrent) (hkept.config ▸ hrtt) rfl
      rwa [hkept.current, hcurrent] at hcases

theorem autotune_moves {w : World P} (hw : w.FixedBy reply list)
    (hsamples : 0 < w.state.config.probe.samples) :
    (after autotune w).state.current = w.state.current ∨ ∃ m ∈ w.state.moveOf reply list, ∃ moved,
      (after autotune w).state.current = some moved ∧ moved.server = m.2.name :=
  tune_moves (w := w.noted) ⟨hw.network, hw.cached, hw.fetch⟩ hsamples

/-! ### Runs of passes -/

/-- The world after a number of consecutive passes. -/
def World.passes (w : World P) (n : Nat) : World P := (after autotune)^[n] w

/-- The server the connection is recorded with. -/
def World.server (w : World P) : Option String := w.state.current.map Connection.server

theorem World.passes_succ (w : World P) (n : Nat) :
    w.passes (n + 1) = after autotune (w.passes n) := Function.iterate_succ_apply' _ _ _

theorem passes_tunes (w : World P) (n : Nat) : Tunes reply list w (w.passes n) := by
  induction n with
  | zero => exact refl_of (Tunes reply list) w
  | succ n ih =>
    rw [World.passes_succ]
    exact trans_of (Tunes reply list) ih (autotune_tunes _)

/-- A pass that improves either stays or moves up. -/
theorem pass_rises {w : World P} (hw : w.FixedBy reply list)
    (hsamples : 0 < w.state.config.probe.samples) (himproves : w.state.Improves reply list) :
    (after autotune w).server = w.server ∨ ∃ a b, w.server = some a ∧
      (after autotune w).server = some b ∧
      (w.state.standings reply list).idxOf b < (w.state.standings reply list).idxOf a := by
  rcases autotune_moves hw hsamples with h | ⟨m, hm, moved, hmoved, hname⟩
  · exact .inl (congrArg (Option.map Connection.server) h)
  have hfrom : w.state.current = some m.1 := by
    simp only [State.moveOf, Option.mem_def, Option.bind_eq_bind, Option.bind_eq_some_iff] at hm
    obtain ⟨current, hcurrent, _, _, _, _, h⟩ := hm
    split at h
    · cases h
      exact hcurrent
    · cases h
  rw [World.server, World.server, hfrom, hmoved, Option.map_some, Option.map_some, hname]
  rcases himproves m hm with hsame | hup
  · exact .inl (congrArg some hsame)
  · exact .inr ⟨_, _, rfl, rfl, hup⟩

namespace Sample

/-- The settings with the policy to move without asking. -/
def autoConfig : Config := { config with autotune.switchPolicy := .auto }

/-- Two servers alike: the first entry of each takes 100 ms, the other 2 s. -/
def twinReply (a : SocketAddr) : Option Duration :=
  if a.ip = .v4 0x0a000001 ∨ a.ip = .v4 0x0a000002 then some (.ofMillis 100)
  else if a.ip = .v4 0x0a000003 ∨ a.ip = .v4 0x0a000004 then some (.ofMillis 2000)
  else none

def twinList : ServerList :=
  ⟨[server "Achernar" "nl" 0x0a000001 (some 0x0a000003),
    server "Bellatrix" "nl" 0x0a000002 (some 0x0a000004)]⟩

/-- A daemon connected to the first of two servers. -/
def auto (list : ServerList) (reply : SocketAddr → Option Duration) : World (.linux log) :=
  step (world autoConfig linuxMachine (outside autoConfig list reply linuxFaults))
    (.connect (some "Achernar") none)

theorem auto_reachable (list : ServerList) (reply : SocketAddr → Option Duration) :
    Reachable (auto list reply) :=
  ⟨_, world_starts (by decide +kernel) rfl _ _, .next .here trivial⟩

theorem auto_fixed (list : ServerList) (reply : SocketAddr → Option Duration) :
    (auto list reply).FixedBy reply list :=
  (connect_tunes _ _ _).fixed ⟨fun _ => network_fixed _, fun _ _ h => (nomatch h), fun _ => .inl rfl⟩

end Sample

end Vpnmgr
