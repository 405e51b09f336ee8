import Vpnmgr.Daemon.Proposal

/-! What a tuning pass needs before it moves the tunnel, and what it leaves alone without it. -/

namespace Vpnmgr

open Ieee Stateful Stateful.Action

variable {P : Platform}

/-- The settings, the tunnel, the record of it and the machine stay, no call draws an outcome of the
backend, and nothing but proposals is announced. -/
structure Idles (w w' : World P) : Prop where
  config : w'.state.config = w.state.config
  tunnel : w'.state.tunnel = w.state.tunnel
  current : w'.state.current = w.state.current
  machine : w'.machine = w.machine
  faults : w'.outside.faults = w.outside.faults
  events : ∃ names : List String, w'.events = names.map Event.proposed ++ w.events

instance : IsPreorder (World P) Idles where
  refl _ := ⟨rfl, rfl, rfl, rfl, rfl, [], rfl⟩
  trans _ _ _ h₁ h₂ := by
    obtain ⟨names, hnames⟩ := h₁.events
    obtain ⟨more, hmore⟩ := h₂.events
    refine ⟨h₂.config.trans h₁.config, h₂.tunnel.trans h₁.tunnel, h₂.current.trans h₁.current,
      h₂.machine.trans h₁.machine, h₂.faults.trans h₁.faults, more ++ names, ?_⟩
    rw [hmore, hnames, List.map_append, List.append_assoc]

theorem Measures.idles {w w' : World P} (h : Measures w w') : Idles w w' :=
  ⟨h.config, h.tunnel, h.current, h.machine, h.faults, [], h.events⟩

theorem modify_idles {f : State P → State P} (hconfig : ∀ s, (f s).config = s.config)
    (htunnel : ∀ s, (f s).tunnel = s.tunnel) (hcurrent : ∀ s, (f s).current = s.current) :
    Within Idles (modify f : Daemon P Unit) :=
  Within.update fun w =>
    ⟨hconfig w.state, htunnel w.state, hcurrent w.state, rfl, rfl, [], rfl⟩

theorem record_idles (decision : Tuner.Decision) :
    Within Idles (record decision : Daemon P TuneReport) := by
  intro w
  have hset : Within Idles (setPending decision : Daemon P Unit) := by
    cases decision with
    | propose target reason =>
      refine Within.bind (fun v => (now_fetches v).toMeasures.idles) fun t => Within.bind
        (modify_idles (fun _ => rfl) (fun _ => rfl) fun _ => rfl) fun _ => ?_
      exact Within.update fun _ => ⟨rfl, rfl, rfl, rfl, rfl, [target.name], rfl⟩
    | _ => exact modify_idles (fun _ => rfl) (fun _ => rfl) fun _ => rfl
  refine trans_of Idles (hset w) (record_within (fun _ _ h => h.toMeasures.idles) ?_ decision w)
  exact fun text => modify_idles (fun _ => rfl) (fun _ => rfl) fun _ => rfl

/-- What a pass that begins in `w` needs to move the tunnel: the policy to, no time within the limit
for the server in use, and an answer to its sweep. -/
def World.Authority (w : World P) : Prop :=
  w.state.config.autotune.switchPolicy = .auto ∧ ∃ current rtt v best rest u,
    w.state.current = some current ∧ probeCurrent current.server w = (.ok rtt, v) ∧
    (∀ r, rtt = some r → ¬r ≤ F64.ofNat w.state.config.autotune.maxLatencyMs) ∧
    sweep none v = (.ok (best :: rest), u)

/-- The pass that begins in `w` decides in `x` to move to the target. -/
def World.OrdersIn (w x : World P) (target : RankedServer) (reason : Tuner.Reason) : Prop :=
  ∃ current rtt v ranked u assessment, w.state.current = some current ∧
    probeCurrent current.server w = (.ok rtt, v) ∧ sweep none v = (.ok ranked, u) ∧
    assess current rtt ranked u = (.ok assessment, x) ∧
    Tuner.decide assessment u.state.config.autotune = .switch target reason

/-- The pass that begins in `w` decides to move to the target. -/
def World.Orders (w : World P) (target : RankedServer) : Prop :=
  ∃ x reason, w.OrdersIn x target reason

theorem World.OrdersIn.measures {w x : World P} {target : RankedServer} {reason : Tuner.Reason}
    (h : w.OrdersIn x target reason) : Measures w x := by
  obtain ⟨current, rtt, v, ranked, u, _, _, hprobe, hsweep, hassess, _⟩ := h
  have hprobed := ((probeCurrent_samples current.server).run hprobe).toMeasures
  have hswept := (sweep_measures none).run hsweep
  exact (hprobed.trans hswept).trans ((assess_fetches current rtt ranked).run hassess).toMeasures

/-- The tunnel was pointed, once, at a server of the target's name, and that server is recorded. -/
def MovedTo (w w' : World P) (target : RankedServer) : Prop :=
  ∃ chosen : RankedServer, Text.eqIgnoreAsciiCase chosen.name target.name = true ∧
    w'.state.current = some (.of chosen) ∧ w'.events = .switched chosen.endpoint :: w.events

theorem probeCurrent_returns (name : String) (w : World P) :
    ∃ rtt, probeCurrent name w = (.ok rtt, after (probeCurrent name) w) := by
  rw [after, probeCurrent, self, read_bind, attempt_bind]
  rcases serverList w with ⟨e | list, v⟩
  · exact ⟨_, rfl⟩
  · dsimp only
    cases list.get name with
    | none => exact ⟨_, rfl⟩
    | some server => exact ⟨_, rfl⟩

/-- A pass that begins in `w` leaves the connection alone, or follows an order to move it. -/
theorem tune_cases (w : World P) :
    (Idles w (after tune w) ∧ ∀ report, (tune w).1 = .ok report → report.switched = false) ∨
    ∃ target reason u, w.Authority ∧ w.OrdersIn u target reason ∧ tune w =
      (do
        let _ ← switch target.name
        record (.switch target reason) : Daemon P TuneReport) u := by
  have hrecorded : ∀ (decision : Tuner.Decision) {u : World P}, Idles w u →
      decision.isActionable = false → tune w = record decision u →
      Idles w (after tune w) ∧ ∀ report, (tune w).1 = .ok report → report.switched = false := by
    intro decision u hu hrests hrun
    obtain ⟨report, hreport, hswitched⟩ := record_reports decision u
    rw [after, hrun]
    refine ⟨trans_of Idles hu (record_idles decision u), fun report' h => ?_⟩
    rw [hreport] at h
    cases h
    rw [hswitched, hrests]
  cases hcurrent : w.state.current with
  | none =>
    refine .inl (hrecorded .notConnected (refl_of Idles w) rfl ?_)
    rw [tune, self, read_bind, hcurrent]
  | some current =>
    have hprobed := probeCurrent_samples current.server w
    obtain ⟨currentRtt, hprobe⟩ := probeCurrent_returns current.server w
    generalize after (probeCurrent current.server) w = v at hprobe
    rw [hprobe] at hprobed
    have hmeasures := hprobed.toMeasures
    cases hfast : v.state.isFast currentRtt with
    | true =>
      obtain ⟨rttMs, rfl, _⟩ := (Option.any_eq_true _ _).mp hfast
      exact .inl (hrecorded _ hmeasures.idles rfl (tune_fast hcurrent hprobe hfast))
    | false =>
      rw [after, tune_slow hcurrent hprobe hfast]
      rcases tuneDegraded_cases (R := Idles) (fun _ _ => Measures.idles)
          (fun decision _ => record_idles decision) current currentRtt v with
        ⟨hidles, hreports⟩ |
        ⟨ranked, u, probed, declinedFrom, best, reason, hsweep, hassess, hdecision, hrun⟩
      · exact .inl ⟨trans_of Idles hmeasures.idles hidles, hreports⟩
      · have hswept := (sweep_measures none).run hsweep
        obtain ⟨hauto, hslow⟩ := Tuner.decide_switch rfl hdecision
        have hbest : ranked.head? = some best :=
          Tuner.decide_target (congrArg Tuner.Decision.target hdecision)
        obtain ⟨rest, rfl⟩ := List.head?_eq_some_iff.mp hbest
        rw [hswept.config, hmeasures.config] at hauto
        rw [hswept.config, hmeasures.config] at hslow
        refine .inr ⟨best, reason, _, ⟨hauto, ?_⟩, ?_, hrun⟩
        · exact ⟨current, currentRtt, v, best, rest, u, hcurrent, hprobe, hslow, hsweep⟩
        · exact ⟨current, currentRtt, v, best :: rest, u, _, hcurrent, hprobe, hsweep, hassess,
            hdecision⟩

/-- What a pass that began in `w` kept to, with the report it ended in: without authority it left the
tunnel and the record of it alone, and it reports a move exactly when it made the one it ordered. -/
structure KeepsAuthority (w w' : World P) (r : Except Error TuneReport) : Prop where
  untouched : ¬w.Authority →
    Idles w w' ∧ ∀ report, r = .ok report → report.switched = false
  reports : ∀ report, r = .ok report →
    (report.switched = true ↔ ∃ target, w.Orders target ∧ MovedTo w w' target)

/-- A pass that only proposes has not moved the tunnel. -/
theorem Idles.not_movedTo {w w' : World P} (h : Idles w w') (target : RankedServer) :
    ¬MovedTo w w' target := by
  rintro ⟨chosen, _, _, hevents⟩
  obtain ⟨names, hnames⟩ := h.events
  have hlength := congrArg List.length (hnames.symm.trans hevents)
  simp only [List.length_append, List.length_map, List.length_cons] at hlength
  obtain ⟨name, rfl⟩ := List.length_eq_one_iff.mp (by omega : names.length = 1)
  cases (List.cons.inj (hnames.symm.trans hevents)).1

theorem switch_movedTo {name : String} {target chosen : RankedServer} {w w' : World P}
    (hname : target.name = name) (h : switch name w = (.ok chosen, w')) : MovedTo w w' target := by
  subst hname
  obtain ⟨v, hprobe, hcurrent, hevents⟩ := switch_records h
  obtain ⟨list, _, server, _, hget, hplace⟩ := probeNamed_ok hprobe
  have hfound : Text.eqIgnoreAsciiCase server.name target.name = true := ServerList.get_name hget
  have hsame : chosen.name = server.name := congrArg Prod.fst hplace
  exact ⟨chosen, by rw [hsame, hfound], hcurrent, hevents⟩

theorem tune_keepsAuthority (w : World P) : KeepsAuthority w (after tune w) (tune w).1 := by
  rcases tune_cases w with ⟨hidles, hreports⟩ | ⟨target, reason, u, hauthority, horders, hrun⟩
  · refine ⟨fun _ => ⟨hidles, hreports⟩, fun report hreport => ?_⟩
    rw [hreports report hreport]
    refine ⟨fun h => (by cases h), fun ⟨target, _, hmoved⟩ => ?_⟩
    exact absurd hmoved (hidles.not_movedTo target)
  · refine ⟨fun hnone => absurd hauthority hnone, ?_⟩
    rw [after, hrun]
    rcases hswitch : switch target.name u with ⟨e | chosen, x⟩
    · rw [bind_run_error hswitch]
      exact fun report hreport => (by cases hreport)
    · obtain ⟨moved, hmatches, hcurrent, hevents⟩ := switch_movedTo rfl hswitch
      rw [bind_run_ok hswitch]
      intro report hreport
      obtain ⟨report', hreport', hswitched⟩ := record_reports (.switch target reason) x
      rw [hreport'] at hreport
      cases hreport
      refine iff_of_true hswitched ⟨target, ⟨u, reason, horders⟩, moved, hmatches, hcurrent, ?_⟩
      exact hevents.trans (congrArg _ horders.measures.events)

/-- Every pass, requested or scheduled, moves the tunnel only with authority; one that is not due
does nothing. -/
theorem passes_keep_authority (w : World P) :
    KeepsAuthority w.noted (after autotune w) (autotune w).1 ∧
    ((scheduledPass w).1 = .ok none ∧ Idles w (after scheduledPass w) ∨
      ∃ r, (scheduledPass w).1 = r.map some ∧
        KeepsAuthority (after now w).noted (after scheduledPass w) r) := by
  refine ⟨tune_keepsAuthority w.noted, ?_⟩
  rw [after, scheduledPass_run, World.passBegins]
  split
  · next u hbegins =>
    split at hbegins
    · cases hbegins
      exact .inr ⟨_, rfl, tune_keepsAuthority _⟩
    · cases hbegins
  · exact .inl ⟨rfl, (now_fetches w).toMeasures.idles⟩

end Vpnmgr
