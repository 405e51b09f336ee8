import Vpnmgr.Daemon.Authority

/-! The latest dismissal is respected: for as long as it stands, a pass on the server the user chose
to stay on raises no proposal, and it holds no other pass back. -/

namespace Vpnmgr

open Ieee Stateful Stateful.Action

variable {P : Platform} {α : Type}

/-! ### The decision under a dismissal -/

namespace Tuner

/-- The user was asked about the server in use before, and it answers. -/
def Assessment.Declined (a : Assessment) (autotune : Autotune) : Prop :=
  autotune.switchPolicy = .ask ∧
    ∃ current, a.current = some current ∧ current.rttMs.isSome = true ∧
      a.declinedFrom = some current.name

theorem act_not_declined {policy : SwitchPolicy} {declined : Bool}
    (h : policy = .ask → declined = false) (best : RankedServer) (reason : Reason) :
    act policy best reason declined = act policy best reason false := by
  cases policy with
  | ask => rw [h rfl]
  | _ => rfl

/-- Elsewhere a dismissal makes no difference. -/
theorem decide_not_declined {a : Assessment} {autotune : Autotune} (h : ¬a.Declined autotune) :
    decide a autotune = decide { a with declinedFrom := none } autotune := by
  obtain ⟨current, best, probed, declinedFrom⟩ := a
  cases current with
  | none => rfl
  | some current =>
    cases best with
    | none => rfl
    | some best =>
      obtain ⟨name, rttMs, score⟩ := current
      cases rttMs with
      | none => rfl
      | some rttMs =>
        have hact : ∀ best reason, act autotune.switchPolicy best reason
            (declinedFrom == some name) = act autotune.switchPolicy best reason false := by
          refine act_not_declined fun hask => Bool.eq_false_iff.mpr fun hname => ?_
          exact h ⟨hask, _, rfl, rfl, beq_iff_eq.mp hname⟩
        simp only [decide, hact]
        rfl

/-- Under one, a pass neither proposes nor moves. -/
theorem decide_declined {a : Assessment} {autotune : Autotune} (h : a.Declined autotune) :
    (decide a autotune).isActionable = false ∧ ∀ target reason,
      decide a autotune ≠ .propose target reason := by
  obtain ⟨hask, current, hcurrent, hrtt, hname⟩ := h
  obtain ⟨rttMs, hrtt⟩ := Option.isSome_iff_exists.mp hrtt
  have hact : ∀ best reason, act autotune.switchPolicy best reason
      (a.declinedFrom == some current.name) = .suppressed best reason := by
    intro best reason
    rw [hask, hname, beq_self_eq_true]
    rfl
  unfold decide
  rw [hcurrent]
  cases a.best with
  | none => exact ⟨rfl, fun _ _ => Decision.noConfusion⟩
  | some best =>
    simp only [hrtt, hact]
    split_ifs <;> exact ⟨rfl, fun _ _ => Decision.noConfusion⟩

end Tuner

/-! ### What a dismissal stands through -/

/-- The latest dismissal stands. -/
def Upholds (w w' : World P) : Prop := w'.state.dismissed = w.state.dismissed

instance : IsPreorder (World P) Upholds where
  refl _ := rfl
  trans _ _ _ h₁ h₂ := h₂.trans h₁

theorem samples_upholds (w w' : World P) (h : Samples w w') : Upholds w w' := h.dismissed

theorem steers_upholds {w w' : World P} (h : Steers w w') : Upholds w w' := by
  rw [Upholds, h.state]

theorem modify_upholds {f : State P → State P} (h : ∀ s, (f s).dismissed = s.dismissed) :
    Within Upholds (modify f : Daemon P Unit) := Within.update fun w => h w.state

theorem measures_upholds {x : Daemon P α} (h : Within Measures x) : Within Upholds x :=
  h.mono fun _ _ => Measures.dismissed

theorem now_upholds : Within Upholds (now : Daemon P Instant) :=
  measures_upholds (measures_of_fetches now_fetches)

theorem connect_upholds (server : Option String) (measureFirst : Option Bool) :
    Within Upholds (connect server measureFirst : Daemon P RankedServer) :=
  connect_within (.of_samples samples_upholds) (fun _ => rfl) (fun _ w => steers_upholds (moveTo_steers _ w))
    (measures_upholds (sweep_measures _)) (fun _ w _ => steers_upholds (establish_steers _ w)) _ _

theorem baseline_upholds : Within Upholds (baseline : Daemon P SpeedReport) :=
  baseline_within (.of_samples samples_upholds) (fun _ => rfl) (fun _ w => steers_upholds (moveTo_steers _ w))
    (measures_upholds (sweep_measures _)) (fun _ w _ => steers_upholds (establish_steers _ w))
    fun w => steers_upholds (disconnect_steers w)

theorem reload_upholds : Within Upholds (reload : Daemon P Unit) := by
  have hload : Within Upholds (loadDisk : Daemon P (Config × ClientConfig)) := by
    refine Within.bind (fun _ => rfl) fun disk => ?_
    exact Within.bind (Within.lift _) fun _ => Within.bind (Within.lift _) fun _ => Within.pure _
  exact Within.bind hload fun _ => Within.bind (modify_upholds fun _ => rfl) fun _ =>
    modify_upholds fun _ => rfl

theorem killswitch_upholds (enable : Option Bool) :
    Within Upholds (killswitch enable : Daemon P KillswitchReport) := by
  refine Within.bind ?_ fun _ =>
    Within.bind (Within.read _) fun m => Within.bind (Within.read _) fun s => Within.pure _
  match enable with
  | none => exact Within.pure _
  | some true =>
    exact Within.bind (Within.read _) fun s => Within.bind (fun _ => rfl) fun _ =>
      Within.bind (fun _ => rfl) fun _ => modify_upholds fun _ => rfl
  | some false =>
    exact Within.bind (fun _ => rfl) fun _ => Within.bind (fun _ => rfl) fun _ =>
      modify_upholds fun _ => rfl

theorem record_upholds (decision : Tuner.Decision) :
    Within Upholds (record decision : Daemon P TuneReport) := by
  have hset : Within Upholds (setPending decision : Daemon P Unit) := by
    cases decision with
    | propose target reason =>
      exact Within.bind now_upholds fun t => Within.bind (modify_upholds fun _ => rfl) fun _ =>
        Within.update fun _ => rfl
    | _ => exact modify_upholds fun _ => rfl
  intro w
  exact trans_of Upholds (hset w) (record_within (fun _ _ h => h.dismissed)
    (fun _ => modify_upholds fun _ => rfl) decision w)

/-- A switch that fails leaves the dismissal. -/
theorem switch_error_upholds {name : String} {e : Error} {w w' : World P}
    (h : switch name w = (.error e, w')) : Upholds w w' := by
  rcases bind_error h with h | ⟨_, _, hself, h⟩
  · cases h
  cases hself
  split at h
  · cases h
    exact refl_of Upholds w
  rcases bind_error h with h | ⟨chosen, v, hprobe, h⟩
  · exact samples_upholds _ _ ((probeNamed_samples _).run h)
  have hprobed := samples_upholds _ _ ((probeNamed_samples _).run hprobe)
  rcases bind_error h with h | ⟨_, _, _, h⟩
  · exact trans_of Upholds hprobed (steers_upholds ((retarget_steers _).run h))
  · cases h

/-- A pass leaves the dismissal, or it has moved the tunnel and reports so. -/
theorem tune_upholds (w : World P) : Upholds w (after tune w) ∨
    ∃ report, (tune w).1 = .ok report ∧ report.switched = true := by
  cases hcurrent : w.state.current with
  | none =>
    have hrun : tune w = record .notConnected w := by rw [tune, self, read_bind, hcurrent]
    rw [after, hrun]
    exact .inl (record_upholds _ w)
  | some current =>
    have hprobed := probeCurrent_samples current.server w
    obtain ⟨currentRtt, hprobe⟩ := probeCurrent_returns current.server w
    generalize after (probeCurrent current.server) w = v at hprobe
    rw [hprobe] at hprobed
    have hupholds : Upholds w v := hprobed.dismissed
    cases hfast : v.state.isFast currentRtt with
    | true =>
      obtain ⟨rttMs, rfl, _⟩ := (Option.any_eq_true _ _).mp hfast
      rw [after, tune_fast hcurrent hprobe hfast]
      exact .inl (trans_of Upholds hupholds (record_upholds _ v))
    | false =>
      rw [after, tune_slow hcurrent hprobe hfast]
      rcases tuneDegraded_cases (R := Upholds) (fun _ _ => Measures.dismissed)
          (fun decision _ => record_upholds decision) current currentRtt v with
        ⟨hkept, _⟩ | ⟨ranked, u, _, _, best, reason, hsweep, _, _, hrun⟩
      · exact .inl (trans_of Upholds hupholds hkept)
      · rw [hrun]
        have hswept : Upholds v u := ((sweep_measures none).run hsweep).dismissed
        have hassessed : Upholds u (after (assess current currentRtt ranked) u) :=
          (assess_fetches current currentRtt ranked u).dismissed
        generalize after (assess current currentRtt ranked) u = x at hassessed ⊢
        rcases hswitch : switch best.name x with ⟨e | chosen, y⟩
        · rw [bind_run_error hswitch]
          exact .inl (trans_of Upholds (trans_of Upholds hupholds hswept)
            (trans_of Upholds hassessed (switch_error_upholds hswitch)))
        · rw [bind_run_ok hswitch]
          obtain ⟨report, hreport, hswitched⟩ := record_reports (.switch best reason) y
          exact .inr ⟨report, congrArg Prod.fst hreport, hswitched⟩

/-- The operation makes a switch that succeeds. -/
def World.Switches (w : World P) : Op → Prop
  | .switch name => (switch name w).1.isOk = true
  | .approve => (approve w).1.isOk = true
  | op => ∃ u report, w.passBegins op = some u ∧ (tune u).1 = .ok report ∧ report.switched = true

/-- The operation dismisses a proposal while something is connected. -/
def World.Dismisses (w : World P) (op : Op) : Prop :=
  op = .dismiss ∧ w.state.pending.isSome = true ∧ w.state.current.isSome = true

theorem approve_upholds {w : World P} (h : ¬(approve w).1.isOk = true) : Upholds w (after approve w) := by
  rcases hrun : approve w with ⟨e | moved, w'⟩
  swap
  · exact absurd (by rw [hrun]; rfl) h
  rw [after, hrun]
  dsimp only
  rcases bind_error hrun with hself | ⟨_, _, hself, hrun⟩
  · cases hself
  cases hself
  cases hpending : w.state.pending with
  | none =>
    rw [hpending] at hrun
    cases hrun
    exact refl_of Upholds w
  | some p =>
    rw [hpending] at hrun
    rcases bind_error hrun with hmodify | ⟨_, v, hmodify, hrun⟩
    · cases hmodify
    cases hmodify
    rcases bind_error hrun with hswitch | ⟨moved, _, _, hrun⟩
    · have hkept : Upholds _ w' := switch_error_upholds hswitch
      exact hkept
    · cases hrun

theorem dismiss_upholds {w : World P} (h : w.state.pending = none ∨ w.state.current = none) :
    Upholds w (after dismiss w) := by
  rw [after, dismiss, self, read_bind]
  cases hpending : w.state.pending with
  | none => exact refl_of Upholds w
  | some p =>
    rcases h with h | h
    · cases hpending.symm.trans h
    · obtain ⟨⟨_, _, _, _, current, _, _, _, _, _, _, _, _⟩, _, _, _, _⟩ := w
      cases h
      rfl

/-- The latest dismissal stands until a switch succeeds or another proposal is dismissed. -/
theorem step_upholds (w : World P) (op : Op) (hop : ¬w.Switches op ∧ ¬w.Dismisses op) :
    Upholds w (step w op) := by
  obtain ⟨hswitches, hdismisses⟩ := hop
  cases op with
  | connect server measure => exact connect_upholds _ _ w
  | disconnect => exact steers_upholds (disconnect_steers w)
  | switch server =>
    obtain ⟨e, hrun⟩ := run_error (Bool.eq_false_iff.mpr hswitches)
    exact switch_error_upholds hrun
  | test country => exact (sweep_measures _ w).dismissed
  | servers country limit all => exact (servers_fetches _ _ _ w).dismissed
  | reload => exact reload_upholds w
  | autotune =>
    rcases tune_upholds w.noted with h | ⟨report, hreport, hswitched⟩
    · exact h
    · exact absurd ⟨_, report, rfl, hreport, hswitched⟩ hswitches
  | approve => exact approve_upholds hswitches
  | dismiss =>
    refine dismiss_upholds ?_
    cases hpending : w.state.pending with
    | none => exact .inl rfl
    | some p =>
      refine .inr (Option.not_isSome_iff_eq_none.mp fun hcurrent => hdismisses ⟨rfl, ?_, hcurrent⟩)
      rw [hpending]
      rfl
  | speedtest => exact (speedtest_samples w).dismissed
  | baseline confirm =>
    cases confirm with
    | false => exact refl_of Upholds w
    | true => exact baseline_upholds w
  | killswitch enable => exact killswitch_upholds _ w
  | scheduledPass =>
    cases hbegins : w.passBegins .scheduledPass with
    | none =>
      rw [step, after, scheduledPass_run, hbegins]
      exact now_upholds w
    | some u =>
      rw [step_pass hbegins]
      rcases tune_upholds u with h | ⟨report, hreport, hswitched⟩
      · exact trans_of Upholds (by rw [Upholds, (passBegins_state hbegins).1]) h
      · exact absurd ⟨u, report, hbegins, hreport, hswitched⟩ hswitches

/-! ### A pass under a dismissal -/

/-- The server under an unexpired dismissal at a reading of the clock. -/
def State.declinedFrom (s : State P) (t : Instant) : Option String :=
  (s.dismissed.filter fun d => t - d.2 < dismissalCooldown).map (·.1)

theorem assess_declinedFrom {current : Connection} {currentRtt : Option F64}
    {ranked : List RankedServer} {a : Tuner.Assessment} {w x : World P}
    (h : assess current currentRtt ranked w = (.ok a, x)) : ∃ probed,
      a = assessed current currentRtt ranked probed (w.state.declinedFrom x.clock) := by
  cases hdismissed : w.state.dismissed with
  | none =>
    simp [assess, activeDismissal, self, hdismissed, bind_run] at h
    obtain ⟨rfl, rfl⟩ := h
    refine ⟨(w.state.lastSweep.map fun sweep => sweep.1.probed).getD ranked.length, ?_⟩
    rw [State.declinedFrom, hdismissed]
    rfl
  | some dismissed =>
    simp [assess, activeDismissal, self, hdismissed, bind_run, elapsed, now] at h
    obtain ⟨rfl, rfl⟩ := h
    refine ⟨(w.state.lastSweep.map fun sweep => sweep.1.probed).getD ranked.length, ?_⟩
    rw [State.declinedFrom, hdismissed]
    simp only [assessed, Option.filter]
    by_cases hcool : w.clock + w.outside.pace 0 - dismissed.2 < dismissalCooldown
    · simp [hcool]
    · simp [hcool]

/-- No proposal is raised or changed, and the clock does not run back. -/
structure Quiet (w w' : World P) : Prop where
  pending : w'.state.pending = w.state.pending
  events : w'.events = w.events
  clock : w.clock ≤ w'.clock

instance : IsPreorder (World P) Quiet where
  refl _ := ⟨rfl, rfl, Nat.le_refl _⟩
  trans _ _ _ h₁ h₂ :=
    ⟨h₂.pending.trans h₁.pending, h₂.events.trans h₁.events, h₁.clock.trans h₂.clock⟩

theorem Measures.quiet {w w' : World P} (h : Measures w w') : Quiet w w' :=
  ⟨h.pending, h.events, h.clock⟩

/-- A decision other than to propose leaves no proposal. -/
theorem record_drops {decision : Tuner.Decision}
    (h : ∀ target reason, decision ≠ .propose target reason) (w : World P) :
    (after (record decision) w).state.pending = none ∧
      (after (record decision) w).events = w.events ∧ w.clock ≤ (after (record decision) w).clock := by
  have hset : (after (setPending decision) w).state.pending = none ∧
      (after (setPending decision) w).events = w.events ∧
      (after (setPending decision) w).clock = w.clock := by
    cases decision with
    | propose target reason => exact absurd rfl (h target reason)
    | _ => exact ⟨rfl, rfl, rfl⟩
  have hrest := record_within (R := Quiet) (fun _ _ h => h.toMeasures.quiet)
    (fun _ => Within.update fun _ => ⟨rfl, rfl, Nat.le_refl _⟩) decision w
  exact ⟨hrest.pending.trans hset.1, hrest.events.trans hset.2.1, hset.2.2 ▸ hrest.clock⟩

/-- What the pass that begins in `w` assesses once it has swept, and the world it decides in. -/
def World.Assesses (w x : World P) (a : Tuner.Assessment) : Prop :=
  ∃ current rtt v ranked u, w.state.current = some current ∧
    probeCurrent current.server w = (.ok rtt, v) ∧ v.state.isFast rtt = false ∧
    sweep none v = (.ok ranked, u) ∧ assess current rtt ranked u = (.ok a, x)

/-- It follows and records its decision. -/
theorem World.Assesses.run {w x : World P} {a : Tuner.Assessment} (h : w.Assesses x a) :
    tune w = (do
      followDecision (Tuner.decide a w.state.config.autotune)
      record (Tuner.decide a w.state.config.autotune) : Daemon P TuneReport) x := by
  obtain ⟨current, rtt, v, ranked, u, hcurrent, hprobe, hslow, hsweep, hassess⟩ := h
  have hprobed := ((probeCurrent_samples current.server).run hprobe).toMeasures
  have hswept := (sweep_measures none).run hsweep
  rw [tune_slow hcurrent hprobe hslow]
  obtain ⟨probed, declinedFrom, hassess', hrun⟩ := tuneDegraded_swept current rtt hsweep
  rw [hassess] at hassess'
  obtain ⟨ha, hx⟩ := Prod.mk.inj hassess'
  rw [hrun, ← hx, ← Except.ok.inj ha, hswept.config, hprobed.config]

theorem World.Assesses.measures {w x : World P} {a : Tuner.Assessment} (h : w.Assesses x a) :
    Measures w x := by
  obtain ⟨current, rtt, v, ranked, u, _, hprobe, _, hsweep, hassess⟩ := h
  have hprobed := ((probeCurrent_samples current.server).run hprobe).toMeasures
  have hswept := (sweep_measures none).run hsweep
  exact (hprobed.trans hswept).trans ((assess_fetches current rtt ranked).run hassess).toMeasures

/-- A pass that neither moves nor proposes whatever it assesses changes nothing but measurements and
notes. -/
theorem tune_unmoved {w : World P} {current : Connection} (hcurrent : w.state.current = some current)
    (h : ∀ a x, w.Assesses x a →
      (Tuner.decide a w.state.config.autotune).isActionable = false ∧
        ∀ target reason, Tuner.decide a w.state.config.autotune ≠ .propose target reason) :
    Idles w (after tune w) ∧ (after tune w).events = w.events ∧
      ((tune w).1.isOk = true → (after tune w).state.pending = none) := by
  have hrecorded : ∀ {decision : Tuner.Decision} {u : World P},
      (∀ target reason, decision ≠ .propose target reason) → Measures w u →
      Idles w (after (record decision) u) ∧ (after (record decision) u).events = w.events ∧
        ((record decision u).1.isOk = true → (after (record decision) u).state.pending = none) := by
    intro decision u hproposes hu
    obtain ⟨hpending, hevents, _⟩ := record_drops hproposes u
    exact ⟨trans_of Idles hu.idles (record_idles decision u), hevents.trans hu.events,
      fun _ => hpending⟩
  obtain ⟨currentRtt, hprobe⟩ := probeCurrent_returns current.server w
  generalize after (probeCurrent current.server) w = v at hprobe
  have hprobed := ((probeCurrent_samples current.server).run hprobe).toMeasures
  cases hfast : v.state.isFast currentRtt with
  | true =>
    obtain ⟨rttMs, rfl, _⟩ := (Option.any_eq_true _ _).mp hfast
    rw [after, tune_fast hcurrent hprobe hfast]
    exact hrecorded (fun _ _ => Tuner.Decision.noConfusion) hprobed
  | false =>
    rcases hsweep : sweep none v with ⟨e | ranked, u⟩
    · have hswept := hprobed.trans ((sweep_measures none).run hsweep)
      rw [after, tune_slow hcurrent hprobe hfast, tuneDegraded, attempt_bind, hsweep]
      cases e with
      | allUnreachable probed => exact hrecorded (fun _ _ => Tuner.Decision.noConfusion) hswept
      | _ => exact ⟨hswept.idles, hswept.events, fun hok => (by cases hok)⟩
    · obtain ⟨_, _, hassess, _⟩ := tuneDegraded_swept current currentRtt hsweep
      have hassesses : w.Assesses _ _ :=
        ⟨current, currentRtt, v, ranked, u, hcurrent, hprobe, hfast, hsweep, hassess⟩
      obtain ⟨hrests, hproposes⟩ := h _ _ hassesses
      have hrun := hassesses.run
      rw [followDecision, hrests] at hrun
      rw [after, hrun]
      exact hrecorded hproposes hassesses.measures

/-- A pass under the policy to ask, on a server that answers and that the user chose to stay on. -/
theorem tune_declined {w v : World P} {current : Connection} {rttMs : F64} {at_ : Instant}
    (hdismissed : w.state.dismissed = some (current.server, at_))
    (hcurrent : w.state.current = some current)
    (hask : w.state.config.autotune.switchPolicy = .ask)
    (hprobe : probeCurrent current.server w = (.ok (some rttMs), v))
    (hcool : (after tune w).clock - at_ < dismissalCooldown) :
    (after tune w).events = w.events ∧
      ((tune w).1.isOk = true → (after tune w).state.pending = none) := by
  refine (tune_unmoved hcurrent fun a x hassesses => ?_).2
  have hclock : x.clock ≤ (after tune w).clock := by
    have hticks : ∀ decision, Within Ticks (do
        followDecision decision
        record decision : Daemon P TuneReport) := fun decision =>
      Within.bind (followDecision_within (fun _ => ticks_of_operates (switch_operates _)) _)
        fun _ => (record_rests _).mono ticks_of_rests
    rw [after, hassesses.run]
    exact (hticks _ x).clock
  have hdeclined : x.clock - at_ < dismissalCooldown :=
    lt_of_le_of_lt (Nat.sub_le_sub_right hclock at_) hcool
  obtain ⟨current', rtt, v', ranked, u, hcurrent', hprobe', hslow, hsweep, hassess⟩ := hassesses
  cases hcurrent.symm.trans hcurrent'
  cases hprobe.symm.trans hprobe'
  have hprobed := ((probeCurrent_samples current.server).run hprobe).toMeasures
  have hswept := hprobed.trans ((sweep_measures none).run hsweep)
  obtain ⟨probed, rfl⟩ := assess_declinedFrom hassess
  refine Tuner.decide_declined ⟨hask, _, rfl, rfl, ?_⟩
  show u.state.declinedFrom x.clock = some current.server
  rw [State.declinedFrom, hswept.dismissed, hdismissed]
  simp [Option.filter, hdeclined]

/-- Elsewhere the pass decides as if nothing had been dismissed. -/
theorem World.Assesses.undeclined {w x : World P} {a : Tuner.Assessment} {name : String}
    {at_ : Instant} (h : w.Assesses x a) (hdismissed : w.state.dismissed = some (name, at_))
    (helse : w.state.current.map Connection.server ≠ some name ∨
      (∀ current, a.current = some current → current.rttMs = none) ∨
      w.state.config.autotune.switchPolicy ≠ .ask) :
    Tuner.decide a w.state.config.autotune =
      Tuner.decide { a with declinedFrom := none } w.state.config.autotune := by
  obtain ⟨current, rtt, v, ranked, u, hcurrent, hprobe, hslow, hsweep, hassess⟩ := h
  have hprobed := ((probeCurrent_samples current.server).run hprobe).toMeasures
  have hswept := hprobed.trans ((sweep_measures none).run hsweep)
  obtain ⟨probed, rfl⟩ := assess_declinedFrom hassess
  refine Tuner.decide_not_declined ?_
  rintro ⟨hask, c, hc, hrtt, hname⟩
  cases hc
  rcases helse with hother | hsilent | hpolicy
  · have hdeclined : u.state.declinedFrom x.clock = some current.server := hname
    rw [State.declinedFrom, hswept.dismissed, hdismissed, Option.filter_some] at hdeclined
    split at hdeclined
    · rw [hcurrent] at hother
      exact hother hdeclined.symm
    · cases hdeclined
  · rw [hsilent _ rfl] at hrtt
    cases hrtt
  · exact hpolicy hask

/-! ### Runs -/

theorem dismiss_notes {w : World P} {c : Connection} (hpending : w.state.pending.isSome = true)
    (hcurrent : w.state.current = some c) :
    (step w .dismiss).state.dismissed = some (c.server, (step w .dismiss).clock) := by
  obtain ⟨⟨_, _, _, _, current, _, _, pending, _, _, _, _, _⟩, _, _, _, _⟩ := w
  obtain ⟨p, rfl⟩ := Option.isSome_iff_exists.mp hpending
  cases hcurrent
  rfl

/-- After a proposal was dismissed while the daemon was connected to a server, and until a switch
succeeds or another proposal is dismissed: before the cooldown is over, no pass under the policy to
ask, on that server while it answers, raises a proposal, and none is left where the pass returns; and
on another server, where the server is silent, or under another policy, a pass decides as if nothing
had been dismissed. -/
theorem dismissal_respected {v w u : World P} {c : Connection} {op : Op}
    (hpending : v.state.pending.isSome = true) (hcurrent : v.state.current = some c)
    (hrun : Reaches step (fun w op => ¬w.Switches op ∧ ¬w.Dismisses op) (step v .dismiss) w)
    (hpass : w.passBegins op = some u) :
    (u.state.config.autotune.switchPolicy = .ask → ∀ rttMs x,
      u.state.current.map Connection.server = some c.server →
      probeCurrent c.server u = (.ok (some rttMs), x) →
      (step w op).clock - (step v .dismiss).clock < dismissalCooldown →
      (step w op).events = w.events ∧
        ((tune u).1.isOk = true → (step w op).state.pending = none)) ∧
    ∀ a x, u.Assesses x a →
      tune u = (do
        followDecision (Tuner.decide a u.state.config.autotune)
        record (Tuner.decide a u.state.config.autotune) : Daemon P TuneReport) x ∧
      (u.state.current.map Connection.server ≠ some c.server ∨
        (∀ current, a.current = some current → current.rttMs = none) ∨
        u.state.config.autotune.switchPolicy ≠ .ask →
        Tuner.decide a u.state.config.autotune =
          Tuner.decide { a with declinedFrom := none } u.state.config.autotune) := by
  have hnoted := dismiss_notes hpending hcurrent
  have hupheld : w.state.dismissed = some (c.server, (step v .dismiss).clock) :=
    hrun.keeps (I := fun w => w.state.dismissed = some (c.server, (step v .dismiss).clock))
      (fun w op hop hw => (step_upholds w op hop).trans hw) hnoted
  obtain ⟨hstate, hevents, _⟩ := passBegins_state hpass
  have hdismissed : u.state.dismissed = some (c.server, (step v .dismiss).clock) := by
    rw [hstate]
    exact hupheld
  rw [step_pass hpass]
  refine ⟨fun hask rttMs x hserver hprobe hcool => ?_, fun a x hassesses => ?_⟩
  · obtain ⟨current, hu, hname⟩ := Option.map_eq_some_iff.mp hserver
    rw [← hname] at hdismissed hprobe
    obtain ⟨hraises, hleaves⟩ := tune_declined hdismissed hu hask hprobe hcool
    exact ⟨hraises.trans hevents, hleaves⟩
  · exact ⟨hassesses.run, hassesses.undeclined hdismissed⟩

namespace Sample

/-- The replies of three servers, the last of them the only one within the latency limit. -/
def trioReply (a : SocketAddr) : Option Duration :=
  if a.ip = .v4 0x0a000003 then some (.ofMillis 20) else some (.ofMillis 300)

def trioList : ServerList :=
  ⟨[server "Achernar" "nl" 0x0a000001 none, server "Bellatrix" "nl" 0x0a000002 none,
    server "Castor" "nl" 0x0a000003 none]⟩

def trio : World (.linux log) :=
  world config linuxMachine (outside config trioList trioReply linuxFaults)

/-- A daemon connected to a slow server, after a pass. -/
def passed (name : String) (w : World (.linux log)) : World (.linux log) :=
  step (step w (.connect (some name) none)) .autotune

/-- The proposal is dismissed on one server, and then on another before the daemon comes back. -/
def dismissedTwice : World (.linux log) :=
  step (step (step (passed "Bellatrix" (step (step (passed "Achernar" trio) .dismiss) .disconnect))
    .dismiss) .disconnect) (.connect (some "Achernar") none)

theorem trio_starts : Starts trio := world_starts config_valid rfl _ _

end Sample

theorem dismissed_pass_quiet : (step (step (Sample.passed "Achernar" Sample.trio) .dismiss)
    .autotune).state.pending = none := by
  have hpending : (Sample.passed "Achernar" Sample.trio).state.pending.isSome = true := by
    decide +kernel
  have hserver : (Sample.passed "Achernar" Sample.trio).state.current.map Connection.server =
      some "Achernar" := by decide +kernel
  obtain ⟨c, hcurrent, hname⟩ := Option.map_eq_some_iff.mp hserver
  obtain ⟨u, hu⟩ : ∃ u, u = (step (Sample.passed "Achernar" Sample.trio) .dismiss).noted := ⟨_, rfl⟩
  have hanswers : ((probeCurrent "Achernar" u).1.toOption.bind id).isSome = true := by
    rw [hu]
    decide +kernel
  have hfacts : u.state.config.autotune.switchPolicy = .ask ∧
      u.state.current.map Connection.server = some "Achernar" ∧ (tune u).1.isOk = true ∧
      (step (step (Sample.passed "Achernar" Sample.trio) .dismiss) .autotune).clock -
        (step (Sample.passed "Achernar" Sample.trio) .dismiss).clock < dismissalCooldown := by
    rw [hu]
    decide +kernel
  obtain ⟨hask, hstays, hreturns, hcool⟩ := hfacts
  rcases hprobe : probeCurrent "Achernar" u with ⟨_ | _ | rttMs, x⟩
  · rw [hprobe] at hanswers
    cases hanswers
  · rw [hprobe] at hanswers
    cases hanswers
  · rw [← hname] at hprobe hstays
    exact ((dismissal_respected hpending hcurrent .here (hu ▸ rfl)).1 hask rttMs x hstays hprobe
      hcool).2 hreturns

/-- After a dismissal, and for as long as the run does what `allowed` says, no pass under the policy to
ask, on that server while it answers and before the cooldown is over, leaves a proposal. -/
def LeavesNone (allowed : World P → Op → Prop) : Prop :=
  ∀ (v w u : World P) (c : Connection) (op : Op), Reachable v →
    v.state.pending.isSome = true → v.state.current = some c →
    Reaches step allowed (step v .dismiss) w → w.passBegins op = some u →
    u.state.config.autotune.switchPolicy = .ask →
    u.state.current.map Connection.server = some c.server →
    (∃ rttMs x, probeCurrent c.server u = (.ok (some rttMs), x)) →
    (step w op).clock - (step v .dismiss).clock < dismissalCooldown →
    (step w op).state.pending = none

/-- A pass requested after a dismissal on the same server. -/
structure Proposes (v w : World P) (name : String) : Prop where
  pending : v.state.pending.isSome = true
  dismissed : v.state.current.map Connection.server = some name
  current : w.state.current.map Connection.server = some name
  ask : w.state.config.autotune.switchPolicy = .ask
  answers : ((probeCurrent name w.noted).1.toOption.bind id).isSome = true
  cool : (step w .autotune).clock - (step v .dismiss).clock < dismissalCooldown
  raised : (step w .autotune).state.pending.isSome = true

theorem Proposes.not_leavesNone {allowed : World P → Op → Prop} {v w : World P} {name : String}
    (h : Proposes v w name) (hreach : Reachable v)
    (hrun : Reaches step allowed (step v .dismiss) w) : ¬LeavesNone (P := P) allowed := by
  intro hleaves
  obtain ⟨c, hcurrent, rfl⟩ := Option.map_eq_some_iff.mp h.dismissed
  have hprobes : ∃ rttMs x, probeCurrent c.server w.noted = (.ok (some rttMs), x) := by
    have hanswers := h.answers
    rcases hprobe : probeCurrent c.server w.noted with ⟨_ | _ | rttMs, x⟩
    · rw [hprobe] at hanswers
      cases hanswers
    · rw [hprobe] at hanswers
      cases hanswers
    · exact ⟨rttMs, x, rfl⟩
  have hnone := hleaves v w w.noted c .autotune hreach h.pending hcurrent hrun rfl h.ask h.current
    hprobes h.cool
  have hraised := h.raised
  rw [hnone] at hraised
  cases hraised

theorem not_switches {w : World P} {op : Op} (hnone : w.passBegins op = none)
    (hswitch : ∀ name, op ≠ .switch name) (happrove : op ≠ .approve) : ¬w.Switches op := by
  cases op with
  | switch name => exact absurd rfl (hswitch name)
  | approve => exact absurd rfl happrove
  | _ =>
    rintro ⟨u, _, hu, _⟩
    cases hnone.symm.trans hu

theorem autotune_not_switches {w : World P}
    (h : (tune w.noted).1.toOption.map TuneReport.switched = some false) : ¬w.Switches .autotune := by
  rintro ⟨u, report, hu, hreport, hmoved⟩
  cases hu
  rw [hreport] at h
  cases hmoved.symm.trans (Option.some.inj h)

namespace Sample

/-- The same servers, none of them healthy any more. -/
def drainedList : ServerList := ⟨trioList.servers.map fun s => { s with health := .error }⟩

/-- The first server does not answer in the second pass, and is no longer healthy in the third. -/
def drained : World (.linux log) :=
  let o := outside config trioList trioReply linuxFaults
  world config linuxMachine { o with
    fetch := fun n => .fetched (if n = 0 then trioList else drainedList)
    network := fun n => network fun a =>
      if n = 3 ∧ a.ip = .v4 0x0a000001 then none else trioReply a }

theorem drained_starts : Starts drained := world_starts config_valid rfl _ _

/-- After the dismissal, a pass that hears nothing proposes again, and the settings are read again. -/
def reproposed : World (.linux log) :=
  step (step (step (passed "Achernar" drained) .dismiss) .autotune) .reload

end Sample

/-- Only the latest dismissal is kept, and a pass that fails leaves the proposal of an earlier one. -/
theorem earlier_dismissal_forgotten :
    ¬LeavesNone (fun (w : World (.linux Sample.log)) op => ¬w.Switches op) ∧
    ¬LeavesNone (fun (w : World (.linux Sample.log)) op => ¬w.Switches op ∧ ¬w.Dismisses op) := by
  constructor
  · have hproposes : Proposes (Sample.passed "Achernar" Sample.trio) Sample.dismissedTwice "Achernar" := by
      constructor <;> decide +kernel
    refine hproposes.not_leavesNone ⟨_, Sample.trio_starts, .next (.next .here trivial) trivial⟩ ?_
    refine .next (.next (.next (.next (.next (.next .here ?_) ?_) ?_) ?_) ?_) ?_
    · exact not_switches rfl (fun _ => Op.noConfusion) Op.noConfusion
    · exact not_switches rfl (fun _ => Op.noConfusion) Op.noConfusion
    · exact autotune_not_switches (by decide +kernel)
    · exact not_switches rfl (fun _ => Op.noConfusion) Op.noConfusion
    · exact not_switches rfl (fun _ => Op.noConfusion) Op.noConfusion
    · exact not_switches rfl (fun _ => Op.noConfusion) Op.noConfusion
  · have hproposes : Proposes (Sample.passed "Achernar" Sample.drained) Sample.reproposed "Achernar" := by
      constructor <;> decide +kernel
    refine hproposes.not_leavesNone ⟨_, Sample.drained_starts, .next (.next .here trivial) trivial⟩ ?_
    refine .next (.next .here ⟨?_, ?_⟩) ⟨?_, ?_⟩
    · exact autotune_not_switches (by decide +kernel)
    · rintro ⟨hop, _⟩
      cases hop
    · exact not_switches rfl (fun _ => Op.noConfusion) Op.noConfusion
    · rintro ⟨hop, _⟩
      cases hop

end Vpnmgr
