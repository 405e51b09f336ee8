import Vpnmgr.Daemon.Candidates
import Vpnmgr.Tunnel.Firewall

/-! What a failed `connect` does to a kill switch that was engaged before it, on both backends. -/

namespace Vpnmgr

open Ieee Stateful Stateful.Action

variable {P : Platform}

/-- A server to bring the tunnel up on is found: the one that was named answers, or some do. -/
def World.Chooses (w : World P) (measureFirst : Option Bool) : Option String → Prop
  | some name => ∃ chosen v, probeNamed name w = (.ok chosen, v)
  | none => ∃ first rest v, rankForConnect measureFirst w = (.ok (first :: rest), v)

/-- The kill switch is as much in force as before. -/
def Guards (w w' : World P) : Prop := P.Enforces w'.machine ↔ P.Enforces w.machine

instance : IsPreorder (World P) Guards where
  refl _ := Iff.rfl
  trans _ _ _ h₁ h₂ := h₂.trans h₁

theorem samples_guards (w w' : World P) (h : Samples w w') : Guards w w' :=
  iff_of_eq (congrArg P.Enforces h.machine)

/-- When an attempt to bring a tunnel up opens an engaged kill switch: it depends on the settings
and the backend alone, and moving a tunnel never does. -/
structure Decides (Opens : World P → Prop) : Prop where
  moves : ∀ spec f s, P.Enforces (P.switchEndpoint spec f s).2.2 ↔ P.Enforces s.2
  measures : ∀ w w', Measures w w' → (Opens w' ↔ Opens w)
  trial : ∀ w, Opens (after nextTrial w) ↔ Opens w
  establish : ∀ chosen w, P.Enforces w.machine →
    (P.Enforces (after (Vpnmgr.establish chosen) w).machine ↔ ¬Opens w)

namespace Decides

variable {Opens : World P → Prop} (law : Decides Opens)

include law

theorem moveTo_guards (chosen : RankedServer) :
    Within Guards (moveTo chosen : Daemon P Unit) := by
  refine Within.bind (fun w => ?_) fun _ => Within.update fun _ => Iff.rfl
  rcases h : retarget chosen w with ⟨r, w'⟩
  rcases retarget_cases h with ⟨_, _, hkept⟩ | ⟨tunnel, _, _, _, hswitch, _⟩ |
    ⟨tunnel, _, _, hswitch, _⟩
  · rw [hkept]; exact refl_of Guards w
  all_goals
    have hmoves := law.moves (w.state.spec chosen) (w.outside.faults.switches 0) (tunnel, w.machine)
    rw [hswitch] at hmoves
    exact hmoves

theorem tryCandidates_guards {target : F64} {request : ThroughputRequest}
    {best : Option (RankedServer × F64)} {candidate : RankedServer} {rest : List RankedServer}
    {w w' : World P} {r : Except Error Tried}
    (h : tryCandidates target request true best (candidate :: rest) w = (r, w')) :
    Guards (after (Vpnmgr.establish candidate) (after nextTrial w)) w' := by
  rcases hpoint : Vpnmgr.establish candidate (after nextTrial w) with ⟨e | _, v⟩
  · have hstop := h.symm.trans (bind_run_error (x := Vpnmgr.establish candidate) hpoint)
    cases hstop
    rw [after, hpoint]
    exact refl_of Guards _
  · have hrest := tryOut_within (P := P) (.of_samples samples_guards) candidate (w.outside.trial 0) best
      fun best => tryCandidates_within (.of_samples samples_guards) (fun _ => Iff.rfl)
        (fun c _ => law.moveTo_guards c) target request best rest fun _ _ => trivial
    rw [after, hpoint]
    exact hrest.run ((bind_run_ok (x := Vpnmgr.establish candidate) hpoint).symm.trans h)

theorem settleFor_guards {shortlist : List RankedServer} {best : Option (RankedServer × F64)}
    {w w' : World P} {r : Except Error RankedServer} (hw : w.Connected)
    (h : settleFor shortlist best w = (r, w')) : Guards w w' := by
  cases best with
  | some best =>
    have hguards : Within Guards (settleFor shortlist (some best) : Daemon P RankedServer) :=
      Within.bind (Within.bind (Within.read _) fun _ =>
        Within.ite (law.moveTo_guards _) (Within.pure _)) fun _ => Within.pure _
    exact hguards.run h
  | none =>
    cases shortlist with
    | nil => cases h; exact refl_of Guards w
    | cons fallback rest =>
      rw [settleFor, bind_run_ok (ensureUp_connected hw)] at h
      cases h
      exact refl_of Guards w

/-- A failed attempt to connect opens an engaged kill switch exactly where it finds a server to bring
the tunnel up on and bringing it up opens the kill switch. -/
theorem failed_connect {server : Option String} {measureFirst : Option Bool} {e : Error}
    {w w' : World P} (hcurrent : w.state.current = none) (henforces : P.Enforces w.machine)
    (h : connect server measureFirst w = (.error e, w')) :
    P.Enforces w'.machine ↔ ¬(w.Chooses measureFirst server ∧ Opens w) := by
  cases server with
  | some name =>
    rw [connect_some_run hcurrent] at h
    rcases hprobe : probeNamed name w with ⟨e' | chosen, v⟩
    · have hmeasures := ((probeNamed_samples _).run hprobe).toMeasures
      have hstop := h.symm.trans (bind_run_error hprobe)
      cases hstop
      rw [hmeasures.machine]
      refine iff_of_true henforces ?_
      rintro ⟨⟨_, _, hok⟩, _⟩
      rw [hprobe] at hok
      cases hok
    · have hmeasures := ((probeNamed_samples _).run hprobe).toMeasures
      rw [bind_run_ok hprobe] at h
      have hestablish := law.establish chosen v (by rw [hmeasures.machine]; exact henforces)
      rcases bind_error h with h | ⟨_, _, _, h⟩
      · rw [after, h, law.measures _ _ hmeasures] at hestablish
        rw [hestablish, and_iff_right ⟨chosen, v, hprobe⟩]
      · cases h
  | none =>
    rw [connect_none_run hcurrent] at h
    rcases hrank : rankForConnect measureFirst w with ⟨e' | ranked, v⟩
    · have hmeasures := (rankForConnect_measures _).run hrank
      have hstop := h.symm.trans (bind_run_error hrank)
      cases hstop
      rw [hmeasures.machine]
      refine iff_of_true henforces ?_
      rintro ⟨⟨_, _, _, hok⟩, _⟩
      rw [hrank] at hok
      cases hok
    · have hmeasures := (rankForConnect_measures _).run hrank
      rw [connectBest, bind_run_ok hrank, self, read_bind] at h
      cases ranked with
      | nil =>
        cases h
        rw [hmeasures.machine]
        refine iff_of_true henforces ?_
        rintro ⟨⟨_, _, _, hok⟩, _⟩
        rw [hrank] at hok
        cases hok
      | cons first rest =>
        have hv : P.Enforces v.machine := by rw [hmeasures.machine]; exact henforces
        have hchooses : w.Chooses measureFirst none := ⟨first, rest, v, hrank⟩
        rw [and_iff_right hchooses, ← law.measures _ _ hmeasures]
        dsimp only at h
        by_cases hattempts : v.state.attempts measureFirst (first :: rest) = 0
        · rw [if_pos hattempts] at h
          rcases bind_error h with h | ⟨_, _, _, h⟩
          · have hestablish := law.establish first v hv
            rw [after, h] at hestablish
            exact hestablish
          · cases h
        · rw [if_neg hattempts] at h
          obtain ⟨n, hn⟩ := Nat.exists_eq_succ_of_ne_zero hattempts
          rw [hn, List.take_succ_cons] at h
          have hguards : Guards (after (Vpnmgr.establish first) (after nextTrial v)) w' := by
            rcases bind_error h with htry | ⟨tried, u, htry, h⟩
            · exact law.tryCandidates_guards htry
            · rcases tryCandidates_first htry with ⟨_, hleft⟩ | ⟨_, _, _, herror⟩
              · cases tried with
                | settled chosen => cases h
                | best best =>
                  exact trans_of Guards (law.tryCandidates_guards htry) (law.settleFor_guards hleft h)
              · cases herror
          have hestablish := law.establish first (after nextTrial v) hv
          rw [law.trial] at hestablish
          exact Iff.trans hguards hestablish

end Decides

/-! ### The two backends -/

theorem spec_validate (s : State P) (chosen : RankedServer) :
    (s.spec chosen).validate = .ok () := by
  have hname : ¬defaultInterface = "" ∧ ¬16 ≤ defaultInterface.utf8ByteSize ∧
      defaultInterface.toList.all (fun c => c.isAlphanum || c == '-' || c == '_') = true := by
    decide
  simp only [TunnelSpec.validate, State.spec, hname, if_false, not_true_eq_false]

/-- What fitting a handle keeps of it, if the two steps of fitting keep it. -/
theorem fit_cases {p : P.Tunnel → Prop} (s : State P) (around : Surroundings) {t : P.Tunnel}
    (hplain : s.config.killswitch.enabled = false → p t ∧ ∀ plan, p (P.withBypass plan t))
    (hkill : s.config.killswitch.enabled = true → ∀ plan, p (P.withKillswitch
      s.config.killswitch.allowLan t) ∧
        p (P.withKillswitch s.config.killswitch.allowLan (P.withBypass plan t))) :
    p (s.fit around t) := by
  unfold State.fit
  dsimp only
  cases henabled : s.config.killswitch.enabled with
  | true =>
    rw [if_pos rfl]
    split
    · exact (hkill henabled []).1
    · exact (hkill henabled _).2
  | false =>
    rw [if_neg Bool.false_ne_true]
    split
    · exact (hplain henabled).1
    · exact (hplain henabled).2 _

/-- A handle is fitted with a kill switch exactly when one is configured. -/
theorem fit_linux {log : Logarithm} (s : State (.linux log)) (around : Surroundings)
    {t : LinuxTunnel} (ht : t.killswitch = none) :
    (s.fit around t : LinuxTunnel).killswitch.isSome = s.config.killswitch.enabled := by
  refine fit_cases (p := fun t : LinuxTunnel => t.killswitch.isSome = _) s around ?_ ?_
  · intro henabled
    rw [henabled, ht]
    exact ⟨rfl, fun _ => by simp [Platform.linux, Linux.withBypass, ht]⟩
  · intro henabled plan
    rw [henabled]
    exact ⟨rfl, rfl⟩

theorem fit_windows {log : Logarithm} (s : State (.windows log)) (around : Surroundings)
    {t : Windows.Tunnel} (ht : t.killswitch = none) :
    (s.fit around t : Windows.Tunnel).killswitch.isSome = s.config.killswitch.enabled ∧
      (s.fit around t : Windows.Tunnel).installed = t.installed := by
  refine fit_cases (p := fun u : Windows.Tunnel => u.killswitch.isSome = _ ∧
    u.installed = t.installed) s around ?_ ?_
  · intro henabled
    rw [henabled, ht]
    exact ⟨⟨rfl, rfl⟩, fun _ => by simp [Platform.windows, Windows.withBypass, ht]⟩
  · intro henabled plan
    rw [henabled]
    exact ⟨⟨rfl, rfl⟩, rfl, rfl⟩

/-- On Linux: a kill switch is configured, the handle opens, and the attempt opens the kill switch. -/
def World.OpensLinux {log : Logarithm} (w : World (.linux log)) : Prop :=
  w.state.config.killswitch.enabled = true ∧ w.outside.faults.opens 0 = none ∧
    Linux.Opens w.state.client (w.outside.faults.ups 0) (w.outside.faults.drops 0)

/-- On Windows: a kill switch is configured, WireGuard is found, and the attempt opens the kill
switch. -/
def World.OpensWindows {log : Logarithm} (w : World (.windows log)) : Prop :=
  w.state.config.killswitch.enabled = true ∧ (w.machine : Windows.Machine).wireguardExe = true ∧
    Windows.Opens (w.outside.faults.ups 0) (w.machine : Windows.Machine).firewall

theorem decides_linux (log : Logarithm) : Decides (fun w : World (.linux log) => w.OpensLinux) where
  moves spec f s := by
    show (Linux.retarget spec f s).2.2.firewall.isSome = true ↔ s.2.firewall.isSome = true
    rw [(Linux.retarget_onlyDevice spec f s).firewall]
  measures w w' h := by
    unfold World.OpensLinux
    rw [h.config, h.client, h.faults]
  trial w := Iff.rfl
  establish chosen w henforces := by
    rcases h : establish chosen w with ⟨r, w'⟩
    rw [after, h]
    have hspec := spec_validate w.state chosen
    cases hopen : w.outside.faults.opens 0 with
    | some e =>
      have hshut : ¬w.OpensLinux := fun hall => by cases hopen.symm.trans hall.2.1
      rcases establish_cases h with ⟨_, _, _, _, _, hm⟩ | ⟨_, _, _, _, hnew, _⟩ | ⟨_, _, hnew, _⟩
      · rw [hm]
        exact iff_of_true henforces hshut
      all_goals
        rw [hopen] at hnew
        cases hnew
    | none =>
      have hopens : w.OpensLinux ↔ w.state.config.killswitch.enabled = true ∧
          Linux.Opens (w.state.spec chosen).client (w.outside.faults.ups 0)
            (w.outside.faults.drops 0) :=
        ⟨fun hall => ⟨hall.1, hall.2.2⟩, fun hall => ⟨hall.1, hopen, hall.2⟩⟩
      rw [hopens]
      rcases establish_cases h with ⟨_, hnew, _⟩ | ⟨opened, _, _, _, hnew, hup, _, _, _, hm⟩ |
        ⟨opened, _, hnew, hup, _⟩
      · rw [hopen] at hnew
        cases hnew
      · rw [hopen] at hnew
        have hown : opened.killswitch = none := by cases hnew; rfl
        have hfails := Linux.up_error_engaged hspec henforces hup (w.outside.faults.drops 0)
        rw [fit_linux _ _ hown] at hfails
        rw [hm]
        exact hfails
      · rw [hopen] at hnew
        have hown : opened.killswitch = none := by cases hnew; rfl
        have hsucceeds := Linux.up_ok_engaged hspec henforces hup (w.outside.faults.drops 0)
        rw [fit_linux _ _ hown] at hsucceeds
        exact iff_of_true hsucceeds.1 hsucceeds.2

theorem decides_windows (log : Logarithm) : Decides (fun w : World (.windows log) => w.OpensWindows) where
  moves spec f s := iff_of_eq (congrArg Windows.Firewall.Enforces (Windows.switchEndpoint_firewall spec f s))
  measures w w' h := by
    unfold World.OpensWindows
    rw [h.config, h.machine, h.faults]
  trial w := Iff.rfl
  establish chosen w henforces := by
    rcases h : establish chosen w with ⟨r, w'⟩
    rw [after, h]
    have hspec := spec_validate w.state chosen
    have hopened : (Platform.windows log).new (w.outside.faults.opens 0) w.machine =
      Windows.new defaultInterface w.machine := rfl
    unfold Windows.new at hopened
    cases hexe : (w.machine : Windows.Machine).wireguardExe with
    | false =>
      have hshut : ¬w.OpensWindows := fun hall => Bool.false_ne_true (hexe.symm.trans hall.2.1)
      rw [if_neg (by rw [hexe]; exact Bool.false_ne_true)] at hopened
      rcases establish_cases h with ⟨_, _, _, _, _, hm⟩ | ⟨_, _, _, _, hnew, _⟩ | ⟨_, _, hnew, _⟩
      · rw [hm]
        exact iff_of_true henforces hshut
      all_goals
        rw [hopened] at hnew
        cases hnew
    | true =>
      have hopens : w.OpensWindows ↔ w.state.config.killswitch.enabled = true ∧
          Windows.Opens (w.outside.faults.ups 0) (w.machine : Windows.Machine).firewall :=
        ⟨fun hall => ⟨hall.1, hall.2.2⟩, fun hall => ⟨hall.1, hexe, hall.2⟩⟩
      rw [if_pos hexe] at hopened
      rw [hopens]
      rcases establish_cases h with ⟨_, hnew, _⟩ | ⟨opened, _, _, _, hnew, hup, _, _, _, hm⟩ |
        ⟨opened, _, hnew, hup, _⟩
      · rw [hopened] at hnew
        cases hnew
      all_goals
        rw [hopened] at hnew
        have hown : opened.killswitch = none ∧ opened.installed = false := by
          cases hnew; exact ⟨rfl, rfl⟩
        have hfit := fit_windows w.state (w.outside.surroundings 0) hown.1
        have hfinal := Windows.up_enforces hspec henforces hup
        rw [hfit.1] at hfinal
      · have hkept := Windows.up_error_installed hspec hup
        rw [hfit.2, hown.2] at hkept
        have hdrop := Windows.drop_firewall (d := w.outside.faults.drops 0) hkept
        rw [hm]
        exact (iff_of_eq (congrArg Windows.Firewall.Enforces (hdrop _))).trans hfinal
      · exact hfinal

/-- After a failed `connect` a kill switch that was engaged is engaged still, on either backend,
exactly where no server was found or bringing the tunnel up on it did not open the kill switch. -/
theorem failed_connect_engaged_iff (log : Logarithm) (server : Option String)
    (measureFirst : Option Bool) (e : Error) :
    (∀ w w' : World (.linux log), w.state.current = none →
      (Platform.linux log).Enforces w.machine →
      connect server measureFirst w = (.error e, w') →
        ((Platform.linux log).Enforces w'.machine ↔
          ¬(w.Chooses measureFirst server ∧ w.OpensLinux))) ∧
    (∀ w w' : World (.windows log), w.state.current = none →
      (Platform.windows log).Enforces w.machine →
      connect server measureFirst w = (.error e, w') →
        ((Platform.windows log).Enforces w'.machine ↔
          ¬(w.Chooses measureFirst server ∧ w.OpensWindows))) :=
  ⟨fun _ _ => (decides_linux log).failed_connect, fun _ _ => (decides_windows log).failed_connect⟩

/-- The kill switch turned on, and a server asked for that is not in the list. -/
theorem unknown_connect_engaged :
    (Platform.linux Sample.log).Enforces (after (connect (some "Castor") none)
      (step (Sample.pair Sample.linuxFaults) (.killswitch (some true)))).machine := by
  obtain ⟨e, h⟩ := run_error (x := connect (some "Castor") none)
    (s := step (Sample.pair Sample.linuxFaults) (.killswitch (some true))) (by decide +kernel)
  refine ((failed_connect_engaged_iff Sample.log _ _ e).1 _ _ rfl (by exact rfl) h).mpr ?_
  rintro ⟨_, _, _, ⟨hengage, _⟩ | ⟨_, hstop, _⟩⟩
  · cases hengage
  · cases hstop

/-- A backend that cannot create the interface. -/
def Sample.noInterface : Faults (.linux Sample.log) :=
  { Sample.linuxFaults with
    ups := fun _ => { install := Sample.installs, bringUp := some (.createInterface, "no module") } }

/-- A backend that fails to add the rule that allows WireGuard. -/
def Sample.noRule : Faults (.windows Sample.log) :=
  { Sample.windowsFaults with
    ups := fun _ => { install := Sample.installs, engage := { stopsAt := some (4, "denied") } } }

/-- With the kill switch turned on, an interface that cannot be created releases it on Linux, and a
rule that cannot be added releases it on Windows. -/
theorem failed_connect_opens :
    ¬(∀ (server : Option String) (measureFirst : Option Bool) (e : Error)
      (w w' : World (.linux Sample.log)), w.state.current = none →
      (Platform.linux Sample.log).Enforces w.machine →
      connect server measureFirst w = (.error e, w') →
        (Platform.linux Sample.log).Enforces w'.machine) ∧
    ¬(∀ (server : Option String) (measureFirst : Option Bool) (e : Error)
      (w w' : World (.windows Sample.log)), w.state.current = none →
      (Platform.windows Sample.log).Enforces w.machine →
      connect server measureFirst w = (.error e, w') →
        (Platform.windows Sample.log).Enforces w'.machine) := by
  constructor
  · intro hsafe
    obtain ⟨e, h⟩ := run_error (x := connect (some "Achernar") none)
      (s := step (Sample.pair Sample.noInterface) (.killswitch (some true))) (by decide +kernel)
    have hopen : (Platform.linux Sample.log).isEngaged (connect (some "Achernar") none
        (step (Sample.pair Sample.noInterface) (.killswitch (some true)))).2.machine = false := by
      decide +kernel
    exact Bool.false_ne_true (hopen.symm.trans (hsafe _ _ _ _ _ rfl (by exact rfl) h))
  · intro hsafe
    obtain ⟨e, h⟩ := run_error (x := connect (some "Achernar") none)
      (s := step (Sample.windowsPair Sample.noRule) (.killswitch (some true))) (by decide +kernel)
    have hopen : (Platform.windows Sample.log).isEngaged (connect (some "Achernar") none
        (step (Sample.windowsPair Sample.noRule) (.killswitch (some true)))).2.machine = false := by
      decide +kernel
    exact Bool.false_ne_true
      (hopen.symm.trans (hsafe _ _ _ _ _ rfl ⟨by decide, fun _ => rfl⟩ h).1)

end Vpnmgr
