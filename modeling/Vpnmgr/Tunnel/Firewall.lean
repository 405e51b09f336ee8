import Vpnmgr.Tunnel.Platform

/-! What the calls of the two backends do to the firewall: bringing a tunnel up, moving it, and
dropping a handle that could not be brought up. -/

namespace Vpnmgr

open Stateful Stateful.Action

namespace Linux

/-- Only the interface changes, and whether the handle created it. -/
structure OnlyDevice (s s' : LinuxTunnel × LinuxMachine) : Prop where
  killswitch : s'.1.killswitch = s.1.killswitch
  bypass : s'.1.bypass = s.1.bypass
  main : s'.2.main = s.2.main
  firewall : s'.2.firewall = s.2.firewall

instance : IsPreorder (LinuxTunnel × LinuxMachine) OnlyDevice where
  refl _ := ⟨rfl, rfl, rfl, rfl⟩
  trans _ _ _ h₁ h₂ := ⟨h₂.killswitch.trans h₁.killswitch, h₂.bypass.trans h₁.bypass,
    h₂.main.trans h₁.main, h₂.firewall.trans h₁.firewall⟩

theorem command_onlyDevice {σ : Type} [DecidableEq σ] (fault : Option (σ × String)) (name : σ)
    (operation : String) {effect : LinuxTunnel × LinuxMachine → LinuxTunnel × LinuxMachine}
    (heffect : ∀ s, OnlyDevice s (effect s)) :
    Within OnlyDevice (command fault name operation effect) := by
  intro s
  unfold command
  split
  · split
    · exact refl_of _ s
    · exact heffect s
  · exact heffect s

theorem onDevice_onlyDevice (f : Device → Device) (s : LinuxTunnel × LinuxMachine) :
    OnlyDevice s (onDevice f s) := ⟨rfl, rfl, rfl, rfl⟩

theorem bringUp_onlyDevice (spec : TunnelSpec) (fault : Option (BringUpStep × String)) :
    Within OnlyDevice (bringUp spec fault) := by
  refine Within.bind (command_onlyDevice _ _ _ fun _ => ⟨rfl, rfl, rfl, rfl⟩) fun _ => ?_
  refine Within.bind (command_onlyDevice _ _ _ (onDevice_onlyDevice _)) fun _ => ?_
  refine Within.bind (command_onlyDevice _ _ _ (onDevice_onlyDevice _)) fun _ => ?_
  exact Within.ite (command_onlyDevice _ _ _ (onDevice_onlyDevice _)) (Within.pure _)

theorem retarget_onlyDevice (spec : TunnelSpec) (fault : Option (RetargetStep × String)) :
    Within OnlyDevice (retarget spec fault) := by
  refine Within.bind (command_onlyDevice _ _ _ (onDevice_onlyDevice _)) fun _ => ?_
  refine Within.bind (command_onlyDevice _ _ _ (onDevice_onlyDevice _)) fun _ => ?_
  refine Within.bind (command_onlyDevice _ _ _ (onDevice_onlyDevice _)) fun _ => ?_
  exact command_onlyDevice _ _ _ (onDevice_onlyDevice _)

/-- Whether a fault stops the interface from coming up. DNS is only set where there is some. -/
def stopsBringUp (client : ClientConfig) : Option (BringUpStep × String) → Bool
  | none => false
  | some (.configureDns, _) => client.dns ≠ [] ∨ client.searchDomains ≠ []
  | some _ => true

theorem bringUp_isOk (spec : TunnelSpec) (fault : Option (BringUpStep × String))
    (s : LinuxTunnel × LinuxMachine) :
    (bringUp spec fault s).1.isOk = !stopsBringUp spec.client fault := by
  rcases fault with _ | ⟨step, e⟩
  · by_cases hdns : spec.client.dns ≠ [] ∨ spec.client.searchDomains ≠ [] <;>
      simp [bringUp, bind_run, command, stopsBringUp, hdns, Except.isOk, Except.toBool]
  · cases step with
    | configureDns =>
      by_cases hdns : spec.client.dns ≠ [] ∨ spec.client.searchDomains ≠ [] <;>
        simp [bringUp, bind_run, command, stopsBringUp, hdns, Except.isOk, Except.toBool]
    | _ => simp [bringUp, bind_run, command, stopsBringUp, Except.isOk, Except.toBool]

/-- The table that engaging a tunnel's own kill switch leaves. -/
def ownTable (t : LinuxTunnel) (bypass : Bypass) (m : LinuxMachine) : Option NftTable :=
  match t.killswitch with
  | some k => some ⟨k.allowing bypass.destinations, 0⟩
  | none => m.firewall

variable {spec : TunnelSpec} {f : UpFault} {t : LinuxTunnel} {m : LinuxMachine}

/-- What an installation of the plan leaves of the handle's bypass and of the main table. -/
def planned (f : UpFault) (t : LinuxTunnel) (m : LinuxMachine) : Bypass × RouteTable :=
  t.bypass.install f.install t.bypassPlan m.main

/-- The handle and the machine once the kill switch is engaged. -/
def engaged (f : UpFault) (t : LinuxTunnel) (m : LinuxMachine) : LinuxTunnel × LinuxMachine :=
  ((installPlan f.install (t, m)).1,
    { (installPlan f.install (t, m)).2 with firewall := ownTable t (planned f t m).1 m })

theorem engageOwn_run (hk : t.killswitch.isSome = true → f.engage = none) :
    engageOwn f.engage (installPlan f.install (t, m)) = (.ok (), engaged f t m) := by
  cases hown : t.killswitch with
  | none => simp [engageOwn, engaged, installPlan, hown, ownTable]
  | some k =>
    rw [hown] at hk
    simp [engageOwn, engaged, installPlan, hown, ownTable, hk, engage, planned]

/-- Where the kill switch cannot be engaged, the firewall stays as it was. -/
theorem up_unengaged {k : Killswitch} {e : String} (hspec : spec.validate = .ok ())
    (hk : t.killswitch = some k) (he : f.engage = some e) :
    (up spec f (t, m)).1.isOk = false ∧ (up spec f (t, m)).2.1.killswitch = t.killswitch ∧
      (up spec f (t, m)).2.2.firewall = m.firewall := by
  simp [up, hspec, bind_run, installPlan, engageOwn, hk, he, engage, Except.isOk, Except.toBool]

/-- With the kill switch engaged, bringing up the interface decides the rest. -/
theorem up_run (hspec : spec.validate = .ok ())
    (hk : t.killswitch.isSome = true → f.engage = none) :
    up spec f (t, m) = match bringUp spec f.bringUp (engaged f t m) with
      | (.ok (), s) => (.ok (), s)
      | (.error e, s) => (.error e, releaseOwn f.release (removeRoutes f.deleted s)) := by
  have hengaged := engageOwn_run (f := f) (t := t) (m := m) hk
  rcases hbring : bringUp spec f.bringUp (engaged f t m) with ⟨_ | _, s⟩ <;>
    simp [up, hspec, bind_run, hengaged, hbring]

theorem removeRoutes_killswitch (deleted : Route → Bool) (s : LinuxTunnel × LinuxMachine) :
    (removeRoutes deleted s).1.killswitch = s.1.killswitch := rfl

theorem removeRoutes_firewall (deleted : Route → Bool) (s : LinuxTunnel × LinuxMachine) :
    (removeRoutes deleted s).2.firewall = s.2.firewall := rfl

theorem releaseOwn_killswitch (fault : Option String) (s : LinuxTunnel × LinuxMachine) :
    (releaseOwn fault s).1.killswitch = s.1.killswitch := by
  unfold releaseOwn
  split <;> rfl

theorem releaseOwn_firewall (fault : Option String) (s : LinuxTunnel × LinuxMachine) :
    (releaseOwn fault s).2.firewall =
      if s.1.killswitch.isSome ∧ fault = none then none else s.2.firewall := by
  unfold releaseOwn release
  cases s.1.killswitch <;> cases fault <;> rfl

/-- Where the interface cannot be brought up, the kill switch is released if that succeeds. -/
theorem up_stopped (hspec : spec.validate = .ok ())
    (hk : t.killswitch.isSome = true → f.engage = none)
    (hstop : stopsBringUp spec.client f.bringUp = true) :
    (up spec f (t, m)).1.isOk = false ∧ (up spec f (t, m)).2.1.killswitch = t.killswitch ∧
      (up spec f (t, m)).2.2.firewall = if t.killswitch.isSome ∧ f.release = none then none
        else ownTable t (planned f t m).1 m := by
  have hfails := bringUp_isOk spec f.bringUp (engaged f t m)
  have honly := bringUp_onlyDevice spec f.bringUp (engaged f t m)
  rw [hstop] at hfails
  obtain ⟨e, hbring⟩ := run_error hfails
  rw [up_run hspec hk, hbring]
  refine ⟨rfl, ?_, ?_⟩
  · rw [releaseOwn_killswitch, removeRoutes_killswitch, honly.killswitch]
    rfl
  · rw [releaseOwn_firewall, removeRoutes_killswitch, removeRoutes_firewall, honly.killswitch,
      honly.firewall]
    rfl

/-- Where all of it succeeds, the plan is installed and the kill switch knows what was. -/
theorem up_done (hspec : spec.validate = .ok ())
    (hk : t.killswitch.isSome = true → f.engage = none)
    (hgoes : stopsBringUp spec.client f.bringUp = false) :
    (up spec f (t, m)).1.isOk = true ∧ (up spec f (t, m)).2.1.killswitch = t.killswitch ∧
      (up spec f (t, m)).2.1.bypass = (planned f t m).1 ∧
      (up spec f (t, m)).2.2.main = (planned f t m).2 ∧
      (up spec f (t, m)).2.2.firewall = ownTable t (planned f t m).1 m := by
  have hsucceeds := bringUp_isOk spec f.bringUp (engaged f t m)
  have honly := bringUp_onlyDevice spec f.bringUp (engaged f t m)
  rw [hgoes] at hsucceeds
  obtain ⟨_, hbring⟩ := run_ok hsucceeds
  rw [up_run hspec hk, hbring]
  exact ⟨rfl, honly.killswitch, honly.bypass, honly.main, honly.firewall⟩

/-- Dropping a handle releases the kill switch that it has, if that succeeds. -/
theorem drop_firewall (f : TeardownFault) (t : LinuxTunnel) (m : LinuxMachine) :
    (drop f t m).firewall =
      if t.killswitch.isSome ∧ f.release = none then none else m.firewall := by
  unfold drop
  rw [removeRoutes_firewall, releaseOwn_firewall]
  refine ite_congr rfl (fun _ => rfl) fun _ => ?_
  unfold removeInterface
  split
  · cases f.removeInterface <;> rfl
  · rfl

/-- Whether a failed attempt with a kill switch opens it: engaging fails and dropping the handle
releases it, or the interface cannot be brought up and one of the two releases succeeds. -/
def Opens (client : ClientConfig) (f : UpFault) (d : TeardownFault) : Prop :=
  (f.engage.isSome = true ∧ d.release = none) ∨
    (f.engage = none ∧ stopsBringUp client f.bringUp = true ∧
      (f.release = none ∨ d.release = none))

variable {t' : LinuxTunnel} {m' : LinuxMachine}

/-- A tunnel that came up leaves an engaged kill switch engaged. -/
theorem up_ok_engaged (hspec : spec.validate = .ok ()) (hm : m.firewall.isSome = true)
    (hup : up spec f (t, m) = (.ok (), t', m')) (d : TeardownFault) :
    m'.firewall.isSome = true ∧ ¬(t.killswitch.isSome = true ∧ Opens spec.client f d) := by
  by_cases hk : t.killswitch.isSome = true → f.engage = none
  · cases hstop : stopsBringUp spec.client f.bringUp with
    | true =>
      have hstopped := (up_stopped (m := m) hspec hk hstop).1
      rw [hup] at hstopped
      cases hstopped
    | false =>
      have hdone := (up_done (m := m) hspec hk hstop).2.2.2.2
      rw [hup] at hdone
      rw [hdone]
      refine ⟨?_, ?_⟩
      · unfold ownTable
        cases t.killswitch with
        | none => exact hm
        | some k => rfl
      · rintro ⟨hown, ⟨hengage, _⟩ | ⟨_, hstop', _⟩⟩
        · rw [hk hown] at hengage; cases hengage
        · rw [hstop] at hstop'; cases hstop'
  · rw [Classical.not_imp] at hk
    obtain ⟨k, hown⟩ := Option.isSome_iff_exists.mp hk.1
    obtain ⟨e, he⟩ := Option.ne_none_iff_exists'.mp hk.2
    have hunengaged := (up_unengaged (m := m) hspec hown he).1
    rw [hup] at hunengaged
    cases hunengaged

/-- A tunnel that did not come up leaves an engaged kill switch engaged unless it was its own and
one of the releases succeeded. -/
theorem up_error_engaged {e : TunnelError} (hspec : spec.validate = .ok ())
    (hm : m.firewall.isSome = true) (hup : up spec f (t, m) = (.error e, t', m'))
    (d : TeardownFault) : (drop d t' m').firewall.isSome = true ↔
      ¬(t.killswitch.isSome = true ∧ Opens spec.client f d) := by
  rw [drop_firewall]
  by_cases hk : t.killswitch.isSome = true → f.engage = none
  · cases hstop : stopsBringUp spec.client f.bringUp with
    | true =>
      have hstopped := up_stopped (m := m) hspec hk hstop
      rw [hup] at hstopped
      obtain ⟨_, hown, hwall⟩ := hstopped
      rw [hown, hwall]
      unfold ownTable Opens
      cases hown : t.killswitch with
      | none => simpa using hm
      | some k => rw [hown] at hk; cases f.release <;> cases d.release <;> simp [hk, hstop]
    | false =>
      have hdone := (up_done (m := m) hspec hk hstop).1
      rw [hup] at hdone
      cases hdone
  · rw [Classical.not_imp] at hk
    obtain ⟨k, hown⟩ := Option.isSome_iff_exists.mp hk.1
    obtain ⟨e', he⟩ := Option.ne_none_iff_exists'.mp hk.2
    have hunengaged := up_unengaged (m := m) hspec hown he
    rw [hup] at hunengaged
    obtain ⟨_, hkeep, hwall⟩ := hunengaged
    rw [hkeep, hwall, hown]
    unfold Opens
    cases d.release <;> simp [he, hm]

end Linux

namespace Windows

/-- Whether a release that fares so leaves enforced rules enforced, given the recorded defaults:
PowerShell does not run, or neither the rules nor a default can be changed. -/
def ReleaseFault.Holds (f : ReleaseFault) (restore : Option (Profile → DefaultAction)) : Prop :=
  f.launch.isSome = true ∨ ((f.fails .clearRules).isSome = true ∧
    match restore with
    | some saved => ∀ p, (f.fails (.restoreProfile p)).isSome = true ∨ saved p = .block
    | none => (f.fails .allowAll).isSome = true)

theorem release_enforces (f : ReleaseFault) {fw : Firewall}
    (hblock : ∀ p, fw.outbound p = .block) :
    (release f fw).2.Enforces ↔ fw.isEngaged = true ∧ f.Holds fw.restore := by
  unfold release ReleaseFault.Holds
  cases f.launch with
  | some e => simp [Firewall.Enforces, hblock]
  | none =>
    cases hrestore : fw.restore with
    | some saved =>
      have hrestored : (∀ p, f.restored saved fw.outbound p = .block) ↔
          ∀ p, (f.fails (.restoreProfile p)).isSome = true ∨ saved p = .block := by
        refine forall_congr' fun p => ?_
        unfold ReleaseFault.restored
        cases f.fails (.restoreProfile p) <;> simp [hblock]
      cases f.fails .clearRules <;> cases f.fails .deleteRecord <;>
        simp [Firewall.Enforces, Firewall.isEngaged, hrestored]
    | none =>
      cases f.fails .clearRules <;> cases f.fails .allowAll <;>
        simp [Firewall.Enforces, Firewall.isEngaged, hblock]

/-- No statement but the one that clears the rules takes one away. -/
theorem run_rules_ne_nil {adapterExists : Bool} {fw : Firewall} {s : Statement}
    (hs : s ≠ .clearRules) (hfw : fw.rules ≠ []) : (s.run adapterExists fw).rules ≠ [] := by
  cases s with
  | clearRules => exact absurd rfl hs
  | allow rule => simp [Statement.run]
  | allowAdapter rule name => cases adapterExists <;> simp [Statement.run, hfw]
  | _ => exact hfw

theorem foldl_rules_ne_nil {adapterExists : Bool} {statements : List Statement} {fw : Firewall}
    (hs : .clearRules ∉ statements) (hfw : fw.rules ≠ []) :
    (statements.foldl (Statement.run adapterExists) fw).rules ≠ [] := by
  induction statements generalizing fw with
  | nil => exact hfw
  | cons s statements ih =>
    rw [List.mem_cons, not_or] at hs
    exact ih hs.2 (run_rules_ne_nil (Ne.symm hs.1) hfw)

/-- An engaging script on a tunnel that exists, stopped at a statement, has left no rules if it got
as far as clearing them and not as far as the rule for the tunnel. -/
theorem script_take_rules (k : Killswitch) (n : Nat) {fw : Firewall} (hfw : fw.rules ≠ []) :
    ((k.script.take n).foldl (Statement.run true) fw).rules = [] ↔ 1 ≤ n ∧ n ≤ 3 := by
  have hrest : Statement.clearRules ∉ k.rules.map Statement.allow ++ [.blockByDefault] := by simp
  rcases n with _ | _ | _ | _ | n
  · simpa using hfw
  · simp [Killswitch.script, Statement.run]
  · simp [Killswitch.script, Statement.run]
  · simp [Killswitch.script, Statement.run]
  · simp only [Killswitch.script, List.cons_append, List.nil_append, List.take_succ_cons,
      List.foldl_cons]
    refine iff_of_false (foldl_rules_ne_nil (fun hmem => hrest (List.mem_of_mem_take hmem)) ?_) ?_
    · simp [Statement.run]
    · omega

/-- No statement lets anything out that was blocked by default. -/
theorem foldl_outbound {adapterExists : Bool} {statements : List Statement} {fw : Firewall}
    (hblock : ∀ p, fw.outbound p = .block) :
    ∀ p, (statements.foldl (Statement.run adapterExists) fw).outbound p = .block := by
  induction statements generalizing fw with
  | nil => exact hblock
  | cons s statements ih =>
    refine ih ?_
    cases s with
    | allowAdapter => cases adapterExists <;> exact hblock
    | blockByDefault => exact fun _ => rfl
    | _ => exact hblock

/-- The record of the defaults once the script has run up to a statement. -/
def recordedBy (n : Nat) (fw : Firewall) : Option (Profile → DefaultAction) :=
  if n ≤ 2 then fw.restore else some (fw.restore.getD fw.outbound)

theorem script_take_restore (k : Killswitch) (n : Nat) (fw : Firewall) :
    ((k.script.take n).foldl (Statement.run true) fw).restore = recordedBy n fw := by
  have hrest : ∀ (statements : List Statement) (fw : Firewall), .recordDefaults ∉ statements →
      (statements.foldl (Statement.run true) fw).restore = fw.restore := by
    intro statements
    induction statements with
    | nil => intro fw _; rfl
    | cons s statements ih =>
      intro fw hs
      rw [List.mem_cons, not_or] at hs
      rw [List.foldl_cons, ih _ hs.2]
      cases s with
      | recordDefaults => exact absurd rfl hs.1
      | _ => rfl
  rcases n with _ | _ | _ | n
  · rfl
  · rfl
  · rfl
  · simp only [Killswitch.script, List.cons_append, List.nil_append, List.take_succ_cons,
      List.foldl_cons]
    rw [hrest _ _ fun hmem => ?_]
    · rfl
    · have := List.mem_of_mem_take hmem
      simp at this

/-- Whether a failed engagement opens a firewall that enforces rules already: the script stopped
between clearing them and the rule for the tunnel, or the rollback does not leave them alone. -/
def EngageFault.Opens (f : EngageFault) (fw : Firewall) : Prop :=
  ∃ n e, f.stopsAt = some (n, e) ∧
    ((1 ≤ n ∧ n ≤ 3) ∨ ¬f.rollback.Holds (recordedBy n fw))

/-- Engaging over enforced rules leaves some in force, unless it fails and opens the firewall. -/
theorem Killswitch.engage_enforces (k : Killswitch) (f : EngageFault) {fw : Firewall}
    (hfw : fw.Enforces) : (k.engage f true fw).2.Enforces ↔ ¬f.Opens fw := by
  have hrules : fw.rules ≠ [] := by simpa [Firewall.isEngaged] using hfw.1
  cases hstop : f.stopsAt with
  | none =>
    rw [k.engage_done hstop]
    refine iff_of_true ⟨by simp [Firewall.isEngaged], fun _ => rfl⟩ fun ⟨_, _, hsome, _⟩ => ?_
    rw [hstop] at hsome
    cases hsome
  | some at_ =>
    obtain ⟨n, e⟩ := at_
    have hopens : f.Opens fw ↔ (1 ≤ n ∧ n ≤ 3) ∨ ¬f.rollback.Holds (recordedBy n fw) := by
      simp [EngageFault.Opens, hstop]
    have hrun : (k.engage f true fw).2 =
        (release f.rollback ((k.script.take n).foldl (Statement.run true) fw)).2 := by
      simp [Killswitch.engage, hstop]
    rw [hrun, release_enforces _ (foldl_outbound hfw.2), script_take_restore, hopens,
      ← script_take_rules k n hrules]
    simp [Firewall.isEngaged]

/-- Whether writing the configuration file fails. -/
def ConfFault.fails (f : ConfFault) : Bool := f.createDir.isSome || f.write.isSome

/-- The tunnel's service is installed; its kill switch and the firewall are untouched so far. -/
structure Installed (t : Tunnel) (m : Machine) (s : Tunnel × Machine) : Prop where
  killswitch : s.1.killswitch = t.killswitch
  installed : s.1.installed = t.installed
  adapter : s.2.adapter.isSome = true
  firewall : s.2.firewall = m.firewall

variable {spec : TunnelSpec} {f : UpFault} {t : Tunnel} {m : Machine}

theorem removeLeftover_run (fault : Option CommandError) (t : Tunnel) (m : Machine) :
    ∃ m', removeLeftover fault (t, m) = (.ok (), t, m') ∧ m'.firewall = m.firewall := by
  unfold removeLeftover removeService run
  cases m.adapter <;> cases fault <;> exact ⟨_, rfl, rfl⟩

instance : IsPreorder (Tunnel × Machine) fun s s' => s'.2.firewall = s.2.firewall where
  refl _ := rfl
  trans _ _ _ h₁ h₂ := h₂.trans h₁

theorem installPlan_run (f : InstallFaults) (t : Tunnel) (m : Machine) :
    ∃ t' m', installPlan f (t, m) = (t', m') ∧ t'.killswitch = t.killswitch ∧
      t'.installed = t.installed ∧ m'.firewall = m.firewall := ⟨_, _, rfl, rfl, rfl, rfl⟩

/-- Without the configuration file or the service, the kill switch is never reached. -/
theorem up_unreached (hspec : spec.validate = .ok ())
    (h : f.conf.fails = true ∨ f.installService.isSome = true) :
    (up spec f (t, m)).1.isOk = false ∧ (up spec f (t, m)).2.1.installed = t.installed ∧
      (up spec f (t, m)).2.2.firewall = m.firewall := by
  obtain ⟨m₁, hleftover, hwall₁⟩ := removeLeftover_run f.removeService t m
  obtain ⟨t₂, m₂, hplan, _, hinstalled, hwall₂⟩ := installPlan_run f.install t m₁
  cases hdir : f.conf.createDir with
  | some e =>
    simp [up, hspec, bind_run, hleftover, hplan, writeConfig, hdir, hinstalled, hwall₂, hwall₁,
      Except.isOk, Except.toBool]
  | none =>
    cases hwrite : f.conf.write with
    | some e =>
      simp [up, hspec, bind_run, hleftover, hplan, writeConfig, hdir, hwrite, hinstalled, hwall₂,
        hwall₁, Except.isOk, Except.toBool]
    | none =>
      cases hservice : f.installService with
      | none => simp [ConfFault.fails, hdir, hwrite, hservice] at h
      | some e =>
        simp [up, hspec, bind_run, hleftover, hplan, writeConfig, hdir, hwrite, run, hservice,
          hinstalled, hwall₂, hwall₁, Except.isOk, Except.toBool]

/-- With both in place, engaging the kill switch decides the rest. -/
theorem up_reached (hspec : spec.validate = .ok ()) (hconf : f.conf.fails = false)
    (hservice : f.installService = none) :
    ∃ s, Installed t m s ∧ up spec f (t, m) =
      (do
        engageOwn f.engage
        update fun s => ({ s.1 with installed := true }, s.2) : Backend Unit) s := by
  obtain ⟨m₁, hleftover, hwall₁⟩ := removeLeftover_run f.removeService t m
  obtain ⟨t₂, m₂, hplan, hkillswitch, hinstalled, hwall₂⟩ := installPlan_run f.install t m₁
  simp only [ConfFault.fails, Bool.or_eq_false_iff, Option.isSome_eq_false_iff,
    Option.isNone_iff_eq_none] at hconf
  refine ⟨(t₂, { m₂ with
      conf := some (if t₂.bypass.isEmpty then spec.client else splitDefaultRoutes spec.client,
        spec.endpoint)
      adapter := some [confPeer (if t₂.bypass.isEmpty then spec.client
        else splitDefaultRoutes spec.client, spec.endpoint)] }),
    ⟨hkillswitch, hinstalled, rfl, hwall₂.trans hwall₁⟩, ?_⟩
  simp [up, hspec, bind_run, hleftover, hplan, writeConfig, hconf.1, hconf.2, run, hservice]

/-- Engaging a tunnel's own kill switch, if it has one. -/
theorem engageOwn_firewall (f : EngageFault) {s : Tunnel × Machine}
    (hs : s.2.adapter.isSome = true) :
    (engageOwn f s).2.1.installed = s.1.installed ∧
      (engageOwn f s).1.isOk = (s.1.killswitch.isNone || f.stopsAt.isNone) ∧
      (engageOwn f s).2.2.firewall = match s.1.killswitch with
        | none => s.2.firewall
        | some k => ((k.allowing s.1.bypass.destinations).engage f true s.2.firewall).2 := by
  unfold engageOwn
  cases s.1.killswitch with
  | none => exact ⟨rfl, rfl, rfl⟩
  | some k =>
    cases hstop : f.stopsAt <;>
      simp [engage, Killswitch.engage, hstop, hs, Except.mapError, Except.isOk, Except.toBool]

/-- Whether a failed attempt with a kill switch opens it: engaging is reached, and fails so that it
opens the firewall. -/
def Opens (f : UpFault) (fw : Firewall) : Prop :=
  f.conf.fails = false ∧ f.installService = none ∧ f.engage.Opens fw

theorem Installed.enforces {s : Tunnel × Machine} (hs : Installed t m s)
    (hm : m.firewall.Enforces) (g : EngageFault) :
    (engageOwn g s).2.2.firewall.Enforces ↔
      ¬(t.killswitch.isSome = true ∧ g.Opens m.firewall) := by
  rw [(engageOwn_firewall g hs.adapter).2.2, hs.killswitch]
  cases t.killswitch with
  | none => simpa [hs.firewall] using hm
  | some k =>
    rw [hs.firewall]
    simpa using (k.allowing s.1.bypass.destinations).engage_enforces g hm

/-- What the last part of `up` leaves: the firewall as engaging leaves it, and the handle marked as
installed if that succeeded. -/
theorem finish_run (g : EngageFault) (s : Tunnel × Machine) :
    let finish : Backend Unit := do
      engageOwn g
      update fun s => ({ s.1 with installed := true }, s.2)
    (finish s).2.2.firewall = (engageOwn g s).2.2.firewall ∧
      ((finish s).1.isOk = false → (finish s).2.1.installed = (engageOwn g s).2.1.installed) := by
  dsimp only
  rcases hown : engageOwn g s with ⟨_ | _, s'⟩
  · rw [bind_run_error hown]; exact ⟨rfl, fun _ => rfl⟩
  · rw [bind_run_ok hown]; exact ⟨rfl, fun hfails => by cases hfails⟩

/-- However bringing a tunnel up ends, an engaged kill switch stays engaged unless the attempt opens
it. -/
theorem up_enforces {r : Except TunnelError Unit} {t' : Tunnel} {m' : Machine}
    (hspec : spec.validate = .ok ()) (hm : m.firewall.Enforces)
    (hup : up spec f (t, m) = (r, t', m')) :
    m'.firewall.Enforces ↔ ¬(t.killswitch.isSome = true ∧ Opens f m.firewall) := by
  have hm' : m' = (up spec f (t, m)).2.2 := by rw [hup]
  rw [hm']
  by_cases hreach : f.conf.fails = false ∧ f.installService = none
  · obtain ⟨s, hs, hrun⟩ := up_reached (t := t) (m := m) hspec hreach.1 hreach.2
    rw [hrun, (finish_run f.engage s).1, hs.enforces hm]
    unfold Opens
    simp [hreach]
  · have hstop : f.conf.fails = true ∨ f.installService.isSome = true := by
      rw [← Option.ne_none_iff_isSome, ← Bool.not_eq_false, ← not_and_or]
      exact hreach
    rw [(up_unreached hspec hstop).2.2]
    exact iff_of_true hm fun ⟨_, hconf, hservice, _⟩ => hreach ⟨hconf, hservice⟩

theorem up_error_installed {e : TunnelError} {t' : Tunnel} {m' : Machine}
    (hspec : spec.validate = .ok ()) (hup : up spec f (t, m) = (.error e, t', m')) :
    t'.installed = t.installed := by
  have ht' : t' = (up spec f (t, m)).2.1 := by rw [hup]
  have hfails : (up spec f (t, m)).1.isOk = false := by rw [hup]; rfl
  rw [ht']
  by_cases hreach : f.conf.fails = false ∧ f.installService = none
  · obtain ⟨s, hs, hrun⟩ := up_reached (t := t) (m := m) hspec hreach.1 hreach.2
    rw [hrun] at hfails ⊢
    rw [(finish_run f.engage s).2 hfails, (engageOwn_firewall _ hs.adapter).1, hs.installed]
  · have hstop : f.conf.fails = true ∨ f.installService.isSome = true := by
      rw [← Option.ne_none_iff_isSome, ← Bool.not_eq_false, ← not_and_or]
      exact hreach
    exact (up_unreached hspec hstop).2.1

/-- Dropping a handle that was never installed leaves the firewall alone. -/
theorem drop_firewall {d : DropFault} {t : Tunnel} (ht : t.installed = false) (m : Machine) :
    (drop d t m).firewall = m.firewall := by
  simp [drop, ht, removeRoutes]

/-- Moving the tunnel leaves the firewall alone. -/
theorem switchEndpoint_firewall (spec : TunnelSpec) (f : SwitchFault) (s : Tunnel × Machine) :
    (switchEndpoint spec f s).2.2.firewall = s.2.firewall := by
  have hwithin : Within (fun s s' : Tunnel × Machine => s'.2.firewall = s.2.firewall)
      (switchEndpoint spec f) := by
    refine Within.bind (Within.lift _) fun _ => Within.bind (fun s => ?_) fun _ s => ?_
    · unfold run
      split <;> rfl
    · unfold writeConfig
      split <;> rfl
  exact hwithin s

/-- What is admitted by address is let out by a rule, whatever else is installed. -/
theorem Killswitch.rules_hit {k : Killswitch} {p : OutboundPacket} (h : k.admits p.dst = true) :
    k.rules.any (·.scope.hits p) = true := by
  simp only [admits, List.any_append, Bool.or_eq_true] at h
  simp only [rules, List.any_append, List.any_cons, List.any_nil, Bool.or_eq_true, Scope.hits]
  rcases h with ((h | h) | h) | h
  · exact .inl (.inl (.inr (.inl h)))
  · exact .inl (.inl (.inr (.inr (.inl h))))
  · cases hlan : k.allowLan with
    | false => rw [hlan] at h; cases h
    | true =>
      rw [hlan, if_pos rfl, List.any_append, Bool.or_eq_true] at h
      refine .inl (.inr ?_)
      simpa only [if_true, List.any_cons, List.any_nil, Bool.or_false, Bool.or_eq_true,
        Scope.hits] using h
  · have hallowed : k.allowed ≠ [] := by rintro heq; rw [heq] at h; cases h
    refine .inr ?_
    simpa only [if_pos hallowed, List.any_cons, List.any_nil, Bool.or_false, Scope.hits] using h

/-- A firewall with the rules of a kill switch lets a destination out if the rules admit it. -/
theorem Killswitch.letsOut {k : Killswitch} {fw : Firewall} {d : String}
    (hrules : ∀ r ∈ k.rules, r ∈ fw.rules)
    (hadmits : ∀ ip, covers d ip = true → k.admits ip = true) : fw.LetsOut d := by
  intro p hp
  obtain ⟨r, hr, hhits⟩ := List.any_eq_true.mp (rules_hit (hadmits _ hp))
  exact Bool.or_eq_true_iff.mpr (.inl (List.any_eq_true.mpr ⟨r, hrules r hr, hhits⟩))

/-- The same rules let as much out where no profile blocks that did not before. -/
theorem Firewall.LetsOut.mono {fw fw' : Firewall} {d : String} (h : fw.LetsOut d)
    (hrules : fw'.rules = fw.rules)
    (hblock : ∀ p, fw'.outbound p = .block → fw.outbound p = .block) : fw'.LetsOut d := by
  intro p hp
  have haccepts := h p hp
  simp only [accepts, hrules, Bool.or_eq_true, bne_iff_ne, ne_eq] at haccepts ⊢
  exact haccepts.imp id fun hopen hblocked => hopen (hblock _ hblocked)

/-- A release that runs and clears the rules leaves nothing engaged. -/
theorem release_clears {f : ReleaseFault} (hlaunch : f.launch = none)
    (hclear : f.fails .clearRules = none) (fw : Firewall) :
    (release f fw).2.isEngaged = false := by
  unfold release
  rw [hlaunch, hclear]
  cases fw.restore <;> cases f.fails .deleteRecord <;> cases f.fails .allowAll <;> rfl

/-- A release that does not run leaves everything. -/
theorem release_unlaunched {f : ReleaseFault} (hlaunch : f.launch ≠ none) (fw : Firewall) :
    (release f fw).2 = fw := by
  obtain ⟨e, he⟩ := Option.ne_none_iff_exists'.mp hlaunch
  rw [release, he]

/-- A release that runs and cannot clear the rules changes the defaults only, to recorded ones. -/
theorem release_uncleared {f : ReleaseFault} (hlaunch : f.launch = none)
    (hclear : f.fails .clearRules ≠ none) {fw : Firewall}
    (hsaved : ∀ saved, fw.restore = some saved → ∀ p, saved p = .block → fw.outbound p = .block) :
    (release f fw).2.rules = fw.rules ∧
      ∀ p, (release f fw).2.outbound p = .block → fw.outbound p = .block := by
  obtain ⟨e, he⟩ := Option.ne_none_iff_exists'.mp hclear
  unfold release
  rw [hlaunch, he]
  cases hrestore : fw.restore with
  | none =>
    cases f.fails .allowAll with
    | none => exact ⟨rfl, fun p hp => by cases hp⟩
    | some => exact ⟨rfl, fun p hp => hp⟩
  | some saved =>
    have hrestored : ∀ p, f.restored saved fw.outbound p = .block → fw.outbound p = .block := by
      intro p hp
      unfold ReleaseFault.restored at hp
      cases hfails : f.fails (.restoreProfile p) with
      | none => rw [hfails] at hp; exact hsaved saved hrestore p hp
      | some => rw [hfails] at hp; exact hp
    cases f.fails .deleteRecord <;> exact ⟨rfl, hrestored⟩

/-- An engagement whose rollback does not run, stopped before any rule was added. -/
theorem Killswitch.engage_early {k : Killswitch} {f : EngageFault} {n : Nat} {e : String}
    (hstop : f.stopsAt = some (n, e)) (hlaunch : f.rollback.launch ≠ none) (hn : n ≤ 3)
    (adapterExists : Bool) (fw : Firewall) :
    (k.engage f adapterExists fw).2 = fw ∨ (k.engage f adapterExists fw).2.isEngaged = false := by
  have hrun : (k.engage f adapterExists fw).2 =
      (k.script.take n).foldl (Statement.run adapterExists) fw := by
    simp only [Killswitch.engage, hstop, release_unlaunched hlaunch]
  rw [hrun]
  rcases n with _ | _ | _ | _ | n
  · exact .inl rfl
  · exact .inr rfl
  · exact .inr rfl
  · exact .inr rfl
  · omega

end Windows

end Vpnmgr
