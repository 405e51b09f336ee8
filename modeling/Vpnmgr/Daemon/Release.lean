import Vpnmgr.Daemon.Pairing
import Vpnmgr.Daemon.Toggles

/-! Disconnecting releases the kill switch if the tunnel brought it along. It does so in every run in
which a kill switch is engaged under no tunnel that has none of its own, and no tunnel without one is
brought up under an engaged kill switch. -/

namespace Vpnmgr

open Ieee Stateful Stateful.Action

variable {P : Platform}

/-- What the backends have in common in handling a kill switch, where `own` says whether a handle
has one and `clears` whether a release removes the rules. -/
structure Tracks (own : P.Tunnel → Bool) (clears : P.DownFault → Prop) : Prop where
  fit : ∀ (s : State P) around t, own t = false → own (s.fit around t) = s.config.killswitch.enabled
  new : ∀ fault m t, P.new fault m = .ok t → own t = false
  up : ∀ spec fault t m r t' m', P.up spec fault (t, m) = (r, t', m') → own t = false →
    own t' = false ∧ P.isEngaged m' = P.isEngaged m
  up_ok : ∀ spec fault t m t' m', P.up spec fault (t, m) = (.ok (), t', m') → own t = true →
    own t' = true
  drop : ∀ fault t m, own t = false → P.isEngaged (P.drop fault t m) = P.isEngaged m
  moves : ∀ spec fault s, own (P.switchEndpoint spec fault s).2.1 = own s.1 ∧
    P.isEngaged (P.switchEndpoint spec fault s).2.2 = P.isEngaged s.2
  release : ∀ fault m, P.isEngaged (P.release fault m).2 = true → P.isEngaged m = true
  down : ∀ fault dropped t m t' m', P.down fault (t, m) = (.ok (), t', m') → clears fault →
    P.isEngaged (P.drop dropped t' m') = true → own t = false ∧ P.isEngaged m = true

/-! ### The two backends -/

namespace Linux

/-- The handle's kill switch stays, and without one the firewall does too. -/
structure Unowned (s s' : LinuxTunnel × LinuxMachine) : Prop where
  killswitch : s'.1.killswitch = s.1.killswitch
  firewall : s.1.killswitch = none → s'.2.firewall = s.2.firewall

instance : IsPreorder (LinuxTunnel × LinuxMachine) Unowned where
  refl _ := ⟨rfl, fun _ => rfl⟩
  trans _ _ _ h₁ h₂ := ⟨h₂.killswitch.trans h₁.killswitch, fun h =>
    (h₂.firewall (h₁.killswitch.trans h)).trans (h₁.firewall h)⟩

theorem up_unowned (spec : TunnelSpec) (f : UpFault) : Within Unowned (up spec f) := by
  refine Within.bind (Within.lift _) fun _ => ?_
  refine Within.bind (Within.update fun s => ⟨rfl, fun _ => rfl⟩) fun _ => ?_
  refine Within.bind (fun s => ?_) fun _ => ?_
  · cases hown : s.1.killswitch with
    | none =>
      rw [engageOwn, hown]
      exact refl_of Unowned s
    | some k =>
      rw [engageOwn, hown]
      exact ⟨rfl, fun h => by cases hown.symm.trans h⟩
  refine Within.bind (Within.attempt ((bringUp_onlyDevice _ _).mono fun s s' h =>
    ⟨h.killswitch, fun _ => h.firewall⟩)) fun result => ?_
  cases result with
  | ok => exact Within.pure _
  | error e =>
    refine Within.bind (Within.update fun s => ⟨?_, fun h => ?_⟩) fun _ => Within.fail _
    · rw [releaseOwn_killswitch, removeRoutes_killswitch]
    · rw [releaseOwn_firewall, removeRoutes_killswitch, h]
      rfl

/-- Taking the tunnel down keeps the firewall where the handle has no kill switch, and opens it
otherwise unless that fails. -/
theorem down_firewall {f : TeardownFault} {t t' : LinuxTunnel} {m m' : LinuxMachine}
    (h : down f (t, m) = (.ok (), t', m')) : t'.killswitch = t.killswitch ∧
      m'.firewall = if t.killswitch.isSome then none else m.firewall := by
  have hremoved : (removeInterface f.removeInterface (t, m)).2.firewall = m.firewall := by
    unfold removeInterface
    split <;> rfl
  unfold down at h
  dsimp only at h
  rw [removeRoutes_killswitch] at h
  cases hown : t.killswitch with
  | none =>
    rw [hown] at h
    obtain ⟨-, h⟩ := Prod.mk.inj h
    cases h
    exact ⟨rfl, hremoved⟩
  | some k =>
    rw [hown, Option.isSome_some] at h
    cases hrelease : f.release with
    | some e => simp [release, hrelease] at h
    | none =>
      simp only [release, hrelease, if_true] at h
      obtain ⟨-, h⟩ := Prod.mk.inj h
      cases h
      exact ⟨rfl, rfl⟩

theorem drop_unowned (f : TeardownFault) {t : LinuxTunnel} (m : LinuxMachine)
    (ht : t.killswitch.isSome = false) : (drop f t m).firewall = m.firewall := by
  rw [drop_firewall, if_neg (by simp [ht])]

theorem down_drop {f d : TeardownFault} {t t' : LinuxTunnel} {m m' : LinuxMachine}
    (h : down f (t, m) = (.ok (), t', m')) (hengaged : (drop d t' m').firewall.isSome = true) :
    t.killswitch.isSome = false ∧ m.firewall.isSome = true := by
  obtain ⟨hown, hwall⟩ := down_firewall h
  rw [drop_firewall, hown, hwall] at hengaged
  cases hk : t.killswitch.isSome with
  | true => rw [hk] at hengaged; split at hengaged <;> cases hengaged
  | false => rw [hk] at hengaged; exact ⟨rfl, by simpa using hengaged⟩

end Linux

theorem tracks_linux (log : Logarithm) :
    Tracks (P := .linux log) (fun t : LinuxTunnel => t.killswitch.isSome) fun _ => True where
  fit s around t ht := fit_linux s around (Option.not_isSome_iff_eq_none.mp (by simp [ht]))
  new fault m t h := by
    change Linux.new defaultInterface fault = .ok t at h
    unfold Linux.new at h
    split at h
    · cases h
    · cases h
      rfl
  up spec fault t m r t' m' h ht := by
    have hunowned := (Linux.up_unowned spec fault).run h
    have hnone := Option.not_isSome_iff_eq_none.mp (Bool.not_eq_true _ ▸ ht)
    refine ⟨by rw [hunowned.killswitch]; exact ht, ?_⟩
    exact congrArg Option.isSome (hunowned.firewall hnone)
  up_ok spec fault t m t' m' h ht := by
    rw [((Linux.up_unowned spec fault).run h).killswitch]
    exact ht
  drop fault t m ht := congrArg Option.isSome (Linux.drop_unowned fault m ht)
  moves spec fault s := by
    have honly := Linux.retarget_onlyDevice spec fault s
    exact ⟨congrArg Option.isSome honly.killswitch, congrArg Option.isSome honly.firewall⟩
  release fault m h := by
    change (Linux.release fault m).2.firewall.isSome = true at h
    cases fault with
    | none => cases h
    | some e => exact h
  down fault dropped t m t' m' h _ hengaged := Linux.down_drop h hengaged

namespace Windows

/-- A handle without a kill switch is given none, and the firewall stays. -/
def Unowned (s s' : Tunnel × Machine) : Prop :=
  s.1.killswitch = none → s'.1.killswitch = none ∧ s'.2.firewall = s.2.firewall

instance : IsPreorder (Tunnel × Machine) Unowned where
  refl _ h := ⟨h, rfl⟩
  trans _ _ _ h₁ h₂ h := ⟨(h₂ (h₁ h).1).1, (h₂ (h₁ h).1).2.trans (h₁ h).2⟩

theorem writeConfig_unowned (spec : TunnelSpec) (f : ConfFault) :
    Within Unowned (writeConfig spec f) := by
  intro s h
  unfold writeConfig
  split <;> exact ⟨h, rfl⟩

theorem run_unowned (operation : String) (fault : Option CommandError) {effect : Machine → Machine}
    (heffect : ∀ m, (effect m).firewall = m.firewall) :
    Within Unowned (run operation fault effect) := by
  intro s h
  unfold run
  split
  · exact ⟨h, rfl⟩
  · exact ⟨h, heffect _⟩

theorem up_unowned (spec : TunnelSpec) (f : UpFault) : Within Unowned (up spec f) := by
  refine Within.bind (Within.lift _) fun _ => Within.bind (fun s h => ?_) fun _ => ?_
  · obtain ⟨m, hrun, hwall⟩ := removeLeftover_run f.removeService s.1 s.2
    rw [show s = (s.1, s.2) from rfl, hrun]
    exact ⟨h, hwall⟩
  refine Within.bind (Within.update fun s h => ⟨h, rfl⟩) fun _ => ?_
  refine Within.bind (writeConfig_unowned _ _) fun _ => ?_
  refine Within.bind (run_unowned _ _ fun _ => rfl) fun _ => Within.bind (fun s h => ?_) fun _ => ?_
  · rw [engageOwn, h]
    exact ⟨h, rfl⟩
  · exact Within.update fun s h => ⟨h, rfl⟩

/-- A tunnel that comes up keeps its kill switch. -/
theorem up_owned {spec : TunnelSpec} {f : UpFault} {t t' : Tunnel} {m m' : Machine}
    (h : up spec f (t, m) = (.ok (), t', m')) (ht : t.killswitch.isSome = true) :
    t'.killswitch.isSome = true := by
  have hspec : spec.validate = .ok () := by
    obtain ⟨_, _, hlift, _⟩ := bind_ok h
    cases hvalid : spec.validate with
    | error e => rw [lift_run, hvalid] at hlift; cases hlift
    | ok => rfl
  by_cases hreach : f.conf.fails = false ∧ f.installService = none
  · obtain ⟨s, hs, hrun⟩ := up_reached (t := t) (m := m) hspec hreach.1 hreach.2
    rw [hrun] at h
    obtain ⟨_, u, hengage, h⟩ := bind_ok h
    cases h
    rw [← hs.killswitch] at ht
    obtain ⟨k, hk⟩ := Option.isSome_iff_exists.mp ht
    rw [engageOwn, hk] at hengage
    dsimp only at hengage
    split at hengage
    · cases hengage
      rfl
    · cases hengage
  · rw [not_and_or, Bool.not_eq_false] at hreach
    have hfails := (up_unreached (t := t) (m := m) hspec
      (hreach.imp_right (Option.isSome_iff_ne_none.mpr ·))).1
    rw [h] at hfails
    cases hfails

/-- A release removes the rules, unless PowerShell does not run or the removal has no effect. -/
theorem release_rules (f : ReleaseFault) (fw : Firewall) : (release f fw).2.rules =
    if f.launch = none ∧ f.fails .clearRules = none then [] else fw.rules := by
  unfold release
  cases f.launch with
  | some e => rfl
  | none =>
    cases fw.restore <;> dsimp only <;> split <;> cases f.fails .clearRules <;> rfl

theorem release_ok {f : ReleaseFault} {fw fw' : Firewall} (h : release f fw = (.ok (), fw')) :
    f.launch = none := by
  unfold release at h
  split at h
  · cases h
  · assumption

theorem switchEndpoint_killswitch (spec : TunnelSpec) (f : SwitchFault) (s : Tunnel × Machine) :
    (switchEndpoint spec f s).2.1.killswitch = s.1.killswitch := by
  unfold switchEndpoint
  cases spec.validate with
  | error e => rfl
  | ok =>
    unfold run writeConfig
    cases f.setEndpoint with
    | some e => rfl
    | none =>
      simp only [bind_run, lift_run]
      split <;> rfl

theorem releaseOwn_unowned (f : ReleaseFault) : Within Unowned (releaseOwn f) := by
  intro s h
  rw [releaseOwn, h, Option.isSome_none, if_neg Bool.false_ne_true]
  exact ⟨h, rfl⟩

theorem down_unowned (f : DownFault) : Within Unowned (down f) :=
  Within.bind (run_unowned _ _ fun _ => rfl) fun _ =>
    Within.bind (releaseOwn_unowned _) fun _ => Within.update fun _ h => ⟨h, rfl⟩

theorem drop_unowned (f : DropFault) {t : Tunnel} (m : Machine)
    (ht : t.killswitch.isSome = false) : (drop f t m).firewall = m.firewall := by
  have hnone := Option.not_isSome_iff_eq_none.mp (Bool.not_eq_true _ ▸ ht)
  unfold drop removeRoutes
  dsimp only
  split
  · exact (down_unowned f.down (t, m) hnone).2
  · rfl

theorem removeService_ok {fault : Option CommandError} {s s' : Tunnel × Machine}
    (h : removeService fault s = (.ok (), s')) : s'.1 = s.1 ∧ s'.2.firewall = s.2.firewall := by
  unfold removeService run at h
  split at h
  · cases h
  · cases h
    exact ⟨rfl, rfl⟩

/-- Releasing a handle's own kill switch removes the rules, if the removal has an effect. -/
theorem releaseOwn_ok {f : ReleaseFault} {s s' : Tunnel × Machine}
    (h : releaseOwn f s = (.ok (), s')) (hclears : f.fails .clearRules = none)
    (hengaged : s'.2.firewall.isEngaged = true) :
    s.1.killswitch.isSome = false ∧ s.2.firewall.isEngaged = true := by
  unfold releaseOwn at h
  cases hown : s.1.killswitch.isSome with
  | false =>
    rw [hown, if_neg Bool.false_ne_true] at h
    cases h
    exact ⟨rfl, hengaged⟩
  | true =>
    rw [hown, if_pos rfl, releaseFirewall] at h
    have hrules := release_rules f s.2.firewall
    rcases hrun : release f s.2.firewall with ⟨r, fw⟩
    rw [hrun] at h hrules
    cases r with
    | error e => cases h
    | ok =>
      cases h
      have hempty : fw.rules = [] := hrules.trans (if_pos ⟨release_ok hrun, hclears⟩)
      simp [Firewall.isEngaged, hempty] at hengaged

/-- Taking the tunnel down leaves the rules only where the handle has no kill switch. -/
theorem down_drop {f : DownFault} {d : DropFault} {t t' : Tunnel} {m m' : Machine}
    (h : down f (t, m) = (.ok (), t', m')) (hclears : f.release.fails .clearRules = none)
    (hengaged : (drop d t' m').firewall.isEngaged = true) :
    t.killswitch.isSome = false ∧ m.firewall.isEngaged = true := by
  obtain ⟨_, s₁, hservice, h⟩ := bind_ok h
  obtain ⟨_, s₂, hrelease, h⟩ := bind_ok h
  obtain ⟨hfinal, hwall⟩ : t'.installed = false ∧ m'.firewall = s₂.2.firewall := by
    cases h
    exact ⟨rfl, rfl⟩
  rw [drop_firewall hfinal, hwall] at hengaged
  obtain ⟨hown, hm⟩ := releaseOwn_ok hrelease hclears hengaged
  obtain ⟨hs₁, hwall₁⟩ := removeService_ok hservice
  rw [hs₁] at hown
  rw [hwall₁] at hm
  exact ⟨hown, hm⟩

end Windows

theorem tracks_windows (log : Logarithm) :
    Tracks (P := .windows log) (fun t : Windows.Tunnel => t.killswitch.isSome)
      fun f : Windows.DownFault => f.release.fails .clearRules = none where
  fit s around t ht :=
    (fit_windows s around (Option.not_isSome_iff_eq_none.mp (by simp [ht]))).1
  new fault m t h := by
    change Windows.new defaultInterface m = .ok t at h
    unfold Windows.new at h
    split at h
    · cases h
      rfl
    · cases h
  up spec fault t m r t' m' h ht := by
    have hnone := Option.not_isSome_iff_eq_none.mp (Bool.not_eq_true _ ▸ ht)
    obtain ⟨hown, hwall⟩ := (Windows.up_unowned spec fault).run h hnone
    exact ⟨congrArg Option.isSome hown, congrArg Windows.Firewall.isEngaged hwall⟩
  up_ok spec fault t m t' m' h ht := Windows.up_owned h ht
  drop fault t m ht :=
    congrArg Windows.Firewall.isEngaged (Windows.drop_unowned fault m ht)
  moves spec fault s := ⟨congrArg Option.isSome (Windows.switchEndpoint_killswitch spec fault s),
    congrArg Windows.Firewall.isEngaged (Windows.switchEndpoint_firewall spec fault s)⟩
  release fault m h := by
    have hrules := Windows.release_rules fault (m : Windows.Machine).firewall
    change (Windows.release fault (m : Windows.Machine).firewall).2.isEngaged = true at h
    change (m : Windows.Machine).firewall.isEngaged = true
    unfold Windows.Firewall.isEngaged at h ⊢
    rw [hrules] at h
    split at h
    · cases h
    · exact h
  down fault dropped t m t' m' h hclears hengaged := Windows.down_drop h hclears hengaged

/-! ### What the operations keep -/

section Accounts

variable (own : P.Tunnel → Bool)

/-- The tunnel and its record are paired, and a tunnel under an engaged kill switch has its own. -/
structure World.Accounted (w : World P) : Prop where
  paired : w.Paired
  covered : ∀ t, w.state.tunnel = some t → P.isEngaged w.machine = true → own t = true

/-- While nothing is connected, a kill switch is engaged only where one is configured. -/
def World.Configured (w : World P) : Prop := w.state.current = none →
  P.isEngaged w.machine = true → w.state.config.killswitch.enabled = true

/-- What is there of a tunnel, of its kill switch and of the firewall's stays. -/
structure Carries (w w' : World P) : Prop where
  tunnel : w'.state.tunnel.map own = w.state.tunnel.map own
  current : w.Paired → w'.state.current.isSome = w.state.current.isSome
  engaged : P.isEngaged w'.machine = P.isEngaged w.machine

variable {own}

theorem Carries.accounted {w w' : World P} (h : Carries own w w') (hw : w.Accounted own) :
    w'.Accounted own where
  paired := by
    have hsome := congrArg Option.isSome h.tunnel
    rw [Option.isSome_map, Option.isSome_map] at hsome
    rw [World.Paired, hsome, h.current hw.paired]
    exact hw.paired
  covered t ht hengaged := by
    have hmap := h.tunnel
    rw [ht, Option.map_some, eq_comm, Option.map_eq_some_iff] at hmap
    obtain ⟨t', ht', hown⟩ := hmap
    rw [← hown]
    exact hw.covered t' ht' (h.engaged ▸ hengaged)

instance : IsPreorder (World P) (Carries own) where
  refl _ := ⟨rfl, fun _ => rfl, rfl⟩
  trans w₁ w₂ _ h₁ h₂ := by
    refine ⟨h₂.tunnel.trans h₁.tunnel, fun hw => ?_, h₂.engaged.trans h₁.engaged⟩
    have hsome := congrArg Option.isSome h₁.tunnel
    rw [Option.isSome_map, Option.isSome_map] at hsome
    have hpaired : w₂.Paired := by
      rw [World.Paired, hsome, h₁.current hw]
      exact hw
    exact (h₂.current hpaired).trans (h₁.current hw)

theorem Spares.carries {w w' : World P} (h : Spares w w') : Carries own w w' :=
  ⟨by rw [h.tunnel], fun _ => by rw [h.current], by rw [h.machine]⟩

theorem carries_of_rests (w w' : World P) (h : Rests w w') : Carries own w w' :=
  (spares_of_rests w w' h).carries

theorem Carries.configured {w w' : World P} (h : Carries own w w') (hpaired : w.Paired)
    (hconfig : w'.state.config = w.state.config) (hw : w.Configured) : w'.Configured := by
  intro hnone hengaged
  rw [hconfig]
  refine hw ?_ (h.engaged ▸ hengaged)
  have hsome := h.current hpaired
  rw [hnone] at hsome
  exact Option.not_isSome_iff_eq_none.mp (by simp [← hsome])

variable {clears : P.DownFault → Prop} (law : Tracks own clears)

include law

/-- Pointing the tunnel elsewhere carries all of it along. -/
theorem retarget_carries {chosen : RankedServer} {record : State P → State P}
    (htunnel : ∀ s, (record s).tunnel = s.tunnel)
    (hcurrent : ∀ s, (record s).current = some (.of chosen)) :
    Within (Carries own) (do retarget chosen; modify record : Daemon P Unit) := by
  intro w
  rcases h : retarget chosen w with ⟨r, w'⟩
  rcases retarget_cases h with ⟨_, rfl, rfl⟩ | ⟨t, _, _, ht, hswitch, rfl, hstate, _⟩ |
    ⟨t, _, ht, hswitch, rfl, hstate, _⟩
  · rw [bind_run_error h]
    exact refl_of (Carries own) _
  · have hmoves := law.moves (w.state.spec chosen) (w.outside.faults.switches 0) (t, w.machine)
    rw [hswitch] at hmoves
    rw [bind_run_error h]
    refine ⟨?_, fun _ => by rw [hstate], hmoves.2⟩
    rw [hstate, ht, Option.map_some, Option.map_some, hmoves.1]
  · have hmoves := law.moves (w.state.spec chosen) (w.outside.faults.switches 0) (t, w.machine)
    rw [hswitch] at hmoves
    rw [bind_run_ok h]
    refine ⟨?_, fun hw => ?_, hmoves.2⟩
    · simp only [modify, update_run, htunnel, hstate, ht, Option.map_some, hmoves.1]
    · have hsome : w.state.current.isSome = true := by rw [← hw, ht]; rfl
      simp only [modify, update_run, hcurrent, hsome, Option.isSome_some]

theorem moveTo_carries (chosen : RankedServer) :
    Within (Carries own) (moveTo chosen : Daemon P Unit) :=
  retarget_carries law (fun _ => rfl) fun _ => rfl

theorem switch_carries (name : String) :
    Within (Carries own) (switch name : Daemon P RankedServer) :=
  switch_within (.of_samples fun w w' h => carries_of_rests w w' h.toMeasures.rests)
    (fun _ => retarget_carries law (fun _ => rfl) fun _ => rfl) name

theorem autotune_carries : Within (Carries own) (autotune : Daemon P TuneReport) := by
  refine Within.bind (now_rests.mono carries_of_rests) fun t => ?_
  refine Within.bind (Within.update fun _ => ⟨rfl, fun _ => rfl, rfl⟩) fun _ => ?_
  exact tune_within_rests carries_of_rests (switch_carries law)

/-! ### Connecting -/

omit law in
/-- The tunnel is accounted for, and nothing stands in the way of bringing one up. -/
def StaysReady (own : P.Tunnel → Bool) (w w' : World P) : Prop :=
  w.Accounted own ∧ w.Configured → w'.Accounted own ∧ w'.Configured

omit law in
instance : IsPreorder (World P) (StaysReady own) where
  refl _ := id
  trans _ _ _ h₁ h₂ := h₂ ∘ h₁

omit law in
theorem Measures.ready {w w' : World P} (h : Measures w w') : StaysReady own w w' := fun hw =>
  have hcarries : Carries own w w' := carries_of_rests w w' h.rests
  ⟨hcarries.accounted hw.1, hcarries.configured hw.1.paired h.config hw.2⟩

/-- Bringing a tunnel up where nothing is connected accounts for it. -/
theorem establish_ready (chosen : RankedServer) {w : World P} (hnone : w.state.current = none) :
    StaysReady own w (after (establish chosen) w) := by
  rintro ⟨hw, hconfigured⟩
  have hpaired := establish_paired chosen w hw.paired
  have htunnel : w.state.tunnel = none := by
    have hsome := hw.paired
    rw [World.Paired, hnone] at hsome
    exact Option.not_isSome_iff_eq_none.mp (by simp [hsome])
  rcases h : establish chosen w with ⟨r, w'⟩
  rw [h] at hpaired
  have hfitted : ∀ opened, P.new (w.outside.faults.opens 0) w.machine = .ok opened →
      own (w.state.fit (w.outside.surroundings 0) opened) = w.state.config.killswitch.enabled :=
    fun opened hnew => law.fit _ _ _ (law.new _ _ _ hnew)
  rw [after, h]
  rcases establish_cases h with ⟨_, _, _, hstate, _, hm⟩ |
    ⟨opened, _, t', m, hnew, hup, _, hstate, _, hm⟩ | ⟨opened, t', hnew, hup, _, hstate, _⟩
  · refine ⟨⟨hpaired, fun t ht => ?_⟩, fun hcurrent hengaged => ?_⟩
    · rw [hstate, htunnel] at ht
      cases ht
    · rw [hstate]
      exact hconfigured hnone (hm ▸ hengaged)
  · refine ⟨⟨hpaired, fun t ht => ?_⟩, fun hcurrent hengaged => ?_⟩
    · rw [hstate, htunnel] at ht
      cases ht
    · rw [hstate]
      by_contra hdisabled
      rw [Bool.not_eq_true] at hdisabled
      obtain ⟨hown, hsame⟩ := law.up _ _ _ _ _ _ _ hup ((hfitted opened hnew).trans hdisabled)
      rw [hm, law.drop _ _ _ hown, hsame] at hengaged
      exact Bool.false_ne_true (hdisabled.symm.trans (hconfigured hnone hengaged))
  · refine ⟨⟨hpaired, fun t ht hengaged => ?_⟩, fun hcurrent => ?_⟩
    · rw [hstate] at ht
      cases ht
      cases henabled : w.state.config.killswitch.enabled with
      | true => exact law.up_ok _ _ _ _ _ _ hup ((hfitted opened hnew).trans henabled)
      | false =>
        obtain ⟨_, hsame⟩ := law.up _ _ _ _ _ _ _ hup ((hfitted opened hnew).trans henabled)
        rw [hsame] at hengaged
        exact absurd (hconfigured hnone hengaged) (henabled ▸ Bool.false_ne_true)
    · rw [hstate] at hcurrent
      cases hcurrent

theorem connect_ready (server : Option String) (measureFirst : Option Bool) :
    Within (StaysReady own) (connect server measureFirst : Daemon P RankedServer) := by
  refine connect_within (.of_samples fun w w' h => h.toMeasures.ready)
    (fun w hw => ⟨⟨hw.1.paired, hw.1.covered⟩, hw.2⟩) (fun chosen w hw => ?_)
    (fun w => (sweep_measures none w).ready) (fun _ _ => establish_ready law _) _ _
  have hcarries := moveTo_carries law chosen w
  exact ⟨hcarries.accounted hw.1, hcarries.configured hw.1.paired
    (moveTo_steers chosen w).operates.config hw.2⟩

/-! ### Disconnecting -/

/-- A disconnect that succeeds releases the kill switch. -/
theorem disconnect_ok {w w' : World P} (hw : w.Accounted own)
    (hclears : clears (w.outside.faults.downs 0)) (h : disconnect w = (.ok (), w')) :
    P.isEngaged w'.machine = false := by
  rcases disconnect_cases h with ⟨_, hr, _⟩ | ⟨t, result, t', m, ht, hdown, hr, _, hm, _⟩
  · cases hr
  · cases result with
    | error e => cases hr
    | ok =>
      rw [hm]
      by_contra hengaged
      rw [Bool.not_eq_false] at hengaged
      obtain ⟨hown, hwas⟩ := law.down _ _ _ _ _ _ hdown hclears hengaged
      exact Bool.false_ne_true (hown.symm.trans (hw.covered t ht hwas))

omit law in
theorem disconnect_accounted {w : World P} (hw : w.Accounted own) :
    (after disconnect w).Accounted own := by
  refine ⟨disconnect_paired w hw.paired, fun t ht => ?_⟩
  rcases h : disconnect w with ⟨r, w'⟩
  rw [after, h] at ht ⊢
  rcases disconnect_cases h with ⟨_, _, rfl⟩ | ⟨_, _, _, _, _, _, _, hstate, _⟩
  · exact hw.covered t ht
  · rw [hstate] at ht
    cases ht

end Accounts

/-- What `baseline` does before it disconnects. -/
def measureTunnelled (current : Connection) : Daemon P SpeedSample := do
  let tunnelled ← measure (← self).throughputRequest
  recordThroughput current.server tunnelled.mbps
  pure tunnelled

/-- The world in which an operation disconnects. -/
def World.disconnecting (w : World P) : Op → Option (World P)
  | .disconnect => some w
  | .baseline true =>
    match w.state.current with
    | none => none
    | some current =>
      match measureTunnelled current w with
      | (.ok _, v) => some v
      | (.error _, _) => none
  | _ => none

/-- What `baseline` does after it has disconnected. -/
def measureDirect (current : Connection) (before : State P) (tunnelled : SpeedSample) :
    Daemon P SpeedReport := do
  let direct ← attempt (measure before.throughputRequest)
  let restored ← attempt (connect (some current.server) (some false))
  let direct ← lift direct
  let _ ← lift restored
  recordDirect direct.mbps
  return {
    tunnelled := some tunnelled
    direct := some direct
    server := some current.server
    minMbps := before.config.autotune.minMbps
    meetsTarget := decide (before.config.autotune.minMbps ≤ tunnelled.mbps)
    verdict := baselineVerdict current.server tunnelled.mbps direct.mbps
      before.config.autotune.minMbps }

theorem baseline_run {w : World P} {current : Connection} (h : w.state.current = some current) :
    baseline w = (do
      let tunnelled ← measureTunnelled current
      disconnect
      measureDirect current w.state tunnelled : Daemon P SpeedReport) w := by
  rw [baseline, self, read_bind, h]
  simp only [measureTunnelled, bind_bind, self, read_bind]
  rfl

theorem measureTunnelled_samples (current : Connection) :
    Within Samples (measureTunnelled current : Daemon P SpeedSample) :=
  Within.bind (Within.read _) fun _ => Within.bind (measure_samples _) fun _ =>
    Within.bind (recordThroughput_samples _ _) fun _ => Within.pure _

section Accounts

variable {own : P.Tunnel → Bool} {clears : P.DownFault → Prop} (law : Tracks own clears)

include law

theorem baseline_accounted {w : World P} (hw : w.Accounted own)
    (hclears : clears (w.outside.faults.downs 0)) : (after baseline w).Accounted own := by
  cases hcurrent : w.state.current with
  | none =>
    have hrun : baseline w = speedtest w := by rw [baseline, self, read_bind, hcurrent]
    rw [after, hrun]
    exact (carries_of_rests _ _ (speedtest_samples w).toMeasures.rests).accounted hw
  | some current =>
    have hsamples := measureTunnelled_samples current w
    rw [after, baseline_run hcurrent]
    rcases hmeasure : measureTunnelled current w with ⟨e | tunnelled, v⟩
    · rw [hmeasure] at hsamples
      rw [bind_run_error hmeasure]
      exact (carries_of_rests _ _ hsamples.toMeasures.rests).accounted hw
    · rw [hmeasure] at hsamples
      have hv : v.Accounted own := (carries_of_rests _ _ hsamples.toMeasures.rests).accounted hw
      rw [bind_run_ok hmeasure]
      have hdown := disconnect_accounted hv
      rcases hdisconnect : disconnect v with ⟨e | _, u⟩
      · rw [after, hdisconnect] at hdown
        rw [bind_run_error hdisconnect]
        exact hdown
      · rw [after, hdisconnect] at hdown
        rw [bind_run_ok hdisconnect]
        have hreleased := disconnect_ok law hv (by rw [hsamples.faults]; exact hclears) hdisconnect
        have hready : u.Accounted own ∧ u.Configured :=
          ⟨hdown, fun _ hengaged => absurd hengaged (hreleased ▸ Bool.false_ne_true)⟩
        have hrest : Within (StaysReady own) (measureDirect current w.state tunnelled) := by
          refine Within.bind (Within.attempt ((measure_samples _).mono fun _ _ h =>
            h.toMeasures.ready)) fun direct => ?_
          refine Within.bind (Within.attempt (connect_ready law _ _)) fun restored => ?_
          refine Within.bind (Within.lift _) fun direct => Within.bind (Within.lift _) fun _ => ?_
          exact Within.bind ((recordDirect_samples _).mono fun _ _ h => h.toMeasures.ready)
            fun _ => Within.pure _
        exact (hrest u hready).1

end Accounts

/-- No kill switch is engaged under a tunnel without one, none is engaged unconfigured when a tunnel
is brought up, and taking a tunnel down removes the rules where it is said to. -/
def World.Accounts (own : P.Tunnel → Bool) (clears : P.DownFault → Prop) (w : World P) : Op → Prop
  | .connect _ _ => w.Configured
  | .killswitch (some true) => ∀ t, w.state.tunnel = some t → own t = true ∨
      P.isEngaged (P.engage w.state.config.killswitch.allowLan (w.outside.faults.engages 0)
        w.machine).2 = false
  | .disconnect | .baseline true => clears (w.outside.faults.downs 0)
  | _ => True

section Accounts

variable {own : P.Tunnel → Bool} {clears : P.DownFault → Prop} (law : Tracks own clears)

include law

theorem killswitch_accounted {enable : Option Bool} {w : World P} (hw : w.Accounted own)
    (hop : w.Accounts own clears (.killswitch enable)) :
    (after (killswitch enable) w).Accounted own := by
  refine ⟨killswitch_paired _ _ hw.paired, fun t ht hengaged => ?_⟩
  match enable with
  | none => exact hw.covered t ht hengaged
  | some true =>
    obtain ⟨htunnel, hmachine⟩ := killswitch_on w
    change (after (killswitch (some true)) w).state.tunnel = _ at htunnel
    change (after (killswitch (some true)) w).machine = _ at hmachine
    rw [htunnel] at ht
    rw [hmachine] at hengaged
    rcases hop t ht with hown | hoff
    · exact hown
    · exact absurd hengaged (hoff ▸ Bool.false_ne_true)
  | some false =>
    obtain ⟨htunnel, hmachine⟩ := killswitch_off w
    change (after (killswitch (some false)) w).state.tunnel = _ at htunnel
    change (after (killswitch (some false)) w).machine = _ at hmachine
    rw [htunnel] at ht
    rw [hmachine] at hengaged
    exact hw.covered t ht (law.release _ _ hengaged)

theorem step_accounted (w : World P) (op : Op) (hop : w.Accounts own clears op)
    (hw : w.Accounted own) : (step w op).Accounted own := by
  have hrests : ∀ {w' : World P}, Rests w w' → w'.Accounted own :=
    fun h => (carries_of_rests w _ h).accounted hw
  have hautotune : Within (Carries own) (autotune : Daemon P TuneReport) := autotune_carries law
  cases op with
  | connect server measure => exact (connect_ready law _ _ w ⟨hw, hop⟩).1
  | disconnect => exact disconnect_accounted hw
  | switch server => exact (switch_carries law _ w).accounted hw
  | test country => exact hrests (sweep_measures _ w).rests
  | servers country limit all => exact hrests (servers_fetches _ _ _ w).toMeasures.rests
  | reload => exact hrests (reload_rests w)
  | autotune => exact (hautotune w).accounted hw
  | approve => exact (approve_within carries_of_rests (switch_carries law) w).accounted hw
  | dismiss => exact hrests (dismiss_rests w)
  | speedtest => exact hrests (speedtest_samples w).toMeasures.rests
  | baseline confirm =>
    cases confirm with
    | false => exact hw
    | true => exact baseline_accounted law hw hop
  | killswitch enable => exact killswitch_accounted law hw hop
  | scheduledPass =>
    have hpass : Within (Carries own) (scheduledPass : Daemon P (Option TuneReport)) :=
      Within.bind (now_rests.mono carries_of_rests) fun t => Within.bind (Within.read _) fun s =>
        Within.ite (Within.bind hautotune fun _ => Within.pure _) (Within.pure _)
    exact (hpass w).accounted hw

/-- In a run whose every step accounts for the kill switch, a disconnect that succeeds, requested or
on the way to a direct measurement, leaves it released. -/
theorem run_releases {w v : World P} {op : Op} (h : ReachableBy (World.Accounts own clears) w)
    (hop : w.Accounts own clears op) (hv : v ∈ w.disconnecting op)
    (hok : (disconnect v).1.isOk = true) : P.isEngaged (after disconnect v).machine = false := by
  have hw : w.Accounted own := by
    refine h.holds (fun start hs => ?_) (step_accounted law)
    obtain ⟨_, _, _, _, _, hloaded⟩ := hs.loads
    refine ⟨by rw [World.Paired, hloaded]; rfl, fun t ht => ?_⟩
    rw [hloaded] at ht
    cases ht
  obtain ⟨_, hrun⟩ := run_ok hok
  cases op with
  | disconnect =>
    cases hv
    exact disconnect_ok law hw hop hrun
  | baseline confirm =>
    cases confirm with
    | false => cases hv
    | true =>
      unfold World.disconnecting at hv
      cases hcurrent : w.state.current with
      | none => rw [hcurrent] at hv; cases hv
      | some current =>
        have hsamples := measureTunnelled_samples current w
        rw [hcurrent] at hv
        dsimp only at hv
        rcases hmeasure : measureTunnelled current w with ⟨e | tunnelled, v'⟩
        · rw [hmeasure] at hv
          cases hv
        · rw [hmeasure] at hv hsamples
          cases hv
          refine disconnect_ok law ?_ (by rw [hsamples.faults]; exact hop) hrun
          exact (carries_of_rests _ _ hsamples.toMeasures.rests).accounted hw
  | _ => cases hv

end Accounts

def World.AccountsLinux {log : Logarithm} (w : World (.linux log)) : Op → Prop :=
  w.Accounts (fun t : LinuxTunnel => t.killswitch.isSome) fun _ => True

def World.AccountsWindows {log : Logarithm} (w : World (.windows log)) : Op → Prop :=
  w.Accounts (fun t : Windows.Tunnel => t.killswitch.isSome)
    fun f : Windows.DownFault => f.release.fails .clearRules = none

theorem disconnect_releases (log : Logarithm) :
    (∀ (w v : World (.linux log)) op, ReachableBy World.AccountsLinux w → w.AccountsLinux op →
      v ∈ w.disconnecting op → (disconnect v).1.isOk = true →
        (Platform.linux log).isEngaged (after disconnect v).machine = false) ∧
    ∀ (w v : World (.windows log)) op, ReachableBy World.AccountsWindows w → w.AccountsWindows op →
      v ∈ w.disconnecting op → (disconnect v).1.isOk = true →
        (Platform.windows log).isEngaged (after disconnect v).machine = false :=
  ⟨fun _ _ _ => run_releases (tracks_linux log), fun _ _ _ => run_releases (tracks_windows log)⟩

/-- A daemon connected under its settings, with the kill switch turned on after that. -/
def Sample.turnedOn (c : Config) : World (.linux Sample.log) :=
  step (step (world c linuxMachine (outside c pairList pairReply linuxFaults))
    (.connect (some "Achernar") none)) (.killswitch (some true))

/-- With the kill switch configured too, it is released. -/
theorem configured_releases : (Platform.linux Sample.log).isEngaged
    (after disconnect (Sample.turnedOn
      { Sample.config with killswitch.enabled := true })).machine = false := by
  refine (disconnect_releases Sample.log).1 _ _ .disconnect ?_ trivial rfl (by decide +kernel)
  refine ⟨_, Sample.world_starts (by decide +kernel) rfl _ _, .next (.next .here ?_) ?_⟩
  · rintro _ ⟨⟩
  · intro t ht
    have hown : (step (Sample.world { Sample.config with killswitch.enabled := true }
        Sample.linuxMachine (Sample.outside { Sample.config with killswitch.enabled := true }
          Sample.pairList Sample.pairReply Sample.linuxFaults))
        (.connect (some "Achernar") none)).state.tunnel.map
          (fun t : LinuxTunnel => t.killswitch.isSome) = some true := by decide +kernel
    rw [ht] at hown
    exact .inl (Option.some.inj hown)

/-- A kill switch turned on under a tunnel that came up without one outlives it. -/
theorem disconnect_stays_engaged :
    ¬∀ (w v : World (.linux Sample.log)) op, Reachable w → v ∈ w.disconnecting op →
      (disconnect v).1.isOk = true →
        (Platform.linux Sample.log).isEngaged (after disconnect v).machine = false := by
  intro hreleases
  have h := hreleases (Sample.turnedOn Sample.config) _ .disconnect
    ⟨_, Sample.world_starts Sample.config_valid rfl _ _,
      .next (.next .here trivial) trivial⟩ rfl (by decide +kernel)
  exact absurd h (by decide +kernel)

end Vpnmgr
