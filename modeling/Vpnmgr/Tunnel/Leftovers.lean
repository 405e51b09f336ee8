import Vpnmgr.Tunnel.Teardown
import Mathlib.Data.List.Count

/-! What a tunnel that failed to come up leaves behind once its handle is dropped: the interface or
service, the bypass routes, and on Windows the configuration file with the private key. -/

namespace Vpnmgr

open Stateful Stateful.Action

/-- The prefixes that a table routes, in order. -/
def RouteTable.networks (table : RouteTable) : List Cidr := table.map TableRoute.network

/-- Each prefix is routed as often in one table as in the other. -/
def RouteTable.Same (table table' : RouteTable) : Prop := table'.networks.Perm table.networks

namespace Bypass

/-- The prefixes that recorded routes name. -/
def networksOf (routes : List Route) : List Cidr := routes.filterMap fun r => Cidr.parse r.destination

theorem networksOf_cons (r : Route) (routes : List Route) :
    networksOf (r :: routes) = (Cidr.parse r.destination).toList ++ networksOf routes := by
  unfold networksOf
  rw [List.filterMap_cons]
  cases Cidr.parse r.destination <;> rfl

theorem networksOf_length {routes : List Route}
    (h : ∀ r ∈ routes, (Cidr.parse r.destination).isSome = true) :
    (networksOf routes).length = routes.length := by
  induction routes with
  | nil => rfl
  | cons r routes ih =>
    obtain ⟨hr, hroutes⟩ := List.forall_mem_cons.mp h
    obtain ⟨network, hnetwork⟩ := Option.isSome_iff_exists.mp hr
    rw [networksOf_cons, hnetwork, List.length_append, ih hroutes, Option.toList_some,
      List.length_singleton, List.length_cons, Nat.add_comm]

theorem erased_networks (network : Cidr) (table : RouteTable) :
    RouteTable.networks (table.eraseP fun e => some network = some e.network) =
      table.networks.erase network := by
  unfold RouteTable.networks
  induction table with
  | nil => rfl
  | cons e table ih =>
    by_cases he : network = e.network
    · simp [he]
    · have hne : ¬(e.network == network) = true := by simpa using Ne.symm he
      rw [List.eraseP_cons_of_neg (by simpa using he), List.map_cons, List.map_cons,
        List.erase_cons_tail hne, ih]

/-- Withdrawing a route takes its prefix away once, if there is one. -/
theorem withdrawn_networks (deleted : Route → Bool) (table : RouteTable) (r : Route) :
    (withdrawn deleted table r).networks =
      if deleted r then table.networks.diff (Cidr.parse r.destination).toList
      else table.networks := by
  unfold withdrawn
  split
  · cases hparse : Cidr.parse r.destination with
    | none =>
      have hnone : ∀ e : TableRoute, ¬(decide (none = some e.network)) = true := by simp
      rw [List.eraseP_of_forall_not fun e _ => hnone e]
      rfl
    | some network =>
      rw [Option.toList_some, List.diff_cons, List.diff_nil]
      exact erased_networks network table
  · rfl

/-- Withdrawing routes takes away the prefixes of those that can be deleted. -/
theorem withdraw_networks (deleted : Route → Bool) (routes : List Route) (table : RouteTable) :
    RouteTable.networks (routes.foldl (withdrawn deleted) table) =
      table.networks.diff (networksOf (routes.filter deleted)) := by
  induction routes generalizing table with
  | nil => rfl
  | cons r routes ih =>
    rw [List.foldl_cons, ih, withdrawn_networks]
    cases hdeleted : deleted r with
    | false => simp [hdeleted]
    | true =>
      rw [List.filter_cons_of_pos hdeleted, if_pos rfl, networksOf_cons, List.diff_append]

/-- An installation adds the prefixes of the routes it records to the table. -/
theorem install_networks (b : Bypass) (f : InstallFaults) (routes : List Route)
    (table : RouteTable) : ∃ added, (b.install f routes table).1.installed = b.installed ++ added ∧
      (b.install f routes table).2.networks = table.networks ++ networksOf added ∧
      ∀ r ∈ added, (Cidr.parse r.destination).isSome = true := by
  unfold install
  refine List.foldlRecOn routes (installRoute f) (motive := fun s => ∃ added,
    s.1.installed = b.installed ++ added ∧ s.2.networks = table.networks ++ networksOf added ∧
      ∀ r ∈ added, (Cidr.parse r.destination).isSome = true) ?_ fun s hs r _ => ?_
  · exact ⟨[], by simp, by simp [networksOf], fun r hr => by cases hr⟩
  · obtain ⟨added, hinstalled, hnetworks, hparse⟩ := hs
    rcases installRoute_cases f s r with ⟨hkept, _⟩ | ⟨network, hnetwork, _, hrun⟩
    · rw [hkept]
      exact ⟨added, hinstalled, hnetworks, hparse⟩
    · rw [hrun]
      refine ⟨added ++ [r], by simp [hinstalled], ?_, fun r' hr' => ?_⟩
      · simp only [RouteTable.networks] at hnetworks ⊢
        simp [hnetworks, networksOf, List.filterMap_append, hnetwork]
      · rcases List.mem_append.mp hr' with hr' | hr'
        · exact hparse r' hr'
        · rw [List.mem_singleton.mp hr', hnetwork]
          rfl

/-- Once the routes of a fresh record are installed and withdrawn, the table routes what it routed
before exactly when every one of them can be deleted. -/
theorem withdraw_same_iff (f : InstallFaults) (plan : List Route) (deleted : Route → Bool)
    (table : RouteTable) : RouteTable.Same table
        ((new.install f plan table).1.remove deleted (new.install f plan table).2).2 ↔
      ∀ r ∈ (new.install f plan table).1.installed, deleted r = true := by
  obtain ⟨added, hinstalled, hnetworks, hparse⟩ := install_networks new f plan table
  have hremoved : (networksOf (added.filter deleted)).Sublist (networksOf added) :=
    List.filter_sublist.filterMap _
  have hwithin : (networksOf (added.filter deleted)).Subperm (table.networks ++ networksOf added) :=
    (hremoved.trans (List.sublist_append_right _ _)).subperm
  -- what was deleted and what is left make up the table after the installation
  have hrest : (networksOf (added.filter deleted) ++
      (table.networks ++ networksOf added).diff (networksOf (added.filter deleted))).Perm
        (table.networks ++ networksOf added) :=
    List.subperm_append_diff_self_of_count_le (List.subperm_ext_iff.mp hwithin)
  show List.Perm (RouteTable.networks (List.foldl (withdrawn deleted) _ _)) _ ↔ _
  rw [withdraw_networks, hinstalled, hnetworks]
  show List.Perm (List.diff _ (networksOf (added.filter deleted))) _ ↔ ∀ r ∈ added, deleted r = true
  generalize (table.networks ++ networksOf added).diff (networksOf (added.filter deleted)) = left at *
  constructor
  · intro hsame
    have hlength := (hrest.symm.trans (hsame.append_left _)).length_eq
    rw [List.length_append, List.length_append, networksOf_length hparse,
      networksOf_length fun r hr => hparse r (List.mem_of_mem_filter hr), Nat.add_comm,
      Nat.add_right_cancel_iff] at hlength
    exact List.length_filter_eq_length_iff.mp hlength.symm
  · intro hall
    rw [List.filter_eq_self.mpr hall] at hrest
    exact (List.perm_append_left_iff _).mp (hrest.trans List.perm_append_comm)

end Bypass

namespace Linux

variable {spec : TunnelSpec} {f : UpFault} {t t' : LinuxTunnel} {m m' : LinuxMachine}

/-- A handle as it is made: nothing created and nothing recorded. -/
def Fresh (t : LinuxTunnel) : Prop := t.created = false ∧ t.bypass = Bypass.new

/-- Neither the interface nor a bypass route of a failed attempt is left. -/
structure LeavesNothing (m m' : LinuxMachine) : Prop where
  device : m'.device = none
  main : RouteTable.Same m.main m'.main

/-- Whether the kill switch of the handle, if there is one, is engaged. -/
def Engages (f : UpFault) (t : LinuxTunnel) : Prop := t.killswitch.isSome = true → f.engage = none

instance (f : UpFault) (t : LinuxTunnel) : Decidable (Engages f t) :=
  inferInstanceAs (Decidable (_ → _))

/-- Which of the installed routes are deleted: by the failed attempt itself once the kill switch was
engaged, when the handle is dropped before that. -/
def withdrawal (f : UpFault) (d : TeardownFault) (t : LinuxTunnel) : Route → Bool :=
  if Engages f t then f.deleted else d.deleted

/-- An attempt with a valid interface name removes the interface where it got as far as creating it,
and deletes each route that was installed. -/
structure CleansUp (f : UpFault) (d : TeardownFault) (t : LinuxTunnel) (m : LinuxMachine) :
    Prop where
  removes : Engages f t → f.bringUp.map Prod.fst ≠ some .createInterface → d.removeInterface = none
  withdraws : ∀ r ∈ (planned f t m).1.installed, withdrawal f d t r = true

/-- A bring-up that fails to create the interface changes nothing, and one that fails later has
created it. -/
theorem bringUp_error {fault : Option (BringUpStep × String)} {s s' : LinuxTunnel × LinuxMachine}
    {e : TunnelError} (h : bringUp spec fault s = (.error e, s')) :
    (fault.map Prod.fst = some .createInterface ∧ s' = s) ∨
      (fault.map Prod.fst ≠ some .createInterface ∧ s'.1.created = true ∧
        s'.2.device.isSome = true) := by
  rcases fault with _ | ⟨step, text⟩
  · have hok := bringUp_isOk spec none s
    rw [h] at hok
    cases hok
  · cases step with
    | createInterface =>
      simp [bringUp, bind_run, command] at h
      exact .inl ⟨rfl, h.2.symm⟩
    | configureDns =>
      right
      by_cases hdns : spec.client.dns ≠ [] ∨ spec.client.searchDomains ≠ []
      · simp [bringUp, bind_run, command, onDevice, hdns] at h
        obtain ⟨-, rfl⟩ := h
        simp
      · simp [bringUp, bind_run, command, onDevice, hdns] at h
    | _ =>
      simp [bringUp, bind_run, command, onDevice] at h
      obtain ⟨-, rfl⟩ := h
      simp

theorem drop_device (d : TeardownFault) (t : LinuxTunnel) (m : LinuxMachine) :
    (drop d t m).device = if t.created = true ∧ d.removeInterface = none then none else m.device := by
  obtain ⟨interface, created, killswitch, bypass, plan⟩ := t
  obtain ⟨remove, deleted, released⟩ := d
  cases created <;> cases killswitch <;> cases remove <;> cases released <;> rfl

theorem drop_main (d : TeardownFault) (t : LinuxTunnel) (m : LinuxMachine) :
    (drop d t m).main = (t.bypass.remove d.deleted m.main).2 := by
  obtain ⟨interface, created, killswitch, bypass, plan⟩ := t
  obtain ⟨remove, deleted, released⟩ := d
  cases created <;> cases killswitch <;> cases remove <;> cases released <;> rfl

/-- Where the kill switch cannot be engaged, only the plan has been installed. -/
theorem up_planned (hspec : spec.validate = .ok ()) (hengage : ¬Engages f t) :
    (up spec f (t, m)).2 = installPlan f.install (t, m) := by
  obtain ⟨hown, hne⟩ := Classical.not_imp.mp hengage
  obtain ⟨k, hown⟩ := Option.isSome_iff_exists.mp hown
  obtain ⟨e, he⟩ := Option.ne_none_iff_exists'.mp hne
  simp [up, hspec, bind_run, engageOwn, installPlan, hown, he, engage]

/-- Where the interface cannot be brought up, the plan has been installed and withdrawn. -/
theorem up_withdrawn {e : TunnelError} {s : LinuxTunnel × LinuxMachine}
    (hspec : spec.validate = .ok ()) (hengage : Engages f t)
    (hbring : bringUp spec f.bringUp (engaged f t m) = (.error e, s)) :
    (up spec f (t, m)).2.1.created = s.1.created ∧ (up spec f (t, m)).2.1.bypass = Bypass.new ∧
      (up spec f (t, m)).2.2.device = s.2.device ∧
      (up spec f (t, m)).2.2.main = ((planned f t m).1.remove f.deleted (planned f t m).2).2 := by
  have honly := bringUp_onlyDevice spec f.bringUp (engaged f t m)
  rw [hbring] at honly
  have hkeeps : ∀ s : LinuxTunnel × LinuxMachine, (releaseOwn f.release s).1 = s.1 ∧
      (releaseOwn f.release s).2.device = s.2.device ∧
      (releaseOwn f.release s).2.main = s.2.main := by
    intro s
    unfold releaseOwn release
    cases s.1.killswitch <;> cases f.release <;> exact ⟨rfl, rfl, rfl⟩
  obtain ⟨htunnel, hdevice, hmain⟩ := hkeeps (removeRoutes f.deleted s)
  have hrun : up spec f (t, m) = (.error e, releaseOwn f.release (removeRoutes f.deleted s)) := by
    rw [up_run hspec hengage, hbring]
  rw [hrun]
  dsimp only
  rw [htunnel, hdevice, hmain]
  refine ⟨rfl, rfl, rfl, ?_⟩
  show (s.1.bypass.remove f.deleted s.2.main).2 = _
  rw [honly.bypass, honly.main]
  rfl

section Failed

variable {e : TunnelError} (hup : up spec f (t, m) = (.error e, t', m'))

include hup

/-- With a valid interface name, a failed attempt stopped at the kill switch or at the interface. -/
theorem failed_up_cases (hspec : spec.validate = .ok ()) :
    (¬Engages f t ∧ (t', m') = installPlan f.install (t, m)) ∨
      (Engages f t ∧ ∃ e s, bringUp spec f.bringUp (engaged f t m) = (.error e, s) ∧
        t'.created = s.1.created ∧ t'.bypass = Bypass.new ∧ m'.device = s.2.device ∧
        m'.main = ((planned f t m).1.remove f.deleted (planned f t m).2).2) := by
  have hleft : (up spec f (t, m)).2 = (t', m') := by rw [hup]
  by_cases hengage : Engages f t
  · right
    rcases hbring : bringUp spec f.bringUp (engaged f t m) with ⟨e' | _, s⟩
    · have hwithdrawn := up_withdrawn hspec hengage hbring
      rw [hleft] at hwithdrawn
      exact ⟨hengage, e', s, rfl, hwithdrawn⟩
    · have hok := (up_run (m := m) hspec hengage).symm.trans hup
      rw [hbring] at hok
      cases hok
  · exact .inl ⟨hengage, hleft.symm.trans (up_planned hspec hengage)⟩

theorem failed_up_main (hspec : spec.validate = .ok ()) (d : TeardownFault) : (drop d t' m').main =
    ((planned f t m).1.remove (withdrawal f d t) (planned f t m).2).2 := by
  rw [drop_main, withdrawal]
  rcases failed_up_cases hup hspec with ⟨hengage, hleft⟩ | ⟨hengage, _, _, _, _, hbypass, _, hmain⟩
  · obtain ⟨rfl, rfl⟩ := Prod.ext_iff.mp hleft
    rw [if_neg hengage]
    rfl
  · rw [if_pos hengage, hbypass, hmain]
    rfl

theorem failed_up_device (ht : Fresh t) (hm : m.device = none) (hspec : spec.validate = .ok ())
    (d : TeardownFault) : (drop d t' m').device = none ↔
      (Engages f t → f.bringUp.map Prod.fst ≠ some .createInterface → d.removeInterface = none) := by
  rw [drop_device]
  rcases failed_up_cases hup hspec with ⟨hengage, hleft⟩ |
    ⟨hengage, _, s, hbring, hcreated, _, hdevice, _⟩
  · obtain ⟨rfl, rfl⟩ := Prod.ext_iff.mp hleft
    have hfresh : (installPlan f.install (t, m)).1.created = false := ht.1
    have hnone : (installPlan f.install (t, m)).2.device = none := hm
    simp [hfresh, hnone, hengage]
  · rw [hcreated, hdevice]
    rcases bringUp_error hbring with ⟨hfirst, rfl⟩ | ⟨hfirst, hcreated, hdevice⟩
    · have hfresh : (engaged f t m).1.created = false := ht.1
      have hnone : (engaged f t m).2.device = none := hm
      simp [hfresh, hnone, hfirst]
    · simp [hcreated, hfirst, hengage, Option.isSome_iff_ne_none.mp hdevice]

/-- A failed attempt leaves nothing exactly when what it created and installed is removed again. -/
theorem failed_up_leaves_iff (ht : Fresh t) (hm : m.device = none) (d : TeardownFault) :
    LeavesNothing m (drop d t' m') ↔ (spec.validate = .ok () → CleansUp f d t m) := by
  cases hspec : spec.validate with
  | error e' =>
    have hstays : (up spec f (t, m)).2 = (t, m) := by simp [up, hspec, bind_run]
    rw [hup] at hstays
    cases hstays
    refine iff_of_true ⟨?_, ?_⟩ fun h => by cases h
    · rw [drop_device, ht.1, hm]
      rfl
    · rw [drop_main, ht.2]
      exact List.Perm.refl _
  | ok =>
    have hplanned : planned f t m = Bypass.new.install f.install t.bypassPlan m.main := by
      rw [planned, ht.2]
    have hsame : RouteTable.Same m.main (drop d t' m').main ↔
        ∀ r ∈ (planned f t m).1.installed, withdrawal f d t r = true := by
      rw [failed_up_main hup hspec, hplanned]
      exact Bypass.withdraw_same_iff _ _ _ _
    have hdevice := failed_up_device hup ht hm hspec d
    constructor
    · rintro ⟨hnone, hmain⟩ -
      exact ⟨hdevice.mp hnone, hsame.mp hmain⟩
    · intro hclean
      obtain ⟨hremoves, hwithdraws⟩ := hclean rfl
      exact ⟨hdevice.mpr hremoves, hsame.mpr hwithdraws⟩

end Failed

end Linux

namespace Windows

variable {spec : TunnelSpec} {f : UpFault} {t t' : Tunnel} {m m' : Machine}

/-- A handle as it is made: nothing installed and nothing recorded. -/
def Fresh (t : Tunnel) : Prop := t.installed = false ∧ t.bypass = Bypass.new

/-- Neither the service, nor a bypass route, nor the configuration file is left. -/
structure LeavesNothing (m m' : Machine) : Prop where
  adapter : m'.adapter = none
  main : RouteTable.Same m.main m'.main
  conf : m'.conf = none

/-- An attempt with a valid interface name stops where it writes the configuration, and each route
that was installed is deleted when the handle is dropped. -/
structure StopsEarly (f : UpFault) (d : DropFault) (t : Tunnel) (m : Machine) : Prop where
  conf : f.conf.fails = true
  withdraws : ∀ r ∈ (t.bypass.install f.install t.bypassPlan m.main).1.installed,
    d.deleted r = true

instance : IsPreorder (Tunnel × Machine) fun s s' => s'.2.conf = s.2.conf where
  refl _ := rfl
  trans _ _ _ h₁ h₂ := h₂.trans h₁

theorem writeConfig_fails (spec : TunnelSpec) {c : ConfFault} (h : c.fails = true) (s : Tunnel × Machine) :
    ∃ e, writeConfig spec c s = (.error e, s) := by
  obtain ⟨createDir, write⟩ := c
  cases createDir with
  | some e => exact ⟨_, rfl⟩
  | none =>
    cases write with
    | some e => exact ⟨_, rfl⟩
    | none => cases h

theorem writeConfig_writes (spec : TunnelSpec) {c : ConfFault} (h : c.fails = false) (s : Tunnel × Machine) :
    ∃ s', writeConfig spec c s = (.ok (), s') ∧ s'.2.conf ≠ none := by
  obtain ⟨createDir, write⟩ := c
  cases createDir with
  | some e => cases h
  | none =>
    cases write with
    | some e => cases h
    | none => exact ⟨_, rfl, Option.some_ne_none _⟩

theorem engageOwn_conf (g : EngageFault) :
    Within (fun s s' => s'.2.conf = s.2.conf) (engageOwn g) := by
  intro s
  unfold engageOwn engage
  cases s.1.killswitch with
  | none => rfl
  | some k => cases hstop : g.stopsAt <;> simp [Killswitch.engage, hstop, Except.mapError]

/-- What follows the configuration file leaves it. -/
theorem install_conf (f : UpFault) : Within (fun s s' => s'.2.conf = s.2.conf) (do
    run "installing the tunnel service" f.installService fun m =>
      { m with adapter := some ((m.conf.map confPeer).toList) }
    engageOwn f.engage
    update fun s => ({ s.1 with installed := true }, s.2) : Backend Unit) := by
  refine Within.bind (fun s => ?_) fun _ => Within.bind (engageOwn_conf _) fun _ =>
    Within.update fun _ => rfl
  unfold run
  cases f.installService <;> rfl

/-- Dropping a handle that was not marked as installed withdraws its routes and no more. -/
theorem drop_uninstalled (d : DropFault) (ht : t.installed = false) (m : Machine) :
    (drop d t m).adapter = m.adapter ∧ (drop d t m).conf = m.conf ∧
      (drop d t m).main = (t.bypass.remove d.deleted m.main).2 := by
  have hdrop : drop d t m = (removeRoutes d.deleted (t, m)).2 := by simp [drop, ht]
  rw [hdrop]
  exact ⟨rfl, rfl, rfl⟩

section Failed

variable {e : TunnelError} (hup : up spec f (t, m) = (.error e, t', m'))

include hup

/-- A failed attempt with a valid interface name stopped where it writes the configuration, or has
written it. -/
theorem failed_up_cases (hspec : spec.validate = .ok ()) (hm : m.adapter = none) :
    (f.conf.fails = true ∧ (t', m') = installPlan f.install (t, m)) ∨
      (f.conf.fails = false ∧ m'.conf ≠ none) := by
  have hleftover : removeLeftover f.removeService (t, m) = (.ok (), t, m) := by
    simp [removeLeftover, hm]
  have hrun : up spec f (t, m) = (do
      writeConfig spec f.conf
      run "installing the tunnel service" f.installService fun m =>
        { m with adapter := some ((m.conf.map confPeer).toList) }
      engageOwn f.engage
      update fun s => ({ s.1 with installed := true }, s.2) : Backend Unit)
        (installPlan f.install (t, m)) := by
    simp only [up, hspec, lift_run, bind_run, hleftover, update_run]
  rw [hrun] at hup
  generalize installPlan f.install (t, m) = s at hup ⊢
  cases hfails : f.conf.fails with
  | true =>
    obtain ⟨e', hwrite⟩ := writeConfig_fails spec hfails s
    rw [bind_run_error hwrite] at hup
    cases hup
    exact .inl ⟨rfl, rfl⟩
  | false =>
    obtain ⟨s', hwrite, hconf⟩ := writeConfig_writes spec hfails s
    rw [bind_run_ok hwrite] at hup
    have hkeeps := (install_conf f).run hup
    exact .inr ⟨rfl, fun hnone => hconf (hkeeps.symm.trans hnone)⟩

/-- A failed attempt leaves nothing exactly when it stops before the configuration file is written,
and there was none before. -/
theorem failed_up_leaves_iff (ht : Fresh t) (hm : m.adapter = none) (d : DropFault) :
    LeavesNothing m (drop d t' m') ↔
      m.conf = none ∧ (spec.validate = .ok () → StopsEarly f d t m) := by
  cases hspec : spec.validate with
  | error e' =>
    have hstays : (up spec f (t, m)).2 = (t, m) := by simp [up, hspec, bind_run]
    rw [hup] at hstays
    cases hstays
    obtain ⟨hadapter, hconf, hmain⟩ := drop_uninstalled d ht.1 m
    constructor
    · intro hnothing
      exact ⟨hconf.symm.trans hnothing.conf, fun h => by cases h⟩
    · rintro ⟨hnone, -⟩
      refine ⟨hadapter.trans hm, ?_, hconf.trans hnone⟩
      rw [hmain, ht.2]
      exact List.Perm.refl _
  | ok =>
    have hinstalled : t'.installed = false := (up_error_installed hspec hup).trans ht.1
    obtain ⟨hadapter, hconf, hmain⟩ := drop_uninstalled d hinstalled m'
    rcases failed_up_cases hup hspec hm with ⟨hfails, hleft⟩ | ⟨hwritten, hleft⟩
    · obtain ⟨rfl, rfl⟩ := Prod.ext_iff.mp hleft
      have hsame : RouteTable.Same m.main
          (drop d (installPlan f.install (t, m)).1 (installPlan f.install (t, m)).2).main ↔ ∀ r ∈
          (t.bypass.install f.install t.bypassPlan m.main).1.installed, d.deleted r = true := by
        rw [hmain]
        show RouteTable.Same m.main (Bypass.remove (t.bypass.install f.install t.bypassPlan m.main).1
          d.deleted (t.bypass.install f.install t.bypassPlan m.main).2).2 ↔ _
        rw [ht.2]
        exact Bypass.withdraw_same_iff _ _ _ _
      constructor
      · intro hnothing
        exact ⟨hconf.symm.trans hnothing.conf, fun _ => ⟨hfails, hsame.mp hnothing.main⟩⟩
      · rintro ⟨hnone, hstops⟩
        exact ⟨hadapter.trans hm, hsame.mpr (hstops rfl).withdraws, hconf.trans hnone⟩
    · refine iff_of_false (fun hnothing => hleft (hconf.symm.trans hnothing.conf)) ?_
      rintro ⟨-, hstops⟩
      exact Bool.false_ne_true (hwritten.symm.trans (hstops rfl).conf)

end Failed

end Windows

/-- On Linux a failed attempt leaves nothing behind exactly when its cleanup succeeds. On Windows it
does exactly when it stops before the configuration file is written, and its routes are deleted. -/
theorem failed_up_leaves_nothing_iff (spec : TunnelSpec) (e : TunnelError) :
    (∀ (f : Linux.UpFault) (d : Linux.TeardownFault) (t t' : LinuxTunnel) (m m' : LinuxMachine),
      Linux.Fresh t → m.device = none → Linux.up spec f (t, m) = (.error e, t', m') →
        (Linux.LeavesNothing m (Linux.drop d t' m') ↔
          (spec.validate = .ok () → Linux.CleansUp f d t m))) ∧
    ∀ (f : Windows.UpFault) (d : Windows.DropFault) (t t' : Windows.Tunnel) (m m' : Windows.Machine),
      Windows.Fresh t → m.adapter = none → Windows.up spec f (t, m) = (.error e, t', m') →
        (Windows.LeavesNothing m (Windows.drop d t' m') ↔
          m.conf = none ∧ (spec.validate = .ok () → Windows.StopsEarly f d t m)) :=
  ⟨fun _ d _ _ _ _ ht hm hup => Linux.failed_up_leaves_iff hup ht hm d,
    fun _ d _ _ _ _ ht hm hup => Windows.failed_up_leaves_iff hup ht hm d⟩

/-- An interface that cannot be configured is removed again. -/
theorem unconfigured_interface_removed :
    let f := { Linux.anyFault with bringUp := some (.configureInterface, "no such key") }
    Linux.LeavesNothing Linux.routed
      (Linux.drop {} (Linux.up Linux.anySpec f (Linux.planning "203.0.113.0/24", Linux.routed)).2.1
        (Linux.up Linux.anySpec f (Linux.planning "203.0.113.0/24", Linux.routed)).2.2) := by
  intro f
  obtain ⟨e, hup⟩ := run_error (x := Linux.up Linux.anySpec f)
    (s := (Linux.planning "203.0.113.0/24", Linux.routed)) (by decide +kernel)
  refine ((failed_up_leaves_nothing_iff _ e).1 _ _ _ _ _ _ ⟨rfl, rfl⟩ rfl hup).mpr fun _ => ?_
  exact ⟨fun _ _ => rfl, fun r _ => by rw [Linux.withdrawal]; split <;> rfl⟩

/-- A kill switch that cannot be engaged leaves the service that was installed. -/
theorem unengaged_killswitch_leaves_service :
    ¬∀ (spec : TunnelSpec) (f : Windows.UpFault) (d : Windows.DropFault) (t t' : Windows.Tunnel)
      (m m' : Windows.Machine) (e : TunnelError), Windows.Fresh t → m.adapter = none →
      Windows.up spec f (t, m) = (.error e, t', m') →
        Windows.LeavesNothing m (Windows.drop d t' m') := by
  intro hall
  let f : Windows.UpFault :=
    { install := ⟨fun _ => true, fun _ => true⟩, engage := { stopsAt := some (4, "denied") } }
  obtain ⟨e, hup⟩ := run_error (x := Windows.up Linux.anySpec f) (s := Windows.fresh)
    (by decide +kernel)
  have hnothing := hall _ _ {} _ _ _ _ _ ⟨rfl, rfl⟩ rfl hup
  have hstops := ((Windows.failed_up_leaves_iff hup ⟨rfl, rfl⟩ rfl {}).mp hnothing).2
  exact absurd (hstops (by decide +kernel)).conf (by decide)

end Vpnmgr
