import Vpnmgr.Daemon.Toggles
import Vpnmgr.Tunnel.Programmed

/-! Whether an engaged kill switch lets the tunnel's own packets and the handshakes of the probes
out. On Linux it knows them by their mark; on Windows by a port, which is not the configured one. -/

namespace Vpnmgr

open Ieee Stateful Stateful.Action

variable {P : Platform}

/-- The places that engage the kill switch: a tunnel that comes up with one, and the request to turn
it on. -/
inductive Place where
  | up (chosen : RankedServer)
  | request

/-- The kill switch is engaged at the place, from one world to the next. -/
def Place.Engages (w w' : World P) : Place → Prop
  | up chosen => w.state.config.killswitch.enabled = true ∧ establish chosen w = (.ok (), w')
  | request => ∃ report, killswitch (some true) w = (.ok report, w')

/-- An endpoint that the daemon can target: an entry of some server, at the configured port. -/
def Config.Targets (c : Config) (endpoint : SocketAddr) : Prop :=
  ∃ s : Server, ∃ entry ∈ wgEntries,
    s.wgEndpointForEntry entry c.provider.airvpn.port = some endpoint

theorem Config.targets_iff {c : Config} {endpoint : SocketAddr} :
    c.Targets endpoint ↔ ∃ a, endpoint = ⟨.v4 a, c.provider.airvpn.port⟩ := by
  constructor
  · rintro ⟨s, entry, hentry, h⟩
    simp only [wgEntries, List.mem_cons, List.not_mem_nil, or_false] at hentry
    rcases hentry with rfl | rfl
    · exact ⟨s.wgIpv4, (Option.some.inj h).symm⟩
    · obtain ⟨a, _, rfl⟩ := Option.map_eq_some_iff.mp h
      exact ⟨a, rfl⟩
  · rintro ⟨a, rfl⟩
    exact ⟨Sample.server "" "" a none, 1, List.mem_cons_self, rfl⟩

/-- Every handshake of a sweep goes to such an endpoint. -/
theorem Config.targets_of_probed {c : Config} {servers : List Server} {t : Nat × Nat × SocketAddr}
    (h : t ∈ probeTargets servers wgEntries c.provider.airvpn.port) : c.Targets t.2.2 := by
  simp only [probeTargets, List.mem_flatMap, List.mem_map, Server.wgEndpoints,
    List.mem_filterMap] at h
  obtain ⟨s, _, x, ⟨entry, hentry, hx⟩, rfl⟩ := h
  obtain ⟨endpoint, hendpoint, rfl⟩ := Option.map_eq_some_iff.mp hx
  exact ⟨s.1, entry, hentry, hendpoint⟩

/-- A request that turns the kill switch on engages it. -/
theorem killswitch_engages {report : KillswitchReport} {w w' : World P}
    (h : killswitch (some true) w = (.ok report, w')) :
    P.engage w.state.config.killswitch.allowLan (w.outside.faults.engages 0) w.machine =
      (.ok (), w'.machine) := by
  rcases hengage : P.engage w.state.config.killswitch.allowLan (w.outside.faults.engages 0) w.machine
    with ⟨_ | _, m⟩
  · simp [killswitch, turnKillswitch, self, nextEngage, draw, bind_run, onMachine, hengage,
      Except.mapError] at h
  · simp [killswitch, turnKillswitch, self, nextEngage, draw, bind_run, onMachine, hengage,
      Except.mapError, modify] at h
    rw [← h.2]

/-- A handle is fitted with the configured kill switch last. -/
theorem State.fit_enabled {s : State P} (h : s.config.killswitch.enabled = true)
    (around : Surroundings) (t : P.Tunnel) : s.fit around t =
      P.withKillswitch s.config.killswitch.allowLan
        (if Bypass.plan s.bypassRequest around = [] then t
        else P.withBypass (Bypass.plan s.bypassRequest around) t) := by
  rw [State.fit, h, if_pos rfl]

/-! ### Linux -/

section Linux

variable {log : Logarithm}

theorem fit_killswitch_linux {s : State (.linux log)} (h : s.config.killswitch.enabled = true)
    (around : Surroundings) (t : LinuxTunnel) : (s.fit around t : LinuxTunnel).killswitch =
      some (.new defaultInterface defaultFwmark s.config.killswitch.allowLan) := by
  exact congrArg LinuxTunnel.killswitch (State.fit_enabled h around t)

/-- A tunnel that came up with a kill switch has installed its table. -/
theorem Linux.up_table {spec : TunnelSpec} {f : UpFault} {t t' : LinuxTunnel}
    {m m' : LinuxMachine} {k : Killswitch} (hk : t.killswitch = some k)
    (hup : up spec f (t, m) = (.ok (), t', m')) :
    m'.firewall = some ⟨k.allowing (planned f t m).1.destinations, 0⟩ := by
  obtain ⟨hspec, hengage, hgoes⟩ := up_ok_faults hup
  obtain ⟨_, _, _, _, hwall⟩ := up_done (m := m) hspec hengage hgoes
  rwa [hup, ownTable, hk] at hwall

/-- Wherever the kill switch is engaged on Linux, its table accepts by the default mark. -/
theorem engages_marks {place : Place} {w w' : World (.linux log)} (h : place.Engages w w') :
    ∃ table : NftTable, (w'.machine : LinuxMachine).firewall = some table ∧
      table.ruleset.fwmark = defaultFwmark := by
  cases place with
  | up chosen =>
    obtain ⟨henabled, hestablish⟩ := h
    rcases establish_cases hestablish with ⟨_, _, hr, _⟩ | ⟨_, _, _, _, _, _, hr, _⟩ |
      ⟨opened, tunnel, _, hup, _⟩
    · cases hr
    · cases hr
    · exact ⟨_, Linux.up_table (fit_killswitch_linux henabled _ _) hup, rfl⟩
  | request =>
    obtain ⟨report, hreport⟩ := h
    have hengage : Linux.engage (.new defaultInterface defaultFwmark
        w.state.config.killswitch.allowLan) (w.outside.faults.engages 0) w.machine =
        (.ok (), w'.machine) := killswitch_engages hreport
    unfold Linux.engage at hengage
    split at hengage
    · cases hengage
    · exact ⟨_, (congrArg (fun r => r.2.firewall) hengage).symm, rfl⟩

end Linux

/-! ### Windows -/

namespace Windows

/-- The rules hit the ports that they name and what is admitted by address. -/
theorem Killswitch.rules_hit_iff {k : Killswitch} {p : OutboundPacket} :
    k.rules.any (·.scope.hits p) = true ↔
      p.udpRemotePort.any [k.port, 67, 68].contains = true ∨ k.admits p.dst = true := by
  have hport : p.udpRemotePort.any [k.port, 67, 68].contains =
      (p.udpRemotePort.any [k.port].contains || p.udpRemotePort.any [67, 68].contains) := by
    cases p.udpRemotePort with
    | none => rfl
    | some port => simp
  have hlan : (if k.allowLan then [⟨"vpnmgr-allow-lan-v4", .remoteAddress lanV4⟩,
      ⟨"vpnmgr-allow-lan-v6", .remoteAddress lanV6⟩] else []).any (fun r : AllowRule =>
        r.scope.hits p) = (if k.allowLan then lanV4 ++ lanV6 else []).any (covers · p.dst) := by
    cases k.allowLan with
    | false => rfl
    | true => simp [Scope.hits]
  have hallowed : (if k.allowed ≠ [] then [⟨"vpnmgr-allow-bypass", .remoteAddress k.allowed⟩]
      else []).any (fun r : AllowRule => r.scope.hits p) = k.allowed.any (covers · p.dst) := by
    by_cases hnone : k.allowed = []
    · rw [if_neg (not_not.mpr hnone), hnone]
      rfl
    · rw [if_pos hnone, List.any_cons, List.any_nil, Bool.or_false]
      rfl
  rw [rules, List.any_append, List.any_append, hlan, hallowed, hport]
  simp only [admits, List.any_append, List.any_cons, List.any_nil, Bool.or_false, Scope.hits,
    Bool.or_eq_true]
  tauto

/-- An engaged firewall lets out what its rules hit, and what leaves through the tunnel. -/
theorem Killswitch.engaged_accepts {k : Killswitch} {f : EngageFault} (hf : f.stopsAt = none)
    (adapterExists : Bool) (fw : Firewall) (p : OutboundPacket) :
    (k.engage f adapterExists fw).2.accepts p = true ↔
      (adapterExists = true ∧ p.adapter = k.interface) ∨
        p.udpRemotePort.any [k.port, 67, 68].contains = true ∨ k.admits p.dst = true := by
  rw [k.engage_done hf, Firewall.accepts, List.any_append, Bool.or_eq_true, Bool.or_eq_true,
    rules_hit_iff]
  cases adapterExists <;> simp [Scope.hits]

theorem Killswitch.engage_ok {k : Killswitch} {f : EngageFault} {adapterExists : Bool}
    {fw fw' : Firewall} (h : k.engage f adapterExists fw = (.ok (), fw')) : f.stopsAt = none := by
  unfold engage at h
  split at h
  · assumption
  · cases h

theorem removeLeftover_keeps (fault : Option CommandError) (s : Tunnel × Machine) :
    (removeLeftover fault s).2.1 = s.1 ∧ (removeLeftover fault s).2.2.main = s.2.main ∧
      (removeLeftover fault s).2.2.firewall = s.2.firewall := by
  unfold removeLeftover removeService run
  split
  · cases fault <;> exact ⟨rfl, rfl, rfl⟩
  · exact ⟨rfl, rfl, rfl⟩

theorem writeConfig_keeps (spec : TunnelSpec) (f : ConfFault) (s : Tunnel × Machine) :
    (writeConfig spec f s).2.1 = s.1 ∧ (writeConfig spec f s).2.2.firewall = s.2.firewall := by
  unfold writeConfig
  split <;> exact ⟨rfl, rfl⟩

/-- A handle with a kill switch that engages its own has engaged it with its bypass exempt. -/
theorem engageOwn_ok {k : Killswitch} {f : EngageFault} {s s' : Tunnel × Machine}
    (hk : s.1.killswitch = some k) (hadapter : s.2.adapter.isSome = true)
    (h : engageOwn f s = (.ok (), s')) :
    (k.allowing s.1.bypass.destinations).engage f true s.2.firewall = (.ok (), s'.2.firewall) := by
  rw [engageOwn, hk] at h
  dsimp only [engage] at h
  rw [hadapter] at h
  rcases hengage : (k.allowing s.1.bypass.destinations).engage f true s.2.firewall with ⟨_ | _, fw⟩
  · rw [hengage] at h
    cases h
  · rw [hengage] at h
    cases h
    rfl

/-- A tunnel that came up with a kill switch has engaged it with what the plan installed exempt. -/
theorem up_engages {spec : TunnelSpec} {f : UpFault} {t t' : Tunnel} {m m' : Machine}
    {k : Killswitch} (hk : t.killswitch = some k) (hup : up spec f (t, m) = (.ok (), t', m')) :
    (k.allowing (t.bypass.install f.install t.bypassPlan m.main).1.destinations).engage f.engage
      true m.firewall = (.ok (), m'.firewall) := by
  obtain ⟨_, s₁, hlift, hup⟩ := bind_ok hup
  obtain rfl : (t, m) = s₁ := congrArg Prod.snd hlift
  obtain ⟨_, ⟨t₂, m₂⟩, hleftover, hup⟩ := bind_ok hup
  obtain ⟨ht, hmain, hwall⟩ := removeLeftover_keeps f.removeService (t, m)
  rw [hleftover] at ht hmain hwall
  obtain rfl : t = t₂ := ht.symm
  obtain ⟨_, s₃, hplan, hup⟩ := bind_ok hup
  cases hplan
  obtain ⟨_, ⟨t₄, m₄⟩, hconf, hup⟩ := bind_ok hup
  obtain ⟨ht₄, hwall₄⟩ := writeConfig_keeps spec f.conf (installPlan f.install (t, m₂))
  rw [hconf] at ht₄ hwall₄
  obtain rfl : (installPlan f.install (t, m₂)).1 = t₄ := ht₄.symm
  obtain ⟨_, s₅, hinstall, hup⟩ := bind_ok hup
  obtain ⟨_, s₆, hengage, hup⟩ := bind_ok hup
  cases hup
  rw [run_ok hinstall] at hengage
  have hown := engageOwn_ok hk rfl hengage
  dsimp only [installPlan] at hown hmain hwall hwall₄
  rwa [hwall₄, hwall, hmain] at hown

/-- A kill switch that exempts an installed bypass admits what it always admits and what the
installation covers. -/
theorem Killswitch.admits_allowing (k : Killswitch) (b : Bypass) (ip : IpAddr) :
    (k.allowing b.destinations).admits ip = true ↔
      (k.allowing []).admits ip = true ∨ b.Covers ip := by
  simp only [admits, allowing, Bypass.destinations, Bypass.Covers, List.any_append,
    Bool.or_eq_true, List.any_map, List.any_eq_true, List.append_nil, Function.comp_apply, or_assoc]
  rfl

end Windows

section Windows

variable {log : Logarithm}

/-- What the kill switch exempts beyond the ranges it always allows: the planned destinations that
bringing the tunnel up routes around it, and nothing where it is turned on by a request. -/
def Place.Exempts (w : World (.windows log)) (ip : IpAddr) : Place → Prop
  | up _ => ∃ r ∈ Bypass.plan w.state.bypassRequest (w.outside.surroundings 0),
      Bypass.Adds (w.outside.faults.ups 0 : Windows.UpFault).install
        (w.machine : Windows.Machine).main r ∧ covers r.destination ip = true
  | request => False

theorem fit_killswitch_windows {s : State (.windows log)} (h : s.config.killswitch.enabled = true)
    (around : Surroundings) {t : Windows.Tunnel} (ht : t.bypassPlan = []) :
    (s.fit around t : Windows.Tunnel).killswitch =
        some (.new defaultInterface defaultFwmark s.config.killswitch.allowLan) ∧
      (s.fit around t : Windows.Tunnel).bypass = t.bypass ∧
      (s.fit around t : Windows.Tunnel).bypassPlan = Bypass.plan s.bypassRequest around := by
  have hfit : s.fit around t = Windows.withKillswitch
      (.new defaultInterface defaultFwmark s.config.killswitch.allowLan)
      (if Bypass.plan s.bypassRequest around = [] then t
      else Windows.withBypass (Bypass.plan s.bypassRequest around) t) :=
    State.fit_enabled h around t
  refine ⟨congrArg Windows.Tunnel.killswitch hfit,
    (congrArg Windows.Tunnel.bypass hfit).trans ?_,
    (congrArg Windows.Tunnel.bypassPlan hfit).trans ?_⟩
  · dsimp only [Windows.withKillswitch]
    split <;> rfl
  · dsimp only [Windows.withKillswitch]
    split
    · next hnone => exact ht.trans hnone.symm
    · rfl

/-- Wherever the kill switch is engaged on Windows, its script ran to the end, and it admits what it
always admits and what the place exempts. -/
theorem engages_rules {place : Place} {w w' : World (.windows log)} (h : place.Engages w w') :
    ∃ (k : Windows.Killswitch) (f : Windows.EngageFault) (adapterExists : Bool)
      (fw : Windows.Firewall), f.stopsAt = none ∧ k.interface = defaultInterface ∧ k.port = 1637 ∧
      (w'.machine : Windows.Machine).firewall = (k.engage f adapterExists fw).2 ∧
      ∀ ip, k.admits ip = true ↔ (Windows.Killswitch.new defaultInterface defaultFwmark
        w.state.config.killswitch.allowLan).admits ip = true ∨ place.Exempts w ip := by
  cases place with
  | up chosen =>
    obtain ⟨henabled, hestablish⟩ := h
    rcases establish_cases hestablish with ⟨_, _, hr, _⟩ | ⟨_, _, _, _, _, _, hr, _⟩ |
      ⟨opened, tunnel, hnew, hup, _⟩
    · cases hr
    · cases hr
    · obtain ⟨hbypass, hplan⟩ : (opened : Windows.Tunnel).bypass = Bypass.new ∧
          (opened : Windows.Tunnel).bypassPlan = [] := by
        change Windows.new defaultInterface w.machine = .ok opened at hnew
        unfold Windows.new at hnew
        split at hnew <;> cases hnew
        exact ⟨rfl, rfl⟩
      obtain ⟨hk, hb, hp⟩ := fit_killswitch_windows henabled (w.outside.surroundings 0) hplan
      have hengage := Windows.up_engages hk hup
      rw [hb, hp, hbypass] at hengage
      refine ⟨_, _, _, _, Windows.Killswitch.engage_ok hengage, ?_, ?_,
        (congrArg Prod.snd hengage).symm, fun ip => ?_⟩
      · rfl
      · rfl
      · rw [Windows.Killswitch.admits_allowing, Bypass.install_covers]
        exact or_congr_right (or_iff_right fun ⟨_, hr, _⟩ => (nomatch hr))
  | request =>
    obtain ⟨report, hreport⟩ := h
    have hengage : Windows.engage (.new defaultInterface defaultFwmark
        w.state.config.killswitch.allowLan) (w.outside.faults.engages 0) w.machine =
        (.ok (), w'.machine) := killswitch_engages hreport
    unfold Windows.engage at hengage
    rcases hrun : (Windows.Killswitch.new defaultInterface defaultFwmark
      w.state.config.killswitch.allowLan).engage (w.outside.faults.engages 0)
      (w.machine : Windows.Machine).adapter.isSome (w.machine : Windows.Machine).firewall
      with ⟨_ | _, fw⟩
    · rw [hrun] at hengage
      cases hengage
    · have hwall := congrArg (fun r => r.2.firewall) hengage
      refine ⟨_, _, _, _, Windows.Killswitch.engage_ok hrun, ?_, ?_, hwall.symm, fun ip => ?_⟩
      · rfl
      · rfl
      · exact (or_iff_left id).symm

/-- The packets of the tunnel and of the probes, as Windows can know them. -/
def Config.Own (c : Config) (p : Windows.OutboundPacket) : Prop :=
  ∃ endpoint, c.Targets endpoint ∧ p.dst = endpoint.ip ∧
    p.udpRemotePort = some endpoint.port.toNat

/-- The configured port is the one that the rules let out, or one of address configuration, or every
address is exempt. -/
def Place.LetsOwn (w : World (.windows log)) (place : Place) : Prop :=
  w.state.config.provider.airvpn.port ∈ [wgPort, 67, 68] ∨
    ∀ a, (Windows.Killswitch.new defaultInterface defaultFwmark
      w.state.config.killswitch.allowLan).admits (.v4 a) = true ∨ place.Exempts w (.v4 a)

theorem engages_own_iff {place : Place} {w w' : World (.windows log)} (h : place.Engages w w') :
    (∀ p, w.state.config.Own p → (w'.machine : Windows.Machine).firewall.accepts p = true) ↔
      place.LetsOwn w := by
  obtain ⟨k, f, adapterExists, fw, hf, hinterface, hkport, hwall, hadmits⟩ := engages_rules h
  have haccepts : ∀ p, (w'.machine : Windows.Machine).firewall.accepts p = true ↔
      (adapterExists = true ∧ p.adapter = k.interface) ∨
        p.udpRemotePort.any [k.port, 67, 68].contains = true ∨ k.admits p.dst = true := fun p => by
    rw [hwall]
    exact Windows.Killswitch.engaged_accepts hf adapterExists fw p
  have hports : ∀ port : UInt16,
      (some port.toNat).any [k.port, 67, 68].contains = true ↔ port ∈ [wgPort, 67, 68] := by
    intro port
    rw [hkport]
    simp [wgPort, ← UInt16.toNat_inj]
  constructor
  · intro hall
    by_cases hport : w.state.config.provider.airvpn.port ∈ [wgPort, 67, 68]
    · exact .inl hport
    · refine .inr fun a => ?_
      -- A packet to that address which leaves by another adapter than the tunnel.
      have hout := (haccepts ⟨"Ethernet", .publicNet, .v4 a,
        some w.state.config.provider.airvpn.port.toNat⟩).mp
        (hall _ ⟨_, Config.targets_iff.mpr ⟨a, rfl⟩, rfl, rfl⟩)
      rcases hout with ⟨_, hadapter⟩ | hnamed | haddress
      · rw [hinterface] at hadapter
        exact absurd hadapter (by decide : "Ethernet" ≠ defaultInterface)
      · exact absurd ((hports _).mp hnamed) hport
      · exact (hadmits _).mp haddress
  · rintro hown p ⟨endpoint, htargets, hdst, hport⟩
    obtain ⟨a, rfl⟩ := Config.targets_iff.mp htargets
    refine (haccepts p).mpr (.inr ?_)
    rw [hdst, hport]
    rcases hown with hown | hown
    · exact .inl ((hports _).mpr hown)
    · exact .inr ((hadmits _).mpr (hown a))

end Windows

/-! ### Both -/

namespace Sample

/-- Settings with another port, and the kill switch configured. -/
def portConfig (port : UInt16) : Config :=
  { config with
    provider.airvpn := { config.provider.airvpn with port }
    killswitch.enabled := true }

def turningOnLinux : World (.linux log) := world (portConfig 1637) linuxMachine
  (outside (portConfig 1637) pairList pairReply linuxFaults)

def turningOn (port : UInt16) : World (.windows log) := world (portConfig port) windowsMachine
  (outside (portConfig port) pairList pairReply windowsFaults)

end Sample

end Vpnmgr
