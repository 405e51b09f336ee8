import Vpnmgr.Tunnel.Firewall

/-! The main table and the kill switch after a tunnel came up: which planned destinations are routed
around the tunnel, and which of those the kill switch lets out. -/

namespace Vpnmgr

open Stateful Stateful.Action

/-- The interface that a route leaves by. -/
def Via.interface : Via → String
  | .device name => name
  | .gateway _ name => name

/-- The table routes the prefix that a text names, specifically and outside the tunnel. -/
def RoutedAround (tunnel : String) (table : RouteTable) (destination : String) : Prop :=
  ∃ e ∈ table, Cidr.parse destination = some e.network ∧ e.network.prefixLen ≠ 0 ∧
    e.via.interface ≠ tunnel

namespace Bypass

/-- Whether a record of installed routes covers an address. -/
def Covers (b : Bypass) (ip : IpAddr) : Prop :=
  ∃ r ∈ b.installed, covers r.destination ip = true

/-- One route of the plan: skipped, or recorded together with its entry in the table. -/
theorem installRoute_cases (f : InstallFaults) (s : Bypass × RouteTable) (r : Route) :
    (installRoute f s r = s ∧ ¬Adds f s.2 r) ∨
      ∃ network, Cidr.parse r.destination = some network ∧ Adds f s.2 r ∧
        installRoute f s r = (⟨s.1.installed ++ [r]⟩, s.2 ++ [⟨network, r.via⟩]) := by
  unfold installRoute Adds
  cases hexists : routeExists f s.2 r with
  | true => exact .inl ⟨rfl, fun h => by cases h.2.2⟩
  | false =>
    cases hparse : Cidr.parse r.destination with
    | none => exact .inl ⟨rfl, fun h => by cases h.1⟩
    | some network =>
      cases hadded : f.added r with
      | false => exact .inl ⟨rfl, fun h => by cases h.2.1⟩
      | true => exact .inr ⟨network, rfl, ⟨rfl, rfl, rfl⟩, rfl⟩

/-- A route that more routes in the table do not keep from being added, fewer do not either. -/
theorem Adds.of_append {f : InstallFaults} {table more : RouteTable} {r : Route}
    (h : Adds f (table ++ more) r) : Adds f table r := by
  refine ⟨h.1, h.2.1, ?_⟩
  have hexists := h.2.2
  unfold routeExists at hexists ⊢
  rw [RouteTable.has_append, Bool.and_or_distrib_left, Bool.or_eq_false_iff] at hexists
  exact hexists.1

/-- A route that would be added to a table is added to it with one more entry too, unless that is an
entry for its own prefix. -/
theorem Adds.append {f : InstallFaults} {table : RouteTable} {e : TableRoute} {r : Route}
    (h : Adds f table r) (he : Cidr.parse r.destination ≠ some e.network) :
    Adds f (table ++ [e]) r := by
  refine ⟨h.1, h.2.1, ?_⟩
  have hexists := h.2.2
  unfold routeExists at hexists ⊢
  rw [RouteTable.has_append, Bool.and_or_distrib_left, hexists, Bool.false_or]
  unfold RouteTable.has
  cases hparse : Cidr.parse r.destination with
  | none => exact Bool.and_false _
  | some c =>
    have hne : e.network ≠ c := fun heq => he (by rw [hparse, heq])
    simp [hne]

/-- What an installation covers: what was recorded before, and the planned routes that the table it
began with lets it add. -/
theorem install_covers (b : Bypass) (f : InstallFaults) (routes : List Route) (table : RouteTable)
    (ip : IpAddr) : (b.install f routes table).1.Covers ip ↔
      b.Covers ip ∨ ∃ r ∈ routes, Adds f table r ∧ covers r.destination ip = true := by
  unfold install
  induction routes generalizing b table with
  | nil => simp
  | cons r routes ih =>
    rw [List.foldl_cons]
    rcases installRoute_cases f (b, table) r with ⟨hkept, hnot⟩ | ⟨network, hparse, hadds, hrun⟩
    · rw [hkept, ih]
      simp only [List.mem_cons, exists_eq_or_imp]
      simp [hnot]
    · rw [hrun, ih]
      have hown : (⟨b.installed ++ [r]⟩ : Bypass).Covers ip ↔
          b.Covers ip ∨ covers r.destination ip = true := by
        simp [Covers, or_and_right, exists_or]
      -- A later route of the same prefix is skipped, and this one covers as much.
      have hlater : (covers r.destination ip = true ∨
            ∃ r' ∈ routes, Adds f (table ++ [⟨network, r.via⟩]) r' ∧
              covers r'.destination ip = true) ↔
          (covers r.destination ip = true ∨
            ∃ r' ∈ routes, Adds f table r' ∧ covers r'.destination ip = true) := by
        constructor
        · rintro (h | ⟨r', hr', hadds', hcovers⟩)
          · exact .inl h
          · exact .inr ⟨r', hr', hadds'.of_append, hcovers⟩
        · rintro (h | ⟨r', hr', hadds', hcovers⟩)
          · exact .inl h
          · by_cases hsame : Cidr.parse r'.destination = some network
            · exact .inl (by rw [covers_congr (hparse.trans hsame.symm)]; exact hcovers)
            · exact .inr ⟨r', hr', hadds'.append hsame, hcovers⟩
      rw [hown, or_assoc, hlater]
      simp [hadds]

/-- An entry of the table after an installation was there before, or is recorded. -/
theorem install_table (b : Bypass) (f : InstallFaults) (routes : List Route) (table : RouteTable) :
    (∀ e ∈ table, e ∈ (b.install f routes table).2) ∧
    ∀ e ∈ (b.install f routes table).2, e ∈ table ∨
      ∃ r ∈ (b.install f routes table).1.installed, Cidr.parse r.destination = some e.network := by
  unfold install
  refine List.foldlRecOn routes (installRoute f) (motive := fun s => (∀ e ∈ table, e ∈ s.2) ∧
    ∀ e ∈ s.2, e ∈ table ∨ ∃ r ∈ s.1.installed, Cidr.parse r.destination = some e.network)
    ?_ fun s hs r _ => ?_
  · exact ⟨fun _ he => he, fun _ he => .inl he⟩
  · obtain ⟨hkeeps, hknown⟩ := hs
    rcases installRoute_cases f s r with ⟨hkept, _⟩ | ⟨network, hparse, _, hrun⟩
    · rw [hkept]; exact ⟨hkeeps, hknown⟩
    · rw [hrun]
      refine ⟨fun e he => List.mem_append_left _ (hkeeps e he), fun e he => ?_⟩
      rcases List.mem_append.mp he with he | he
      · rcases hknown e he with he | ⟨r', hr', hnetwork⟩
        · exact .inl he
        · exact .inr ⟨r', List.mem_append_left _ hr', hnetwork⟩
      · rw [List.mem_singleton.mp he]
        exact .inr ⟨r, List.mem_append_right _ (List.mem_singleton_self r), hparse⟩

end Bypass

namespace Linux

variable {spec : TunnelSpec} {f : UpFault} {t t' : LinuxTunnel} {m m' : LinuxMachine}

/-- A tunnel that came up met no fault that stops it. -/
theorem up_ok_faults (hup : up spec f (t, m) = (.ok (), t', m')) :
    spec.validate = .ok () ∧ (t.killswitch.isSome = true → f.engage = none) ∧
      stopsBringUp spec.client f.bringUp = false := by
  obtain ⟨_, s, hlift, _⟩ := bind_ok hup
  have hspec : spec.validate = .ok () := congrArg Prod.fst hlift
  have hengage : t.killswitch.isSome = true → f.engage = none := by
    intro hown
    by_contra hne
    obtain ⟨k, hown⟩ := Option.isSome_iff_exists.mp hown
    obtain ⟨e, he⟩ := Option.ne_none_iff_exists'.mp hne
    have hunengaged := (up_unengaged (m := m) hspec hown he).1
    rw [hup] at hunengaged
    cases hunengaged
  refine ⟨hspec, hengage, ?_⟩
  by_contra hstop
  rw [Bool.not_eq_false] at hstop
  have hstopped := (up_stopped (m := m) hspec hengage hstop).1
  rw [hup] at hstopped
  cases hstopped

/-- What the kill switch of a tunnel lets out on its own account once the tunnel is up: the ranges
it always allows, and what the installation of the plan covers. -/
def Exempt (k : Killswitch) (f : UpFault) (t : LinuxTunnel) (m : LinuxMachine) (ip : IpAddr) :
    Prop :=
  (k.allowing []).admits ip = true ∨ t.bypass.Covers ip ∨
    ∃ r ∈ t.bypassPlan, Bypass.Adds f.install m.main r ∧ covers r.destination ip = true

theorem admits_allowing (k : Killswitch) (b : Bypass) (ip : IpAddr) :
    (k.allowing b.destinations).admits ip = true ↔ (k.allowing []).admits ip = true ∨ b.Covers ip := by
  simp only [Killswitch.admits, Killswitch.allowing, Bypass.destinations, Bypass.Covers,
    List.any_append, Bool.or_eq_true, List.any_map, List.any_eq_true, List.append_nil,
    Function.comp_apply, or_assoc]
  rfl

theorem admits_iff_exempt (k : Killswitch) (ip : IpAddr) :
    (k.allowing (planned f t m).1.destinations).admits ip = true ↔ Exempt k f t m ip := by
  rw [admits_allowing, planned, Bypass.install_covers]
  rfl

/-- Every planned destination that the main table routes around the tunnel is let out by the kill
switch that is engaged. -/
def Agrees (tunnel : String) (plan : List Route) (m : LinuxMachine) : Prop :=
  ∃ table, m.firewall = some table ∧ ∀ r ∈ plan, RoutedAround tunnel m.main r.destination →
    table.ruleset.LetsOut r.destination

/-- After a tunnel came up with a kill switch, the two agree on the plan exactly when each planned
destination that was routed around the tunnel before is exempt without being added. -/
theorem up_agrees_iff {k : Killswitch} (hk : t.killswitch = some k)
    (hup : up spec f (t, m) = (.ok (), t', m')) :
    Agrees t.interface t.bypassPlan m' ↔ ∀ r ∈ t.bypassPlan, RoutedAround t.interface m.main r.destination →
      ∀ ip, covers r.destination ip = true → Exempt k f t m ip := by
  obtain ⟨hspec, hengage, hgoes⟩ := up_ok_faults hup
  obtain ⟨_, _, _, hmain, hwall⟩ := up_done (m := m) hspec hengage hgoes
  rw [hup] at hmain hwall
  dsimp only at hmain hwall
  have hown : ownTable t (planned f t m).1 m =
      some ⟨k.allowing (planned f t m).1.destinations, 0⟩ := by rw [ownTable, hk]
  have hlets : ∀ d, (k.allowing (planned f t m).1.destinations).LetsOut d ↔
      ∀ ip, covers d ip = true → Exempt k f t m ip := fun d => by
    rw [Killswitch.letsOut_iff]
    exact forall_congr' fun ip => by rw [admits_iff_exempt]
  obtain ⟨hkeeps, hknown⟩ := Bypass.install_table t.bypass f.install t.bypassPlan m.main
  rw [Agrees, hwall, hown, hmain]
  constructor
  · rintro ⟨table, htable, hall⟩ r hr ⟨e, he, haround⟩
    cases htable
    exact (hlets _).mp (hall r hr ⟨e, hkeeps e he, haround⟩)
  · intro hall
    refine ⟨_, rfl, fun r hr haround => (hlets _).mpr fun ip hip => ?_⟩
    obtain ⟨e, he, hnetwork, haround⟩ := haround
    rcases hknown e he with he | ⟨r', hr', hsame⟩
    · exact hall r hr ⟨e, he, hnetwork, haround⟩ ip hip
    · -- The entry is recorded, so the destination of its own route covers the address.
      rw [← admits_iff_exempt, admits_allowing]
      exact .inr ⟨r', hr', by rw [covers_congr (hsame.trans hnetwork.symm)]; exact hip⟩

/-- A handle with a kill switch and one route planned, for a network that a text names. -/
def planning (destination : String) : LinuxTunnel where
  interface := defaultInterface
  created := false
  killswitch := some (.new defaultInterface defaultFwmark true)
  bypass := Bypass.new
  bypassPlan := [⟨destination, .gateway "192.0.2.1" "eth0"⟩]

/-- A machine whose main table has a route for 198.51.100.0/24. -/
def routed : LinuxMachine where
  device := none
  main := [⟨⟨.v4 0xc6336400, 24, by decide⟩, .gateway "192.0.2.1" "eth0"⟩]
  firewall := none

def anySpec : TunnelSpec := { client := Sample.client Sample.config, endpoint := ⟨.v4 1, 1637⟩ }

def anyFault : UpFault := { install := ⟨fun _ => true, fun _ => true⟩ }

theorem other_network_agrees : Agrees defaultInterface (planning "203.0.113.0/24").bypassPlan
    (up anySpec anyFault (planning "203.0.113.0/24", routed)).2.2 := by
  obtain ⟨_, hup⟩ := run_ok (x := up anySpec anyFault)
    (s := (planning "203.0.113.0/24", routed)) (by decide +kernel)
  refine (up_agrees_iff rfl hup).mpr fun r hr _ ip hip => ?_
  exact .inr (.inr ⟨r, hr, by cases List.mem_singleton.mp hr; decide, hip⟩)

/-- A network that is planned and routed already is left alone, and then dropped. -/
theorem routed_network_dropped :
    ¬∀ (spec : TunnelSpec) (f : UpFault) (k : Killswitch) (t t' : LinuxTunnel)
      (m m' : LinuxMachine), t.killswitch = some k → up spec f (t, m) = (.ok (), t', m') →
      Agrees t.interface t.bypassPlan m' := by
  intro hagrees
  obtain ⟨_, hup⟩ := run_ok (x := up anySpec anyFault)
    (s := (planning "198.51.100.0/24", routed)) (by decide +kernel)
  have hagree : Agrees defaultInterface (planning "198.51.100.0/24").bypassPlan
      (up anySpec anyFault (planning "198.51.100.0/24", routed)).2.2 :=
    hagrees _ _ _ _ _ _ _ rfl hup
  have hrun : (up anySpec anyFault (planning "198.51.100.0/24", routed)).2.2 = { routed with
      device := (up anySpec anyFault (planning "198.51.100.0/24", routed)).2.2.device
      firewall := some ⟨.new defaultInterface defaultFwmark true, 0⟩ } := by decide +kernel
  rw [hrun] at hagree
  obtain ⟨table, htable, hlets⟩ := hagree
  cases htable
  have haround : RoutedAround defaultInterface routed.main "198.51.100.0/24" :=
    ⟨_, List.mem_singleton_self _, by decide, by decide, by decide⟩
  have hadmits := Killswitch.letsOut_iff.mp (hlets _ (List.mem_singleton_self _) haround)
    (.v4 0xc6336401) (by decide)
  exact absurd hadmits (by decide)

end Linux

end Vpnmgr
