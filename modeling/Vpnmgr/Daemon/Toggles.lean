import Vpnmgr.Daemon.FailSafe
import Vpnmgr.Tunnel.Exemptions

/-! Turning the kill switch on and off while connected, and what becomes of the destinations that are
kept out of the tunnel. -/

namespace Vpnmgr

open Ieee Stateful Stateful.Action

variable {P : Platform}

/-- While the kill switch is engaged and the tunnel is up, every destination that is kept out of the
tunnel is let out. -/
def World.LetsBypassOut (w : World P) : Prop :=
  ∀ tunnel, w.state.tunnel = some tunnel → P.isEngaged w.machine = true →
    ∀ d ∈ P.destinations tunnel, P.LetsOut w.machine d

/-- Turning the kill switch on is a call on the machine with no word of the tunnel. -/
theorem killswitch_on (w : World P) :
    (step w (.killswitch (some true))).state.tunnel = w.state.tunnel ∧
    (step w (.killswitch (some true))).machine =
      (P.engage w.state.config.killswitch.allowLan (w.outside.faults.engages 0) w.machine).2 := by
  rcases h : P.engage w.state.config.killswitch.allowLan (w.outside.faults.engages 0) w.machine
    with ⟨_ | _, m⟩ <;>
    simp [step, after, killswitch, turnKillswitch, self, nextEngage, draw, bind_run, onMachine, h,
      modify, State.setKillswitch, Except.mapError]

theorem killswitch_off (w : World P) :
    (step w (.killswitch (some false))).state.tunnel = w.state.tunnel ∧
    (step w (.killswitch (some false))).machine =
      (P.release (w.outside.faults.releases 0) w.machine).2 := by
  rcases h : P.release (w.outside.faults.releases 0) w.machine with ⟨_ | _, m⟩ <;>
    simp [step, after, killswitch, turnKillswitch, self, nextRelease, draw, bind_run, onMachine, h,
      modify, State.setKillswitch, Except.mapError]

/-- A change of the machine that leaves something engaged only where it was, and lets out all that
was let out. -/
theorem World.LetsBypassOut.of_machine {w w' : World P} (h : w.LetsBypassOut)
    (htunnel : w'.state.tunnel = w.state.tunnel)
    (hmachine : P.isEngaged w'.machine = true → P.isEngaged w.machine = true ∧
      ∀ d, P.LetsOut w.machine d → P.LetsOut w'.machine d) : w'.LetsBypassOut := by
  intro tunnel ht hengaged d hd
  obtain ⟨hon, hkeeps⟩ := hmachine hengaged
  exact hkeeps d (h tunnel (htunnel ▸ ht) hon d hd)

/-! ### Linux -/

section Linux

variable {log : Logarithm}

/-- Turning the kill switch on is harmless: it fails, or the ranges that are always allowed hold
every destination kept out of the tunnel. -/
def World.HarmlessOn (w : World (.linux log)) : Prop :=
  w.outside.faults.engages 0 ≠ none ∨ ∀ tunnel, w.state.tunnel = some tunnel →
    ∀ d ∈ (Platform.linux log).destinations tunnel, ∀ ip, covers d ip = true →
      (Killswitch.new defaultInterface defaultFwmark
        w.state.config.killswitch.allowLan).admits ip = true

theorem on_letsBypassOut_iff {w : World (.linux log)} (h : w.LetsBypassOut) :
    (step w (.killswitch (some true))).LetsBypassOut ↔ w.HarmlessOn := by
  obtain ⟨htunnel, hmachine⟩ := killswitch_on w
  cases hfault : w.outside.faults.engages 0 with
  | some e =>
    rw [hfault] at hmachine
    refine iff_of_true (h.of_machine htunnel fun hengaged => ?_)
      (.inl (by rw [hfault]; exact Option.some_ne_none e))
    rw [hmachine] at hengaged ⊢
    exact ⟨hengaged, fun _ hd => hd⟩
  | none =>
    rw [hfault] at hmachine
    have hlets : ∀ d, (Platform.linux log).LetsOut (step w (.killswitch (some true))).machine d ↔
        ∀ ip, covers d ip = true → (Killswitch.new defaultInterface defaultFwmark
          w.state.config.killswitch.allowLan).admits ip = true := fun d => by
      rw [hmachine, ← Killswitch.letsOut_iff]
      exact ⟨fun hall => hall _ rfl, fun hall table ht => by cases ht; exact hall⟩
    have hengaged : (Platform.linux log).isEngaged (step w (.killswitch (some true))).machine =
        true := by rw [hmachine]; rfl
    unfold World.LetsBypassOut World.HarmlessOn
    rw [or_iff_right (not_not.mpr hfault), htunnel]
    exact forall₂_congr fun tunnel _ =>
      ⟨fun hall d hd => (hlets d).mp (hall hengaged d hd),
        fun hall _ d hd => (hlets d).mpr (hall d hd)⟩

/-- Turning the kill switch off leaves nothing engaged, or everything as it was. -/
theorem off_letsBypassOut {w : World (.linux log)} (h : w.LetsBypassOut) :
    (step w (.killswitch (some false))).LetsBypassOut := by
  obtain ⟨htunnel, hmachine⟩ := killswitch_off w
  refine h.of_machine htunnel fun hengaged => ?_
  cases hfault : w.outside.faults.releases 0 with
  | some e =>
    rw [hmachine, hfault] at hengaged ⊢
    exact ⟨hengaged, fun _ hd => hd⟩
  | none =>
    rw [hmachine, hfault] at hengaged
    cases hengaged

/-- A tunnel that came up with its own kill switch lets its destinations out. -/
theorem Linux.up_letsOut {spec : TunnelSpec} {f : UpFault} {t t' : LinuxTunnel}
    {m m' : LinuxMachine} (hk : t.killswitch.isSome = true)
    (hup : up spec f (t, m) = (.ok (), t', m')) :
    ∀ d ∈ (Platform.linux log).destinations t', (Platform.linux log).LetsOut m' d := by
  obtain ⟨k, hk⟩ := Option.isSome_iff_exists.mp hk
  obtain ⟨hspec, hengage, hgoes⟩ := up_ok_faults hup
  obtain ⟨_, _, hbypass, _, hwall⟩ := up_done (m := m) hspec hengage hgoes
  rw [hup] at hbypass hwall
  dsimp only at hbypass hwall
  intro d hd table htable
  rw [hwall, ownTable, hk, Option.some.injEq] at htable
  rw [← htable, Killswitch.letsOut_iff, ← hbypass]
  intro ip hip
  obtain ⟨r, hr, hd⟩ := List.mem_map.mp hd
  exact (admits_allowing k t'.bypass ip).mpr (.inr ⟨r, hr, by rw [hd]; exact hip⟩)

end Linux

/-! ### Windows -/

section Windows

variable {log : Logarithm}

/-- Turning the kill switch on is harmless: the script runs to its end and the ranges that are always
allowed hold every destination kept out of the tunnel, or it stops and its rollback clears the
rules, or the rollback does not run and the script had not come to adding any. -/
def World.HarmlessOnWindows (w : World (.windows log)) : Prop :=
  match (w.outside.faults.engages 0 : Windows.EngageFault).stopsAt with
  | none => ∀ tunnel, w.state.tunnel = some tunnel →
      ∀ d ∈ (Platform.windows log).destinations tunnel, ∀ ip, covers d ip = true →
        (Windows.Killswitch.new defaultInterface defaultFwmark
          w.state.config.killswitch.allowLan).admits ip = true
  | some (n, _) =>
    let rollback := (w.outside.faults.engages 0 : Windows.EngageFault).rollback
    (rollback.launch = none ∧ rollback.fails .clearRules = none) ∨
      (rollback.launch ≠ none ∧ n ≤ 3)

/-- Turning the kill switch off is harmless: PowerShell does not run, or the rules are cleared, or no
default that did not block before is restored to one that does. -/
def World.HarmlessOffWindows (w : World (.windows log)) : Prop :=
  let fault : Windows.ReleaseFault := w.outside.faults.releases 0
  let fw := (w.machine : Windows.Machine).firewall
  fault.launch ≠ none ∨ fault.fails .clearRules = none ∨
    ∀ saved, fw.restore = some saved → ∀ p, saved p = .block → fw.outbound p = .block

/-- What leaves the firewall as it was lets the same out. -/
theorem World.LetsBypassOut.of_firewall {w w' : World (.windows log)} (h : w.LetsBypassOut)
    (htunnel : w'.state.tunnel = w.state.tunnel)
    (hkept : (w'.machine : Windows.Machine).firewall = (w.machine : Windows.Machine).firewall) :
    w'.LetsBypassOut :=
  h.of_machine htunnel fun hengaged =>
    ⟨(congrArg Windows.Firewall.isEngaged hkept).symm.trans hengaged,
      fun d hd => (iff_of_eq (congrArg (·.LetsOut d) hkept)).mpr hd⟩

theorem on_letsBypassOut_windows {w : World (.windows log)} (h : w.LetsBypassOut)
    (hharmless : w.HarmlessOnWindows) : (step w (.killswitch (some true))).LetsBypassOut := by
  obtain ⟨htunnel, hmachine⟩ := killswitch_on w
  have hwall : (step w (.killswitch (some true))).machine.firewall =
      ((Windows.Killswitch.new defaultInterface defaultFwmark
        w.state.config.killswitch.allowLan).engage (w.outside.faults.engages 0)
        (w.machine : Windows.Machine).adapter.isSome (w.machine : Windows.Machine).firewall).2 := by
    rw [hmachine]; rfl
  unfold World.HarmlessOnWindows at hharmless
  split at hharmless
  · next hstop =>
    intro tunnel ht _ d hd
    refine Windows.Killswitch.letsOut (fun r hr => ?_) (hharmless tunnel (htunnel ▸ ht) d hd)
    rw [hwall, Windows.Killswitch.engage_done _ hstop]
    exact List.mem_append_right _ hr
  · next n e hstop =>
    have hearly : (step w (.killswitch (some true))).machine.firewall =
          (w.machine : Windows.Machine).firewall ∨
        (step w (.killswitch (some true))).machine.firewall.isEngaged = false := by
      rw [hwall]
      rcases hharmless with ⟨hlaunch, hclear⟩ | ⟨hlaunch, hn⟩
      · refine .inr ?_
        simp only [Windows.Killswitch.engage, hstop]
        exact Windows.release_clears hlaunch hclear _
      · exact Windows.Killswitch.engage_early hstop hlaunch hn _ _
    rcases hearly with hkept | hoff
    · exact h.of_firewall htunnel hkept
    · exact h.of_machine htunnel fun hengaged =>
        absurd (hoff.symm.trans hengaged) Bool.false_ne_true

theorem off_letsBypassOut_windows {w : World (.windows log)} (h : w.LetsBypassOut)
    (hharmless : w.HarmlessOffWindows) : (step w (.killswitch (some false))).LetsBypassOut := by
  obtain ⟨htunnel, hmachine⟩ := killswitch_off w
  have hwall : (step w (.killswitch (some false))).machine.firewall =
      (Windows.release (w.outside.faults.releases 0) (w.machine : Windows.Machine).firewall).2 := by
    rw [hmachine]; rfl
  by_cases hlaunch : (w.outside.faults.releases 0 : Windows.ReleaseFault).launch = none
  · refine h.of_machine htunnel fun hengaged => ?_
    by_cases hclear : (w.outside.faults.releases 0 : Windows.ReleaseFault).fails .clearRules = none
    · have hoff := Windows.release_clears hlaunch hclear (w.machine : Windows.Machine).firewall
      rw [← hwall] at hoff
      exact absurd (hoff.symm.trans hengaged) Bool.false_ne_true
    · have hsaved := (hharmless.resolve_left (not_not.mpr hlaunch)).resolve_left hclear
      obtain ⟨hrules, hblock⟩ := Windows.release_uncleared hlaunch hclear hsaved
      rw [← hwall] at hrules hblock
      have hbefore : (Platform.windows log).isEngaged w.machine = true := by
        refine Eq.trans ?_ hengaged
        show decide (_ ≠ _) = decide (_ ≠ _)
        rw [hrules]
      exact ⟨hbefore, fun d hd => Windows.Firewall.LetsOut.mono hd hrules hblock⟩
  · exact h.of_firewall htunnel (hwall.trans (Windows.release_unlaunched hlaunch _))

end Windows

/-! ### Any sequence of requests -/

/-- Harmless requests to turn the kill switch on or off. -/
def World.TogglesLinux {log : Logarithm} (w : World (.linux log)) (op : Op) : Prop :=
  (op = .killswitch (some true) ∧ w.HarmlessOn) ∨ op = .killswitch (some false)

def World.TogglesWindows {log : Logarithm} (w : World (.windows log)) (op : Op) : Prop :=
  (op = .killswitch (some true) ∧ w.HarmlessOnWindows) ∨
    (op = .killswitch (some false) ∧ w.HarmlessOffWindows)

/-- Settings that keep one network out of the tunnel. -/
def Sample.bypassConfig (cidr : String) : Config :=
  { Sample.config with bypass := { cidrs := [cidr], lan := false } }

/-- A daemon with such settings that has connected, on a machine with a default route. -/
def Sample.bypassing (cidr : String) (machine : P.Machine) (faults : Faults P) : World P :=
  step (Sample.world (Sample.bypassConfig cidr) machine
    { Sample.outside (Sample.bypassConfig cidr) Sample.pairList Sample.pairReply faults with
      surroundings := fun _ =>
        { defaultGateways := [⟨"192.0.2.1", "eth0", false⟩], otherVpnRoutes := fun _ => [],
          resolve := fun _ => [] } })
    (.connect (some "Achernar") none)

theorem Sample.bypassing_reachable {cidr : String}
    (hcidr : (Sample.bypassConfig cidr).validate = .ok ()) (machine : P.Machine)
    (faults : Faults P) : Reachable (Sample.bypassing cidr machine faults) := by
  unfold Sample.bypassing
  exact ⟨_, Sample.world_starts hcidr rfl _ _, .next .here trivial⟩

def Sample.bypassingLinux (cidr : String) : World (.linux Sample.log) :=
  Sample.bypassing cidr Sample.linuxMachine Sample.linuxFaults

def Sample.bypassingWindows (cidr : String) : World (.windows Sample.log) :=
  Sample.bypassing cidr Sample.windowsMachine Sample.windowsFaults

end Vpnmgr
