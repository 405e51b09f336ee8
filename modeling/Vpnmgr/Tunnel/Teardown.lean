import Vpnmgr.Tunnel.Exemptions
import Vpnmgr.Library.Noting

/-! Taking a tunnel down and dropping its handle, with notes of what is attempted on the way: the
withdrawal of each bypass route and the release of the kill switch. -/

namespace Vpnmgr

open Stateful Stateful.Action
open Stateful.Noting (quiet note Erases)

/-- A step of the cleanup that is attempted, whether it succeeds or not. -/
inductive Attempt where
  | withdraw (r : Route)
  | release
  deriving DecidableEq

variable {ε : Type}

namespace Bypass

/-- The main table once one route is withdrawn, if that succeeds. -/
def withdrawn (deleted : Route → Bool) (table : RouteTable) (r : Route) : RouteTable :=
  if deleted r then table.eraseP fun e => Cidr.parse r.destination = some e.network else table

/-- Withdraw recorded routes one by one. -/
def withdraw (deleted : Route → Bool) : List Route → Noting Attempt RouteTable ε Unit
  | [] => pure ()
  | r :: rs => do
    note (.withdraw r)
    quiet (update fun table => withdrawn deleted table r)
    withdraw deleted rs

theorem withdraw_run (deleted : Route → Bool) (routes : List Route) (p : RouteTable × List Attempt) :
    (withdraw deleted routes p : Except ε Unit × _) = (.ok (), routes.foldl (withdrawn deleted) p.1,
      (routes.map Attempt.withdraw).reverse ++ p.2) := by
  induction routes generalizing p with
  | nil => rfl
  | cons r rs ih =>
    show withdraw deleted rs (withdrawn deleted p.1 r, .withdraw r :: p.2) = _
    rw [ih]
    simp

end Bypass

/-- All that a teardown is to attempt for a handle with this bypass and, perhaps, a kill switch. -/
structure AttemptsAll (b : Bypass) (killswitch : Bool) (attempts : List Attempt) : Prop where
  withdraws : ∀ r ∈ b.installed, .withdraw r ∈ attempts
  releases : killswitch = true → .release ∈ attempts

namespace Linux

/-- The removal of the interface, as a call on the handle. -/
def removing (fault : Option String) : Backend Unit := fun s =>
  let (r, m) := removeInterface fault s
  (r, s.1, m)

/-- `Killswitch::release`, as a call on the handle. -/
def releasing (fault : Option String) : Backend Unit := fun s =>
  let (r, m) := release fault s.2
  (r, s.1, m)

namespace Traced

abbrev Operation := Noting Attempt (LinuxTunnel × LinuxMachine) TunnelError

def removeRoutes (deleted : Route → Bool) : Operation Unit := fun ((t, m), attempts) =>
  let (_, main, attempts) :=
    (Bypass.withdraw deleted t.bypass.installed (m.main, attempts) : Except TunnelError Unit × _)
  (.ok (), ({ t with bypass := Bypass.new }, { m with main }), attempts)

def release (fault : Option String) : Operation Unit := do
  note .release
  quiet (releasing fault)

def down (f : TeardownFault) : Operation Unit := do
  let result ← attempt (quiet (removing f.removeInterface))
  quiet (update fun s => ({ s.1 with created := false }, s.2))
  removeRoutes f.deleted
  if (← quiet (read fun s => s.1.killswitch.isSome)) then release f.release
  lift result

def drop (f : TeardownFault) : Operation Unit := do
  if (← quiet (read fun s => s.1.created)) then
    let _ ← (attempt (quiet (removing f.removeInterface)) : Operation (Except TunnelError Unit))
  if (← quiet (read fun s => s.1.killswitch.isSome)) then
    let _ ← (attempt (release f.release) : Operation (Except TunnelError Unit))
  removeRoutes f.deleted

theorem removeRoutes_run (deleted : Route → Bool) (s : LinuxTunnel × LinuxMachine)
    (attempts : List Attempt) : removeRoutes deleted (s, attempts) =
      (.ok (), Linux.removeRoutes deleted s,
        (s.1.bypass.installed.map Attempt.withdraw).reverse ++ attempts) := by
  simp only [removeRoutes, Bypass.withdraw_run]
  rfl

theorem down_run (f : TeardownFault) (t : LinuxTunnel) (m : LinuxMachine)
    (attempts : List Attempt) : down f ((t, m), attempts) =
      ((Linux.down f (t, m)).1, (Linux.down f (t, m)).2,
        (if t.killswitch.isSome then [.release] else []) ++
          ((t.bypass.installed.map Attempt.withdraw).reverse ++ attempts)) := by
  rw [down, attempt_bind, Noting.quiet_run]
  refine (bind_run_ok (Noting.quiet_run _ _)).trans ?_
  rw [bind_run_ok (removeRoutes_run _ _ _)]
  refine (bind_run_ok (Noting.quiet_run _ _)).trans ?_
  obtain ⟨interface, created, killswitch, bypass, plan⟩ := t
  obtain ⟨remove, deleted, released⟩ := f
  cases killswitch <;> cases remove <;> cases released <;> rfl

theorem drop_run (f : TeardownFault) (t : LinuxTunnel) (m : LinuxMachine)
    (attempts : List Attempt) : ∃ t', drop f ((t, m), attempts) =
      (.ok (), (t', Linux.drop f t m), (t.bypass.installed.map Attempt.withdraw).reverse ++
        ((if t.killswitch.isSome then [.release] else []) ++ attempts)) := by
  obtain ⟨interface, created, killswitch, bypass, plan⟩ := t
  obtain ⟨remove, deleted, released⟩ := f
  cases created <;> cases killswitch <;> cases remove <;> cases released <;>
    exact ⟨_, removeRoutes_run _ _ _⟩

end Traced

/-- What is attempted when a tunnel is taken down and its handle is dropped. -/
def teardownAttempts (f d : TeardownFault) (t : LinuxTunnel) (m : LinuxMachine) : List Attempt :=
  (Traced.drop d (Traced.down f ((t, m), [])).2).2.2

/-- Whatever fails, everything is attempted. -/
theorem attempts_all (f d : TeardownFault) (t : LinuxTunnel) (m : LinuxMachine) :
    AttemptsAll t.bypass t.killswitch.isSome (teardownAttempts f d t m) := by
  rw [teardownAttempts, Traced.down_run]
  obtain ⟨t', hdrop⟩ := Traced.drop_run d (down f (t, m)).2.1 (down f (t, m)).2.2
    ((if t.killswitch.isSome then [.release] else []) ++
      ((t.bypass.installed.map Attempt.withdraw).reverse ++ []))
  rw [hdrop]
  refine ⟨fun r hr => ?_, fun hkillswitch => ?_⟩
  · simp [hr]
  · simp [hkillswitch]

end Linux

namespace Windows

namespace Traced

abbrev Operation := Noting Attempt (Tunnel × Machine) TunnelError

def removeRoutes (deleted : Route → Bool) : Operation Unit := fun ((t, m), attempts) =>
  let (_, main, attempts) :=
    (Bypass.withdraw deleted t.bypass.installed (m.main, attempts) : Except TunnelError Unit × _)
  (.ok (), ({ t with bypass := Bypass.new }, { m with main }), attempts)

def releaseOwn (f : ReleaseFault) : Operation Unit := do
  if (← quiet (read fun s => s.1.killswitch.isSome)) then
    note .release
    quiet (Windows.releaseOwn f)

def down (f : DownFault) : Operation Unit := do
  quiet (removeService f.removeService)
  releaseOwn f.release
  removeRoutes f.deleted
  quiet (update fun s => ({ s.1 with installed := false },
    { s.2 with conf := if f.removeConf then none else s.2.conf }))

def drop (f : DropFault) : Operation Unit := do
  if (← quiet (read fun s => s.1.installed)) then
    let _ ← (attempt (down f.down) : Operation (Except TunnelError Unit))
  removeRoutes f.deleted

theorem removeRoutes_run (deleted : Route → Bool) (s : Tunnel × Machine)
    (attempts : List Attempt) : removeRoutes deleted (s, attempts) =
      (.ok (), Windows.removeRoutes deleted s,
        (s.1.bypass.installed.map Attempt.withdraw).reverse ++ attempts) := by
  simp only [removeRoutes, Bypass.withdraw_run]
  rfl

theorem releaseOwn_run (f : ReleaseFault) (s : Tunnel × Machine) (attempts : List Attempt) :
    releaseOwn f (s, attempts) = ((Windows.releaseOwn f s).1, (Windows.releaseOwn f s).2,
      (if s.1.killswitch.isSome then [.release] else []) ++ attempts) := by
  obtain ⟨⟨interface, installed, plan, bypass, killswitch⟩, m⟩ := s
  cases killswitch with
  | none => rfl
  | some k => exact Noting.quiet_run _ _

theorem releaseOwn_tunnel (f : ReleaseFault) (s : Tunnel × Machine) :
    (Windows.releaseOwn f s).2.1 = s.1 := by
  unfold Windows.releaseOwn
  split <;> rfl

/-- A service that cannot be removed ends it there. -/
theorem down_unremoved {f : DownFault} {e : CommandError} (h : f.removeService = some e)
    (s : Tunnel × Machine) (attempts : List Attempt) :
    ∃ e', down f (s, attempts) = (.error e', s, attempts) ∧ Windows.down f s = (.error e', s) := by
  have hremove : ∃ e', Windows.removeService f.removeService s = (.error e', s) := by
    rw [h]
    exact ⟨_, rfl⟩
  obtain ⟨e', hremove⟩ := hremove
  exact ⟨e', Noting.quiet_bind_error hremove, bind_run_error hremove⟩

/-- Once the service is removed, the release is attempted, and the routes stay for later only where
that fails. -/
theorem down_removed {f : DownFault} (h : f.removeService = none) (s : Tunnel × Machine)
    (attempts : List Attempt) : ∃ more, down f (s, attempts) =
      ((Windows.down f s).1, (Windows.down f s).2, more ++ attempts) ∧
      (Windows.down f s).2.1.killswitch = s.1.killswitch ∧
      (.release ∈ more ↔ s.1.killswitch.isSome = true) ∧
      ∀ r ∈ s.1.bypass.installed,
        r ∈ (Windows.down f s).2.1.bypass.installed ∨ .withdraw r ∈ more := by
  obtain ⟨removeService, release, deleted, removeConf⟩ := f
  cases h
  obtain ⟨t, m⟩ := s
  have hremoved : Windows.removeService none (t, m) = (.ok (), t, { m with adapter := none }) := rfl
  have hown := releaseOwn_run release (t, { m with adapter := none }) attempts
  have htunnel := releaseOwn_tunnel release (t, { m with adapter := none })
  rcases hrelease : Windows.releaseOwn release (t, { m with adapter := none }) with ⟨e | _, u, m'⟩
  all_goals
    rw [hrelease] at hown htunnel
    cases htunnel
  · have hdown : Windows.down ⟨none, release, deleted, removeConf⟩ (t, m) = (.error e, t, m') :=
      (bind_run_ok hremoved).trans (bind_run_error hrelease)
    refine ⟨if t.killswitch.isSome then [.release] else [], ?_, by rw [hdown], by simp, fun r hr => ?_⟩
    · rw [hdown]
      exact (Noting.quiet_bind_ok hremoved).trans (bind_run_error hown)
    · rw [hdown]
      exact .inl hr
  · have hdown : Windows.down ⟨none, release, deleted, removeConf⟩ (t, m) = (.ok (),
        { (Windows.removeRoutes deleted (t, m')).1 with installed := false },
        { (Windows.removeRoutes deleted (t, m')).2 with
          conf := if removeConf then none else m'.conf }) :=
      (bind_run_ok hremoved).trans (bind_run_ok hrelease)
    refine ⟨(t.bypass.installed.map Attempt.withdraw).reverse ++
      if t.killswitch.isSome then [.release] else [], ?_, ?_, by simp, fun r hr => ?_⟩
    · rw [hdown, List.append_assoc]
      refine (Noting.quiet_bind_ok hremoved).trans ((bind_run_ok hown).trans ?_)
      exact (bind_run_ok (removeRoutes_run _ _ _)).trans (Noting.quiet_run _ _)
    · rw [hdown]
      rfl
    · exact .inr (by simp [hr])

theorem down_run (f : DownFault) (s : Tunnel × Machine) (attempts : List Attempt) :
    ∃ more, down f (s, attempts) = ((Windows.down f s).1, (Windows.down f s).2, more ++ attempts) ∧
      (Windows.down f s).2.1.killswitch = s.1.killswitch ∧
      (.release ∈ more ↔ s.1.killswitch.isSome = true ∧ f.removeService = none) ∧
      ∀ r ∈ s.1.bypass.installed,
        r ∈ (Windows.down f s).2.1.bypass.installed ∨ .withdraw r ∈ more := by
  cases h : f.removeService with
  | none =>
    obtain ⟨more, hrun, hkeeps, hrelease, hroutes⟩ := down_removed h s attempts
    exact ⟨more, hrun, hkeeps, by simp [hrelease], hroutes⟩
  | some e =>
    obtain ⟨e', htraced, hdown⟩ := down_unremoved h s attempts
    rw [hdown]
    exact ⟨[], htraced, rfl, by simp, fun r hr => .inl hr⟩

/-- Dropping a handle withdraws what it still records, and releases the kill switch only on the way
through `down`. -/
theorem drop_run (f : DropFault) (t : Tunnel) (m : Machine) (attempts : List Attempt) :
    ∃ more t', drop f ((t, m), attempts) = (.ok (), (t', Windows.drop f t m), more ++ attempts) ∧
      (.release ∈ more ↔
        t.killswitch.isSome = true ∧ t.installed = true ∧ f.down.removeService = none) ∧
      ∀ r ∈ t.bypass.installed, .withdraw r ∈ more := by
  have hread : quiet (read fun s : Tunnel × Machine => s.1.installed) ((t, m), attempts) =
      ((.ok t.installed : Except TunnelError Bool), (t, m), attempts) := Noting.quiet_run _ _
  rw [drop, bind_run_ok hread]
  cases hinstalled : t.installed with
  | false =>
    have hdrop : Windows.drop f t m = (Windows.removeRoutes f.deleted (t, m)).2 := by
      simp [Windows.drop, hinstalled]
    rw [hdrop]
    refine ⟨(t.bypass.installed.map Attempt.withdraw).reverse,
      (Windows.removeRoutes f.deleted (t, m)).1, ?_, by simp, fun r hr => by simp [hr]⟩
    exact removeRoutes_run f.deleted (t, m) attempts
  | true =>
    obtain ⟨more, hdown, -, hrelease, hroutes⟩ := down_run f.down (t, m) attempts
    have hdrop : Windows.drop f t m =
        (Windows.removeRoutes f.deleted (Windows.down f.down (t, m)).2).2 := by
      simp [Windows.drop, hinstalled]
    rw [hdrop]
    generalize Windows.down f.down (t, m) = ended at hdown hroutes ⊢
    have hrun : (attempt (down f.down) : Operation (Except TunnelError Unit)) ((t, m), attempts) =
        (.ok ended.1, ended.2, more ++ attempts) := by
      rw [attempt_run, hdown]
    refine ⟨(ended.2.1.bypass.installed.map Attempt.withdraw).reverse ++ more,
      (Windows.removeRoutes f.deleted ended.2).1, ?_, ?_, fun r hr => ?_⟩
    · rw [List.append_assoc]
      exact (bind_run_ok hrun).trans (removeRoutes_run _ _ _)
    · simp [hrelease]
    · rcases hroutes r hr with h | h
      · simp [h]
      · exact List.mem_append_right _ h

end Traced

/-- What is attempted when a tunnel is taken down and its handle is dropped. -/
def teardownAttempts (f : DownFault) (d : DropFault) (t : Tunnel) (m : Machine) : List Attempt :=
  (Traced.drop d (Traced.down f ((t, m), [])).2).2.2

/-- One of the two attempts to remove the service succeeds. -/
def RemovesService (f : DownFault) (d : DropFault) (t : Tunnel) : Prop :=
  f.removeService = none ∨ (t.installed = true ∧ d.down.removeService = none)

/-- Everything is attempted exactly when there is no kill switch to release, or one of the attempts to
remove the service succeeds. -/
theorem attempts_all_iff (f : DownFault) (d : DropFault) (t : Tunnel) (m : Machine) :
    AttemptsAll t.bypass t.killswitch.isSome (teardownAttempts f d t m) ↔
      t.killswitch = none ∨ RemovesService f d t := by
  obtain ⟨more, hdown, hkeeps, hrelease, hroutes⟩ := Traced.down_run f (t, m) []
  obtain ⟨later, t', hdrop, hlater, hrest⟩ :=
    Traced.drop_run d (down f (t, m)).2.1 (down f (t, m)).2.2 (more ++ [])
  have hattempts : teardownAttempts f d t m = later ++ more := by
    rw [teardownAttempts, hdown]
    refine (congrArg (·.2.2) hdrop).trans ?_
    simp
  have hwithdraws : ∀ r ∈ t.bypass.installed, .withdraw r ∈ later ++ more := by
    intro r hr
    rcases hroutes r hr with h | h
    · exact List.mem_append_left _ (hrest r h)
    · exact List.mem_append_right _ h
  have hreleases : .release ∈ later ++ more ↔
      t.killswitch.isSome = true ∧ RemovesService f d t := by
    rw [List.mem_append, hrelease, hlater, hkeeps, RemovesService]
    cases hremove : f.removeService with
    | none =>
      simp only [and_true, true_or]
      exact or_iff_right_of_imp And.left
    | some e =>
      obtain ⟨e', _, hstays⟩ := Traced.down_unremoved hremove (t, m) []
      simp [hstays]
  rw [hattempts]
  constructor
  · intro h
    cases hk : t.killswitch with
    | none => exact .inl rfl
    | some k => exact .inr (hreleases.mp (h.releases (by rw [hk]; rfl))).2
  · rintro (hk | hremoves)
    · exact ⟨hwithdraws, fun h => by rw [hk] at h; cases h⟩
    · exact ⟨hwithdraws, fun h => hreleases.mpr ⟨h, hremoves⟩⟩

end Windows

/-- On Linux a teardown attempts everything, whatever fails. On Windows it does exactly when there is
no kill switch to release, or one of its attempts to remove the service succeeds. -/
theorem teardown_attempts (f : Linux.TeardownFault) (d : Linux.TeardownFault) (t : LinuxTunnel)
    (m : LinuxMachine) (fw : Windows.DownFault) (dw : Windows.DropFault) (tw : Windows.Tunnel)
    (mw : Windows.Machine) :
    AttemptsAll t.bypass t.killswitch.isSome (Linux.teardownAttempts f d t m) ∧
    (AttemptsAll tw.bypass tw.killswitch.isSome (Windows.teardownAttempts fw dw tw mw) ↔
      tw.killswitch = none ∨ Windows.RemovesService fw dw tw) :=
  ⟨Linux.attempts_all f d t m, Windows.attempts_all_iff fw dw tw mw⟩

/-- A handle with a kill switch, and a machine for it with nothing set up. -/
def Windows.fresh : Windows.Tunnel × Windows.Machine where
  fst := {
    interface := defaultInterface
    installed := false
    bypassPlan := []
    bypass := Bypass.new
    killswitch := some (.new defaultInterface defaultFwmark true) }
  snd := {
    wireguardExe := true
    adapter := none
    conf := none
    main := []
    firewall := { rules := [], outbound := fun _ => .allow, restore := none } }

/-- A service that cannot be removed leaves the kill switch of a tunnel that came up engaged. -/
theorem unremoved_service_keeps_killswitch :
    ¬∀ (spec : TunnelSpec) (u : Windows.UpFault) (f : Windows.DownFault) (d : Windows.DropFault)
      (t t' : Windows.Tunnel) (m m' : Windows.Machine), Windows.up spec u (t, m) = (.ok (), t', m') →
      AttemptsAll t'.bypass t'.killswitch.isSome (Windows.teardownAttempts f d t' m') := by
  intro hall
  let up := Windows.up Linux.anySpec { install := ⟨fun _ => true, fun _ => true⟩ } Windows.fresh
  let f : Windows.DownFault := { removeService := some ⟨"wireguard.exe", some 1, "timed out"⟩ }
  have hup : up = (.ok (), up.2.1, up.2.2) := by
    obtain ⟨_, hok⟩ := run_ok (x := Windows.up Linux.anySpec { install := ⟨fun _ => true, fun _ => true⟩ })
      (s := Windows.fresh) (by decide +kernel)
    exact hok
  have hkillswitch : up.2.1.killswitch.isSome = true := by decide +kernel
  have hrelease : .release ∈ Windows.teardownAttempts f { down := f } up.2.1 up.2.2 :=
    (hall _ _ _ _ _ _ _ _ hup).releases hkillswitch
  exact absurd hrelease (by decide +kernel)

end Vpnmgr
