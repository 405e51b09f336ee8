import Vpnmgr.Tunnel.Platform

/-! The endpoint that the calls of the two backends leave programmed. -/

namespace Vpnmgr

open Stateful Stateful.Action

/-- What a backend leaves programmed, where the calls that move its tunnel fare as `Clean` says: they
move the endpoint, or leave it as it was. -/
structure Programs (P : Platform) (Clean : P.SwitchFault → Prop) : Prop where
  up : ∀ spec f s s', P.up spec f s = (.ok (), s') → P.programmed s'.2 = some spec.endpoint
  moved : ∀ spec f s s', Clean f → (P.programmed s.2).isSome = true →
    P.switchEndpoint spec f s = (.ok (), s') → P.programmed s'.2 = some spec.endpoint
  stuck : ∀ spec f s s' e, Clean f → P.switchEndpoint spec f s = (.error e, s') →
    P.programmed s'.2 = P.programmed s.2
  engage : ∀ allowLan f m, P.programmed (P.engage allowLan f m).2 = P.programmed m
  release : ∀ f m, P.programmed (P.release f m).2 = P.programmed m

namespace Linux

variable {spec : TunnelSpec} {s s' : LinuxTunnel × LinuxMachine}

theorem command_ok {σ : Type} [DecidableEq σ] {fault : Option (σ × String)} {name : σ}
    {operation : String} {effect : LinuxTunnel × LinuxMachine → LinuxTunnel × LinuxMachine}
    (h : command fault name operation effect s = (.ok (), s')) : s' = effect s := by
  unfold command at h
  split at h
  · split at h <;> cases h
    rfl
  · cases h
    rfl

theorem bringUp_programmed {fault : Option (BringUpStep × String)}
    (h : bringUp spec fault s = (.ok (), s')) : programmed s'.2 = some spec.endpoint := by
  obtain ⟨_, s₁, h₁, h⟩ := bind_ok h
  obtain ⟨_, s₂, h₂, h⟩ := bind_ok h
  obtain ⟨_, s₃, h₃, h⟩ := bind_ok h
  cases command_ok h₁
  cases command_ok h₂
  cases command_ok h₃
  split at h
  · cases command_ok h
    rfl
  · cases h
    rfl

theorem up_programmed {f : UpFault} (h : up spec f s = (.ok (), s')) :
    programmed s'.2 = some spec.endpoint := by
  obtain ⟨_, s₁, _, h⟩ := bind_ok h
  obtain ⟨_, s₂, _, h⟩ := bind_ok h
  obtain ⟨_, s₃, _, h⟩ := bind_ok h
  obtain ⟨result, s₄, hbring, h⟩ := bind_ok h
  cases result with
  | error e => cases h
  | ok =>
    cases h
    rcases hrun : bringUp spec f.bringUp s₃ with ⟨r, s₅⟩
    rw [attempt_run, hrun] at hbring
    cases hbring
    exact bringUp_programmed hrun

/-- A call that moves the tunnel succeeds, or fails before it has changed anything. -/
def Clean (fault : Option (RetargetStep × String)) : Prop :=
  fault = none ∨ ∃ e, fault = some (.removePeer, e)

theorem retarget_moved {fault : Option (RetargetStep × String)}
    (hs : (programmed s.2).isSome = true) (h : retarget spec fault s = (.ok (), s')) :
    programmed s'.2 = some spec.endpoint := by
  obtain ⟨_, s₁, h₁, h⟩ := bind_ok h
  obtain ⟨_, s₂, h₂, h⟩ := bind_ok h
  obtain ⟨_, s₃, h₃, h⟩ := bind_ok h
  cases command_ok h₁
  cases command_ok h₂
  cases command_ok h₃
  cases command_ok h
  obtain ⟨tunnel, device, main, firewall⟩ := s
  cases device with
  | none => cases hs
  | some device => rfl

theorem retarget_stuck {fault : Option (RetargetStep × String)} {e : TunnelError}
    (hclean : Clean fault) (h : retarget spec fault s = (.error e, s')) : s' = s := by
  rcases hclean with rfl | ⟨text, rfl⟩
  · cases h
  · cases h
    rfl

end Linux

namespace Windows

variable {spec : TunnelSpec} {s s' : Tunnel × Machine}

theorem run_ok {operation : String} {fault : Option CommandError} {effect : Machine → Machine}
    (h : run operation fault effect s = (.ok (), s')) : s' = (s.1, effect s.2) := by
  unfold run at h
  split at h <;> cases h
  rfl

theorem writeConfig_ok {f : ConfFault} (h : writeConfig spec f s = (.ok (), s')) :
    s'.2.adapter = s.2.adapter ∧ ∃ client, s'.2.conf = some (client, spec.endpoint) := by
  unfold writeConfig at h
  split at h <;> cases h
  exact ⟨rfl, _, rfl⟩

theorem engageOwn_adapter (f : EngageFault) (s : Tunnel × Machine) :
    (engageOwn f s).2.2.adapter = s.2.adapter := by
  cases hk : s.1.killswitch with
  | none => simp [engageOwn, hk]
  | some k =>
    rcases hengage : engage (k.allowing s.1.bypass.destinations) f s.2 with ⟨_ | _, m⟩
    all_goals
      have hm : s.2.adapter = m.adapter := congrArg (fun r => r.2.adapter) hengage
      simp [engageOwn, hk, hengage, hm]

theorem up_programmed {f : UpFault} (h : up spec f s = (.ok (), s')) :
    programmed s'.2 = some spec.endpoint := by
  obtain ⟨_, s₁, _, h⟩ := bind_ok h
  obtain ⟨_, s₂, _, h⟩ := bind_ok h
  obtain ⟨_, s₃, _, h⟩ := bind_ok h
  obtain ⟨_, s₄, hconf, h⟩ := bind_ok h
  obtain ⟨_, s₅, hinstall, h⟩ := bind_ok h
  obtain ⟨_, s₆, hengage, h⟩ := bind_ok h
  cases h
  obtain ⟨client, hclient⟩ := (writeConfig_ok hconf).2
  have hadapter := engageOwn_adapter f.engage s₅
  rw [hengage] at hadapter
  rw [run_ok hinstall, hclient] at hadapter
  show (s₆.2.adapter.bind List.head?).map Peer.endpoint = some spec.endpoint
  rw [hadapter]
  rfl

/-- A call that moves the tunnel fails to set the endpoint, or writes the configuration. -/
def Clean (f : SwitchFault) : Prop :=
  f.setEndpoint ≠ none ∨ (f.conf.createDir = none ∧ f.conf.write = none)

theorem switchEndpoint_moved {f : SwitchFault} (hs : (programmed s.2).isSome = true)
    (h : switchEndpoint spec f s = (.ok (), s')) : programmed s'.2 = some spec.endpoint := by
  obtain ⟨_, s₁, hvalid, h⟩ := bind_ok h
  obtain rfl : s = s₁ := congrArg Prod.snd hvalid
  obtain ⟨_, s₂, hset, hconf⟩ := bind_ok h
  have hadapter := (writeConfig_ok hconf).1
  rw [run_ok hset] at hadapter
  unfold programmed at hs ⊢
  rw [hadapter]
  cases hpeers : s.2.adapter with
  | none => rw [hpeers] at hs; cases hs
  | some peers => rfl

theorem switchEndpoint_stuck {f : SwitchFault} {e : TunnelError} (hclean : Clean f)
    (h : switchEndpoint spec f s = (.error e, s')) : s' = s := by
  rcases bind_error h with h | ⟨_, s₁, hvalid, h⟩
  · exact (congrArg Prod.snd h).symm
  · obtain rfl : s = s₁ := congrArg Prod.snd hvalid
    rcases bind_error h with h | ⟨_, s₂, hset, h⟩
    · unfold run at h
      split at h <;> cases h
      rfl
    · have hdone : f.setEndpoint = none := by
        cases hfault : f.setEndpoint with
        | none => rfl
        | some e => rw [hfault] at hset; cases hset
      obtain ⟨hdir, hwrite⟩ := hclean.resolve_left (not_not.mpr hdone)
      simp [writeConfig, hdir, hwrite] at h

end Windows

theorem programs_linux (log : Ieee.Logarithm) : Programs (.linux log) Linux.Clean where
  up _ _ _ _ h := Linux.up_programmed h
  moved _ _ _ _ _ hs h := Linux.retarget_moved hs h
  stuck _ _ _ _ _ hclean h := by rw [Linux.retarget_stuck hclean h]
  engage allowLan f m := by cases f <;> rfl
  release f m := by cases f <;> rfl

theorem programs_windows (log : Ieee.Logarithm) : Programs (.windows log) Windows.Clean where
  up _ _ _ _ h := Windows.up_programmed h
  moved _ _ _ _ _ hs h := Windows.switchEndpoint_moved hs h
  stuck _ _ _ _ _ hclean h := by rw [Windows.switchEndpoint_stuck hclean h]
  engage _ _ _ := rfl
  release _ _ := rfl

end Vpnmgr
