import Vpnmgr.Tunnel.Firewall

/-! The user's own firewall policy through any engaging and releasing of the Windows kill switch: the
defaults that the firewall would go back to, and what a release that finds no record makes of them. -/

namespace Vpnmgr

open Stateful Stateful.Action

namespace Windows

/-- The defaults that the firewall would go back to: the recorded ones, or those in force. -/
def Firewall.policy (fw : Firewall) : Profile → DefaultAction := fw.restore.getD fw.outbound

/-- A call that changes the firewall. -/
inductive FirewallCall where
  | engage (k : Killswitch) (f : EngageFault) (adapterExists : Bool)
  | release (f : ReleaseFault)

def FirewallCall.run (fw : Firewall) : FirewallCall → Firewall
  | engage k f adapterExists => (k.engage f adapterExists fw).2
  | release f => (Windows.release f fw).2

/-- A release that finds no record takes Allow to be the user's policy. -/
def ReleaseFault.guesses (f : ReleaseFault) (fw : Firewall) : Bool :=
  f.launch.isNone && fw.restore.isNone && (f.fails .allowAll).isNone

/-- Whether a call releases without a record, an engagement in its rollback. -/
def FirewallCall.guesses (fw : Firewall) : FirewallCall → Bool
  | engage k f adapterExists =>
    match f.stopsAt with
    | none => false
    | some (n, _) => f.rollback.guesses ((k.script.take n).foldl (Statement.run adapterExists) fw)
  | release f => f.guesses fw

/-- Whether one of the calls releases without a record. -/
def guessed (fw : Firewall) : List FirewallCall → Bool
  | [] => false
  | c :: calls => c.guesses fw || guessed (c.run fw) calls

/-- The record is deleted only after every profile was set back. -/
def ReleaseFault.Thorough (f : ReleaseFault) : Prop :=
  f.fails .deleteRecord = none → ∀ p, f.fails (.restoreProfile p) = none

def FirewallCall.Thorough : FirewallCall → Prop
  | engage _ f _ => f.rollback.Thorough
  | release f => f.Thorough

/-! ### What one call makes of the policy -/

theorem ReleaseFault.restored_all {f : ReleaseFault} (h : ∀ p, f.fails (.restoreProfile p) = none)
    (saved outbound : Profile → DefaultAction) : f.restored saved outbound = saved := by
  funext p
  rw [restored, h p]
  rfl

theorem release_policy {f : ReleaseFault} (hf : f.Thorough) (fw : Firewall) :
    (release f fw).2.policy = if f.guesses fw then fun _ => .allow else fw.policy := by
  obtain ⟨rules, outbound, restore⟩ := fw
  unfold release ReleaseFault.guesses Firewall.policy
  cases f.launch with
  | some e => rfl
  | none =>
    cases restore with
    | none => cases f.fails .allowAll <;> rfl
    | some saved =>
      cases hdelete : f.fails .deleteRecord with
      | none => exact f.restored_all (hf hdelete) saved outbound
      | some e => rfl

/-- No statement but the one that blocks changes the policy, and that one does not once it is
recorded. -/
theorem run_policy {adapterExists : Bool} {s : Statement} {fw : Firewall}
    (h : s = .blockByDefault → fw.restore.isSome = true) :
    (s.run adapterExists fw).policy = fw.policy := by
  obtain ⟨rules, outbound, restore⟩ := fw
  cases s with
  | blockByDefault =>
    obtain ⟨saved, hsaved⟩ := Option.isSome_iff_exists.mp (h rfl)
    cases hsaved
    rfl
  | allowAdapter rule name => cases adapterExists <;> rfl
  | _ => rfl

theorem run_recorded {adapterExists : Bool} {fw : Firewall} (h : fw.restore.isSome = true)
    (s : Statement) : (s.run adapterExists fw).restore.isSome = true := by
  cases s with
  | allowAdapter rule name => cases adapterExists <;> exact h
  | recordDefaults => rfl
  | _ => exact h

theorem recorded_policy {adapterExists : Bool} (statements : List Statement) {fw : Firewall}
    (h : fw.restore.isSome = true) :
    (statements.foldl (Statement.run adapterExists) fw).policy = fw.policy := by
  induction statements generalizing fw with
  | nil => rfl
  | cons s statements ih =>
    rw [List.foldl_cons, ih (run_recorded h s), run_policy fun _ => h]

/-- However far the engaging script gets, the policy is recorded before anything is blocked. -/
theorem script_policy (k : Killswitch) (adapterExists : Bool) (n : Nat) (fw : Firewall) :
    ((k.script.take n).foldl (Statement.run adapterExists) fw).policy = fw.policy := by
  rcases n with _ | _ | _ | n
  · rfl
  · rfl
  · rfl
  · simp only [Killswitch.script, List.cons_append, List.nil_append, List.take_succ_cons,
      List.foldl_cons]
    exact recorded_policy _ rfl

theorem FirewallCall.run_policy {c : FirewallCall} (hc : c.Thorough) (fw : Firewall) :
    (c.run fw).policy = if c.guesses fw then fun _ => .allow else fw.policy := by
  cases c with
  | release f => exact release_policy hc fw
  | engage k f adapterExists =>
    obtain ⟨stopsAt, rollback⟩ := f
    rcases stopsAt with _ | ⟨n, e⟩
    · have hall := script_policy k adapterExists k.script.length fw
      rw [List.take_length] at hall
      exact hall
    · rw [← script_policy k adapterExists n fw]
      exact release_policy hc _

/-! ### Any order of calls -/

theorem calls_policy {calls : List FirewallCall} (hcalls : ∀ c ∈ calls, c.Thorough)
    (fw : Firewall) : (calls.foldl FirewallCall.run fw).policy =
      if guessed fw calls then fun _ => .allow else fw.policy := by
  induction calls generalizing fw with
  | nil => rfl
  | cons c calls ih =>
    obtain ⟨hc, hcalls⟩ := List.forall_mem_cons.mp hcalls
    rw [List.foldl_cons, ih hcalls, FirewallCall.run_policy hc, guessed]
    cases c.guesses fw <;> cases guessed (c.run fw) calls <;> rfl

theorem guessed_append (fw : Firewall) (calls : List FirewallCall) (c : FirewallCall) :
    guessed fw (calls ++ [c]) =
      (guessed fw calls || c.guesses (calls.foldl FirewallCall.run fw)) := by
  induction calls generalizing fw with
  | nil => simp [guessed]
  | cons c' calls ih => simp [guessed, ih, Bool.or_assoc]

/-- A release that reports success and clears the rules leaves the policy in force. -/
theorem release_leaves_policy {f : ReleaseFault} (hclear : f.fails .clearRules = none)
    {fw : Firewall} (hok : (release f fw).1.isOk = true) :
    (release f fw).2 = { rules := [], outbound := (release f fw).2.policy, restore := none } := by
  obtain ⟨rules, outbound, restore⟩ := fw
  unfold release at hok ⊢
  rw [hclear]
  cases hlaunch : f.launch with
  | some e => rw [hlaunch] at hok; cases hok
  | none =>
    rw [hlaunch] at hok
    cases restore with
    | none =>
      cases hallow : f.fails .allowAll with
      | none => rfl
      | some e => simp [hallow, Except.isOk, Except.toBool] at hok
    | some saved =>
      cases hdelete : f.fails .deleteRecord with
      | none => rfl
      | some e => simp [hdelete, Except.isOk, Except.toBool] at hok

/-- Whatever engaging and releasing came before, a release that reports success leaves no rule and no
record, and the user's own defaults; or Allow, once some release had no record to go by. -/
theorem release_restores_policy {calls : List FirewallCall} {f : ReleaseFault} {fw : Firewall}
    (hfw : fw.restore = none) (hcalls : ∀ c ∈ calls, c.Thorough) (hf : f.Thorough)
    (hclear : f.fails .clearRules = none)
    (hok : (release f (calls.foldl FirewallCall.run fw)).1.isOk = true) :
    (release f (calls.foldl FirewallCall.run fw)).2 =
      { rules := []
        outbound := if guessed fw (calls ++ [.release f]) then fun _ => .allow else fw.outbound
        restore := none } := by
  have hpolicy : fw.policy = fw.outbound := by rw [Firewall.policy, hfw]; rfl
  have hreleased : FirewallCall.guesses (calls.foldl FirewallCall.run fw) (.release f) =
      f.guesses (calls.foldl FirewallCall.run fw) := rfl
  rw [release_leaves_policy hclear hok, release_policy hf, calls_policy hcalls, guessed_append, hpolicy,
    hreleased]
  cases guessed fw calls <;> cases f.guesses (calls.foldl FirewallCall.run fw) <;> rfl

/-- The user's own policy blocks in public networks. -/
def Sample.cautious : Firewall where
  rules := []
  outbound := fun p => if p = .publicNet then .block else .allow
  restore := none

def Sample.engaging (stopsAt : Option (Nat × String)) : FirewallCall :=
  .engage (.new defaultInterface defaultFwmark true) { stopsAt } false

/-- A policy comes back after an engagement that succeeded, one that failed, and one release. -/
theorem cautious_restored :
    (release {} ([Sample.engaging none, Sample.engaging (some (5, "denied")),
      Sample.engaging none].foldl FirewallCall.run Sample.cautious)).2 = Sample.cautious := by
  rw [release_restores_policy rfl (by simp [Sample.engaging, FirewallCall.Thorough,
    ReleaseFault.Thorough]) (fun _ _ => rfl) rfl (by decide)]
  have hguessed : guessed Sample.cautious ([Sample.engaging none, Sample.engaging (some (5, "denied")),
      Sample.engaging none] ++ [.release {}]) = false := by decide
  rw [hguessed]
  rfl

/-- Releasing twice, as a disconnect after turning the kill switch off does, loses the policy. -/
theorem second_release_allows :
    ¬∀ (fw : Firewall) (calls : List FirewallCall), fw.rules = [] → fw.restore = none →
      (∀ c ∈ calls, ∃ k adapterExists stopsAt, c = .engage k { stopsAt } adapterExists ∨
        c = .release {}) →
      (release {} (calls.foldl FirewallCall.run fw)).2.outbound = fw.outbound := by
  intro hall
  have hcalls := hall Sample.cautious [Sample.engaging none, .release {}] rfl rfl fun c hc => by
    rcases List.mem_cons.mp hc with rfl | hc
    · exact ⟨_, _, _, .inl rfl⟩
    · exact ⟨.new "" 0 true, true, none, .inr (List.mem_singleton.mp hc)⟩
  exact absurd (congrFun hcalls .publicNet) (by decide)

end Windows

end Vpnmgr
