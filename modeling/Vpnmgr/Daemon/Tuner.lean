import Vpnmgr.Core.Score

/-! The auto-tuner's decision: what a pass observed, and what follows from it. -/

namespace Vpnmgr

open Ieee

/-- A ranked server as clients see it. -/
structure RankedServer where
  name : String
  countryCode : String
  countryName : String
  location : String
  load : Nat
  rttMs : F64
  score : F64
  entry : Nat
  endpoint : SocketAddr
  mbps : Option F64
  mbpsAgeSecs : Option Nat
  headroomMbps : Nat
  deriving DecidableEq

namespace Tuner

/-- The server the tunnel is on, as measured in this pass. -/
structure Current where
  name : String
  rttMs : Option F64
  score : Option F64
  deriving DecidableEq

/-- What a tuning pass observed. -/
structure Assessment where
  current : Option Current
  best : Option RankedServer
  probed : Nat
  declinedFrom : Option String

/-- Why a move is being suggested. -/
inductive Reason where
  | currentWentSilent
  | degraded (rttMs : F64) (thresholdMs : Nat) (improvement : F64)
  deriving DecidableEq

inductive Decision where
  | notConnected
  | healthy (server : String) (rttMs : F64)
  | alreadyBest (server : String) (rttMs : F64)
  | noBetterAvailable (server : String) (rttMs : F64) (best : String) (bestRttMs : F64)
      (improvement : F64) (localLinkSuspect : Bool)
  | switch (target : RankedServer) (reason : Reason)
  | propose (target : RankedServer) (reason : Reason)
  | blocked (target : RankedServer) (reason : Reason)
  | suppressed (target : RankedServer) (reason : Reason)
  | nothingReachable (probed : Nat)
  deriving DecidableEq

def Reason.describe : Reason → String
  | currentWentSilent => "the current server stopped answering probes"
  | degraded rttMs thresholdMs improvement =>
    F64.fixed 1 rttMs ++ s!"ms is over the {thresholdMs}ms limit and this is " ++
      F64.fixed 0 (improvement * 100) ++ "% better"

namespace Decision

/-- Whether this pass wants the tunnel moved right now. -/
def isActionable : Decision → Bool
  | switch .. => true
  | _ => false

/-- The server this decision points at, if any. -/
def target : Decision → Option RankedServer
  | switch target _ | propose target _ | blocked target _ | suppressed target _ => some target
  | _ => none

/-- One line for the log and for the desktop notification. -/
def describe : Decision → String
  | notConnected => "not connected; nothing to tune"
  | healthy server rttMs => server ++ " is healthy at " ++ F64.fixed 1 rttMs ++ "ms"
  | alreadyBest server rttMs =>
    server ++ " is slow at " ++ F64.fixed 1 rttMs ++
      "ms, but it is still the best available; staying put"
  | noBetterAvailable server rttMs best bestRttMs improvement localLinkSuspect =>
    if localLinkSuspect then
      server ++ " is slow at " ++ F64.fixed 1 rttMs ++ "ms, but so is every alternative (best " ++
        best ++ " at " ++ F64.fixed 1 bestRttMs ++ "ms). That points at this machine's connection " ++
        "rather than the VPN, so nothing was changed."
    else
      server ++ " at " ++ F64.fixed 1 rttMs ++ "ms; best alternative " ++ best ++ " at " ++
        F64.fixed 1 bestRttMs ++ "ms is only " ++ F64.fixed 0 (improvement * 100) ++
        "% better, below the threshold"
  | switch target reason =>
    "switching to " ++ target.name ++ " (" ++ target.location ++ "): " ++ reason.describe
  | propose target reason =>
    target.name ++ " (" ++ target.location ++ ") looks better: " ++ reason.describe ++
      ". Run \x60vpnmgr approve\x60 to move."
  | blocked target reason =>
    target.name ++ " would be better (" ++ reason.describe ++
      "), but autotune.switch_policy is \"never\""
  | suppressed target reason =>
    target.name ++ " still looks better (" ++ reason.describe ++ "), but you dismissed that move " ++
      "recently, so it will not be raised again for now"
  | nothingReachable probed =>
    s!"none of the {probed} probed servers answered; treating this as a local connectivity " ++
      "problem rather than a reason to switch"

end Decision

/-- Apply the switch policy. `alreadyDeclined` suppresses a repeat prompt. -/
def act (policy : SwitchPolicy) (target : RankedServer) (reason : Reason) (alreadyDeclined : Bool) :
    Decision :=
  match policy with
  | .auto => .switch target reason
  | .ask => if alreadyDeclined then .suppressed target reason else .propose target reason
  | .never => .blocked target reason

/-- How much better `best` is, by score where the current server has one and by time otherwise. -/
def improvement (current : Current) (rttMs : F64) (best : RankedServer) : F64 :=
  match current.score with
  | some score => relativeImprovement score best.score
  | none => if rttMs ≤ F64.epsilon then 0 else ((rttMs - best.rttMs) / rttMs).max 0

/-- Turn an assessment into a decision. -/
def decide (assessment : Assessment) (autotune : Autotune) : Decision :=
  match assessment.current, assessment.best with
  | none, _ => .notConnected
  | some _, none => .nothingReachable assessment.probed
  | some current, some best =>
    match current.rttMs with
    | none => act autotune.switchPolicy best .currentWentSilent false
    | some rttMs =>
      let limit := F64.ofNat autotune.maxLatencyMs
      if rttMs ≤ limit then .healthy current.name rttMs
      else if best.name = current.name then .alreadyBest current.name rttMs
      else
        let improvement := improvement current rttMs best
        if improvement < autotune.improvementThreshold then
          .noBetterAvailable current.name rttMs best.name best.rttMs improvement
            (Decidable.decide (limit < best.rttMs))
        else
          act autotune.switchPolicy best (.degraded rttMs autotune.maxLatencyMs improvement)
            (assessment.declinedFrom == some current.name)

theorem Decision.isActionable_iff {d : Decision} :
    d.isActionable = true ↔ ∃ target reason, d = .switch target reason := by
  cases d <;> simp [isActionable]

theorem act_target (policy : SwitchPolicy) (best : RankedServer) (reason : Reason) (declined : Bool) :
    (act policy best reason declined).target = some best := by
  cases policy <;> cases declined <;> rfl

/-- A decision that names a server is what the policy makes of the best of the assessment, where the
current server is slow and another one, or did not answer. -/
theorem decide_act {a : Assessment} {autotune : Autotune} {target : RankedServer}
    (h : (decide a autotune).target = some target) : a.best = some target ∧
      ∃ current reason declined, a.current = some current ∧
        decide a autotune = act autotune.switchPolicy target reason declined ∧
        ∀ r, current.rttMs = some r →
          ¬r ≤ F64.ofNat autotune.maxLatencyMs ∧ target.name ≠ current.name := by
  generalize hdecision : decide a autotune = decision at h
  unfold decide at hdecision
  split at hdecision
  · subst hdecision
    cases h
  · subst hdecision
    cases h
  · next current best hcurrent hbest =>
    have hnamed : ∀ {reason declined}, act autotune.switchPolicy best reason declined = decision →
        best = target := by
      rintro reason declined rfl
      exact Option.some.inj ((act_target _ _ _ _).symm.trans h)
    dsimp only at hdecision
    split at hdecision
    · next hsilent =>
      obtain rfl := hnamed hdecision
      exact ⟨hbest, current, _, _, hcurrent, hdecision.symm,
        fun r hr => absurd (hsilent.symm.trans hr) (fun h => by cases h)⟩
    · next rttMs hrtt =>
      split at hdecision
      · subst hdecision
        cases h
      · next hslow =>
        split at hdecision
        · subst hdecision
          cases h
        · next hother =>
          split at hdecision
          · subst hdecision
            cases h
          · obtain rfl := hnamed hdecision
            refine ⟨hbest, current, _, _, hcurrent, hdecision.symm, fun r hr => ?_⟩
            cases hrtt.symm.trans hr
            exact ⟨hslow, hother⟩

/-- A decision names no server but the best of the assessment. -/
theorem decide_target {a : Assessment} {autotune : Autotune} {target : RankedServer}
    (h : (decide a autotune).target = some target) : a.best = some target := (decide_act h).1

/-- A proposal is made under the policy to ask, and names another server than the current one unless
that one did not answer. -/
theorem decide_propose {a : Assessment} {autotune : Autotune} {target : RankedServer}
    {reason : Reason} {current : Current} (hcurrent : a.current = some current)
    (h : decide a autotune = .propose target reason) :
    autotune.switchPolicy = .ask ∧ (current.rttMs = none ∨ target.name ≠ current.name) := by
  obtain ⟨_, current', _, _, heq, hact, hother⟩ := decide_act (congrArg Decision.target h)
  cases hcurrent.symm.trans heq
  rw [h] at hact
  unfold act at hact
  refine ⟨?_, ?_⟩
  · split at hact
    · cases hact
    · next hask => exact hask
    · cases hact
  · cases hrtt : current.rttMs with
    | none => exact .inl rfl
    | some r => exact .inr (hother r hrtt).2

/-- A decision to move is made under the policy to, and only where the current server gave no time
within the limit. -/
theorem decide_switch {a : Assessment} {autotune : Autotune} {target : RankedServer}
    {reason : Reason} {current : Current} (hcurrent : a.current = some current)
    (h : decide a autotune = .switch target reason) : autotune.switchPolicy = .auto ∧
      ∀ r, current.rttMs = some r → ¬r ≤ F64.ofNat autotune.maxLatencyMs := by
  obtain ⟨_, current', _, declined, heq, hact, hother⟩ := decide_act (congrArg Decision.target h)
  cases hcurrent.symm.trans heq
  rw [h] at hact
  unfold act at hact
  refine ⟨?_, fun r hr => (hother r hr).1⟩
  split at hact
  · next hauto => exact hauto
  · split at hact <;> cases hact
  · cases hact

end Tuner

end Vpnmgr
