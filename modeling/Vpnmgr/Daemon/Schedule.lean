import Vpnmgr.Daemon.Steering

/-! The scheduler waits, and looks again before it runs a pass. Once a pass has run, the second look
finds one due; before the first pass it never does. -/

namespace Vpnmgr

open Ieee Stateful Stateful.Action

variable {P : Platform}

/-- Only a pass sets the time of the last pass, and the clock never runs back. -/
structure Ticks (w w' : World P) : Prop where
  lastTuneAt : w'.state.lastTuneAt = w.state.lastTuneAt
  clock : w.clock ≤ w'.clock

instance : IsPreorder (World P) Ticks where
  refl _ := ⟨rfl, Nat.le_refl _⟩
  trans _ _ _ h₁ h₂ := ⟨h₂.lastTuneAt.trans h₁.lastTuneAt, h₁.clock.trans h₂.clock⟩

variable {α : Type}

theorem ticks_of_rests (w w' : World P) (h : Rests w w') : Ticks w w' := ⟨h.lastTuneAt, h.clock⟩

theorem ticks_of_operates {x : Daemon P α} (h : Within Operates x) : Within Ticks x :=
  h.mono fun _ _ h => ⟨h.lastTuneAt, h.clock⟩

theorem ticks_of_measures {x : Daemon P α} (h : Within Measures x) : Within Ticks x :=
  ticks_of_operates (operates_of_measures h)

theorem modify_ticks {f : State P → State P} (h : ∀ s, (f s).lastTuneAt = s.lastTuneAt) :
    Within Ticks (modify f : Daemon P Unit) :=
  Within.update fun w => ⟨h w.state, Nat.le_refl _⟩

theorem killswitch_ticks (enable : Option Bool) :
    Within Ticks (killswitch enable : Daemon P KillswitchReport) :=
  killswitch_within (fun _ => ⟨rfl, Nat.le_refl _⟩) (fun _ => ⟨rfl, Nat.le_refl _⟩)
    (fun _ _ => ⟨rfl, Nat.le_refl _⟩) (fun _ => modify_ticks fun _ => rfl) enable

theorem approve_ticks : Within Ticks (approve : Daemon P RankedServer) :=
  approve_within ticks_of_rests fun _ => ticks_of_operates (switch_operates _)

/-- The part of a pass after it has noted its own time. -/
theorem tune_ticks : Within Ticks (tune : Daemon P TuneReport) :=
  tune_within_rests ticks_of_rests fun _ => ticks_of_operates (switch_operates _)

/-! ### Where a pass begins -/

/-- The world in which a pass begins, once it has noted its time. -/
def World.noted (w : World P) : World P :=
  { (now w).2 with state := { w.state with lastTuneAt := some (now w).2.clock } }

/-- The world in which the operation begins a pass, if it does. -/
def World.passBegins (w : World P) : Op → Option (World P)
  | .autotune => some w.noted
  | .scheduledPass =>
    if w.state.timeUntilNextTune (after now w).clock = 0 then some (after now w).noted else none
  | _ => none

/-- The scheduler's re-check runs a pass, or finds none due and only reads the clock. -/
theorem scheduledPass_run (w : World P) : scheduledPass w = match w.passBegins .scheduledPass with
    | some u => ((tune u).1.map some, after tune u)
    | none => (.ok none, after now w) := by
  rw [scheduledPass_now, World.passBegins]
  split
  · show _ = ((tune (after now w).noted).1.map some, (tune (after now w).noted).2)
    have hnoted : autotune (after now w) = tune (after now w).noted := rfl
    rw [bind_run, hnoted]
    rcases tune (after now w).noted with ⟨_ | _, _⟩ <;> rfl
  · rfl

/-- An operation that begins a pass does nothing else. -/
theorem step_pass {w u : World P} {op : Op} (h : w.passBegins op = some u) :
    step w op = after tune u := by
  cases op with
  | autotune =>
    cases h
    rfl
  | scheduledPass => rw [step, after, scheduledPass_run, h]
  | _ => cases h

theorem passBegins_state {w u : World P} {op : Op} (h : w.passBegins op = some u) :
    u.state = { w.state with lastTuneAt := some u.clock } ∧ u.events = w.events ∧
      w.clock ≤ u.clock := by
  cases op with
  | autotune =>
    cases h
    exact ⟨rfl, rfl, Nat.le_add_right _ _⟩
  | scheduledPass =>
    rw [World.passBegins] at h
    split at h
    · cases h
      exact ⟨rfl, rfl, (Nat.le_add_right _ _).trans (Nat.le_add_right _ _)⟩
    · cases h
  | _ => cases h

theorem passBegins_machine {w u : World P} {op : Op} (h : w.passBegins op = some u) :
    u.machine = w.machine := by
  cases op with
  | autotune =>
    cases h
    rfl
  | scheduledPass =>
    rw [World.passBegins] at h
    split at h
    · cases h
      rfl
    · cases h
  | _ => cases h

/-- Without a pass, the time of the last one stays. -/
theorem step_ticks {w : World P} {op : Op} (h : w.passBegins op = none) : Ticks w (step w op) := by
  cases op with
  | connect server measure => exact ticks_of_operates (connect_operates _ _) w
  | disconnect => exact ticks_of_operates (operates_of_steers disconnect_steers) w
  | switch server => exact ticks_of_operates (switch_operates _) w
  | test country => exact ticks_of_measures (sweep_measures _) w
  | servers country limit all =>
    exact ticks_of_measures (measures_of_fetches (servers_fetches _ _ _)) w
  | reload => exact ticks_of_rests _ _ (reload_rests w)
  | autotune => cases h
  | approve => exact approve_ticks w
  | dismiss => exact ticks_of_rests _ _ (dismiss_rests w)
  | speedtest => exact ticks_of_measures (measures_of_samples speedtest_samples) w
  | baseline confirm =>
    cases confirm with
    | false => exact refl_of Ticks w
    | true => exact ticks_of_operates baseline_operates w
  | killswitch enable => exact killswitch_ticks _ w
  | scheduledPass =>
    rw [step, after, scheduledPass_run, h]
    exact ticks_of_rests _ _ (now_rests w)

/-- A pass leaves the time at which it began. -/
theorem tune_notes {w u : World P} {op : Op} (h : w.passBegins op = some u) :
    (step w op).state.lastTuneAt = some u.clock ∧ u.clock ≤ (step w op).clock := by
  have hticks := tune_ticks u
  rw [step_pass h]
  refine ⟨hticks.lastTuneAt.trans ?_, hticks.clock⟩
  rw [(passBegins_state h).1]

/-- No reading of the clock so far is later than the clock. -/
def World.Timed (w : World P) : Prop := ∀ t, w.state.lastTuneAt = some t → t ≤ w.clock

theorem step_timed (w : World P) (op : Op) (hw : w.Timed) : (step w op).Timed := by
  intro t ht
  cases hbegins : w.passBegins op with
  | none =>
    have hticks := step_ticks hbegins
    rw [hticks.lastTuneAt] at ht
    exact (hw t ht).trans hticks.clock
  | some u =>
    obtain ⟨hlast, hclock⟩ := tune_notes hbegins
    cases hlast.symm.trans ht
    exact hclock

theorem Reachable.timed {w : World P} (h : Reachable w) : w.Timed := by
  refine ReachableBy.holds (fun start hs t ht => ?_) (fun w op _ => step_timed w op) h
  obtain ⟨disk, config, client, _, _, hloaded⟩ := hs.loads
  rw [hloaded] at ht
  cases ht

/-- Whenever the scheduler reads how long to wait and waits at least so long, with nothing done in
between, it finds a pass due. -/
def World.WakesDue (w : World P) : Prop :=
  ∀ t, w.clock ≤ t → ∀ t', t + w.state.timeUntilNextTune t ≤ t' → w.state.timeUntilNextTune t' = 0

/-- What was left of an interval at `t` has passed once that much time has. -/
theorem rest_zero {interval at_ t t' : Nat} (hat : at_ ≤ t) (ht : t + (interval - (t - at_)) ≤ t') :
    interval - (t' - at_) = 0 := by
  omega

/-- The scheduler wakes to a due pass exactly when some pass has run already, or there is nothing to
wait for. -/
theorem wakesDue_iff {w : World P} (h : Reachable w) :
    w.WakesDue ↔ w.state.lastTuneAt.isSome ∨ w.state.config.autotune.interval = 0 := by
  unfold World.WakesDue State.timeUntilNextTune
  cases hlast : w.state.lastTuneAt with
  | none =>
    have hpause : (0 : Nat) < Duration.ofSecs 60 := by decide
    simp only [Option.isSome_none, Bool.false_eq_true, false_or]
    constructor
    · intro hdue
      have hzero := hdue w.clock (Nat.le_refl _) _ (Nat.le_refl _)
      exact (Nat.min_eq_zero_iff.mp hzero).resolve_right hpause.ne'
    · intro hzero t _ t' _
      rw [hzero]
      exact Nat.zero_min _
  | some at_ =>
    have hpast := h.timed at_ hlast
    simp only [Option.isSome_some, true_or, iff_true]
    intro t ht t' ht'
    exact rest_zero (hpast.trans ht) ht'

theorem wakesDue_after_pass : (step Sample.idle .autotune).WakesDue :=
  (wakesDue_iff ⟨Sample.idle, Sample.idle_starts, .next .here trivial⟩).mpr (.inl (by decide))

/-- A daemon that nobody drives is told a minute after its start to wait another minute. -/
theorem first_pass_not_due :
    ¬∀ w : World (.linux Sample.log), Reachable w → w.WakesDue := by
  intro hdue
  have hlater := hdue Sample.idle ⟨_, Sample.idle_starts, .here⟩ 0 (Nat.le_refl _)
    (Duration.ofSecs 60) (by decide)
  exact absurd hlater (by decide)

end Vpnmgr
