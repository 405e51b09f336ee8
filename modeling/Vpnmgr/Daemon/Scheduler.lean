import Vpnmgr.Daemon.Schedule
import Mathlib.Data.List.Chain

/-! The scheduler's loop beside the requests of clients: it reads how long to wait, sleeps without
the lock on the state, and looks again before it runs a pass. However requests fall between these
steps, a scheduled pass keeps its interval from the pass before it. -/

namespace Vpnmgr

open Stateful Stateful.Action

variable {P : Platform}

/-- Where the scheduler stands in its loop. -/
inductive Phase where
  | looking
  | sleeping (until_ : Instant)

/-- A pass as it began: when, whether the scheduler began it, and the interval then in force. -/
structure Begun where
  at_ : Instant
  scheduled : Bool
  interval : Duration

/-- The daemon and its scheduler, with the passes begun so far, the latest first. A pass counts
whatever becomes of it. -/
structure Running (P : Platform) where
  world : World P
  phase : Phase
  begun : List Begun

/-- What happens next. -/
inductive Task where
  | client (op : Op)
  | idle (time : Duration)
  | look
  | wake

namespace Running

def begin (w : World P) : Running P := ⟨w, .looking, []⟩

/-- Carry out an operation under the lock, and record the pass it begins, if it does. -/
def carryOut (r : Running P) (op : Op) : Running P where
  world := step r.world op
  phase := r.phase
  begun := match r.world.passBegins op with
    | some u => ⟨u.clock, op = .scheduledPass, u.state.config.autotune.interval⟩ :: r.begun
    | none => r.begun

/-- The scheduler's first look at the state, and the sleep it goes into. -/
def look (r : Running P) : Running P :=
  let looked := after now r.world
  { r with
    world := looked
    phase := .sleeping (looked.clock + r.world.state.timeUntilNextTune looked.clock) }

def advance (r : Running P) : Task → Running P
  | .client op => r.carryOut op
  | .idle time => { r with world := { r.world with clock := r.world.clock + time } }
  | .look => r.look
  | .wake => { r.carryOut .scheduledPass with phase := .looking }

/-- A client asks for anything but the scheduler's own look. The scheduler sleeps as long as it meant
to, or longer. -/
def Admits (r : Running P) : Task → Prop
  | .client op => op ≠ .scheduledPass
  | .idle _ => True
  | .look => r.phase = .looking
  | .wake => ∃ until_, r.phase = .sleeping until_ ∧ until_ ≤ r.world.clock

end Running

/-- A pass begins no earlier than the one before it. One that the scheduler begins leaves the interval
between them. -/
def Begun.Follows (later earlier : Begun) : Prop :=
  earlier.at_ ≤ later.at_ ∧
    (later.scheduled = true → later.interval ≤ later.at_ - earlier.at_)

/-- The passes so far keep their distance, and the state knows when the latest of them began. -/
structure Running.Spaced (r : Running P) : Prop where
  apart : r.begun.IsChain Begun.Follows
  latest : r.world.state.lastTuneAt = r.begun.head?.map Begun.at_
  timed : r.world.Timed

/-- What the scheduler finds due is due since the whole interval passed. -/
theorem passBegins_due {w u : World P} (h : w.passBegins .scheduledPass = some u) {at_ : Instant}
    (hlast : w.state.lastTuneAt = some at_) :
    w.state.config.autotune.interval ≤ u.clock - at_ := by
  rw [World.passBegins] at h
  split at h
  case isFalse => cases h
  case isTrue hdue =>
    cases h
    have hnoted : (after now w).clock ≤ (after now w).noted.clock := Nat.le_add_right _ _
    rw [State.timeUntilNextTune, hlast] at hdue
    have hpassed := Nat.sub_eq_zero_iff_le.mp hdue
    exact hpassed.trans (Nat.sub_le_sub_right hnoted at_)

/-- An operation that begins a pass begins it at a distance. -/
theorem Running.Spaced.follows {r : Running P} (hr : r.Spaced) {op : Op} {u : World P}
    (h : r.world.passBegins op = some u) {earlier : Begun} (hlast : earlier ∈ r.begun.head?) :
    Begun.Follows ⟨u.clock, op = .scheduledPass, u.state.config.autotune.interval⟩ earlier := by
  have hat : r.world.state.lastTuneAt = some earlier.at_ := by
    rw [hr.latest, Option.mem_def.mp hlast]
    rfl
  have hpast := hr.timed _ hat
  obtain ⟨hstate, -, hclock⟩ := passBegins_state h
  refine ⟨hpast.trans hclock, fun hscheduled => ?_⟩
  cases of_decide_eq_true hscheduled
  have hdue := passBegins_due h hat
  rw [hstate]
  exact hdue

theorem Running.Spaced.carryOut {r : Running P} (hr : r.Spaced) (op : Op) :
    (r.carryOut op).Spaced := by
  have htimed := step_timed r.world op hr.timed
  cases hbegins : r.world.passBegins op with
  | none =>
    have hbegun : (r.carryOut op).begun = r.begun := by simp only [Running.carryOut, hbegins]
    refine ⟨?_, ?_, htimed⟩
    · rw [hbegun]
      exact hr.apart
    · rw [hbegun, ← hr.latest]
      exact (step_ticks hbegins).lastTuneAt
  | some u =>
    have hbegun : (r.carryOut op).begun =
        ⟨u.clock, op = .scheduledPass, u.state.config.autotune.interval⟩ :: r.begun := by
      simp only [Running.carryOut, hbegins]
    refine ⟨?_, ?_, htimed⟩
    · rw [hbegun]
      exact hr.apart.cons fun earlier hlast => hr.follows hbegins hlast
    · rw [hbegun]
      exact (tune_notes hbegins).1

theorem Running.Spaced.advance {r : Running P} (hr : r.Spaced) (task : Task) :
    (r.advance task).Spaced := by
  -- time that only passes changes nothing that is recorded
  have hlater : ∀ {clock}, r.world.clock ≤ clock → ∀ t, r.world.state.lastTuneAt = some t → t ≤ clock :=
    fun hclock t ht => (hr.timed t ht).trans hclock
  cases task with
  | client op => exact hr.carryOut op
  | idle time => exact ⟨hr.apart, hr.latest, hlater (Nat.le_add_right _ _)⟩
  | look => exact ⟨hr.apart, hr.latest, hlater (Nat.le_add_right _ _)⟩
  | wake =>
    have hpass := hr.carryOut .scheduledPass
    exact ⟨hpass.apart, hpass.latest, hpass.timed⟩

/-- Wherever clients and the scheduler lead, each pass that the scheduler began came at least the
interval then in force after the pass before it, whoever began that one and whatever became of it. -/
theorem scheduled_passes_apart {start : World P} {r : Running P} (hstart : Starts start)
    (h : Reaches Running.advance Running.Admits (.begin start) r) :
    r.begun.IsChain Begun.Follows ∧ r.world.state.lastTuneAt = r.begun.head?.map Begun.at_ := by
  have hspaced : r.Spaced := by
    refine h.keeps (fun r task _ hr => hr.advance task) ⟨List.isChain_nil, ?_, ?_⟩
    · obtain ⟨_, _, _, _, _, hloaded⟩ := hstart.loads
      show start.state.lastTuneAt = none
      rw [hloaded]
      rfl
    · exact Reachable.timed ⟨start, hstart, .here⟩
  exact ⟨hspaced.apart, hspaced.latest⟩

namespace Sample

/-- A pass that a client asks for, and the scheduler waking an hour after it looked. -/
def rescheduled : Running (.linux log) :=
  ((((Running.begin idle).advance (.client .autotune)).advance .look).advance
    (.idle (.ofSecs 3600))).advance .wake

end Sample

theorem rescheduled_apart :
    Sample.rescheduled.begun.map Begun.scheduled = [true, false] ∧
      Sample.rescheduled.begun.IsChain Begun.Follows := by
  have hrun : Reaches Running.advance Running.Admits (.begin Sample.idle) Sample.rescheduled :=
    .next (.next (.next (.next .here Op.noConfusion) rfl) trivial) ⟨_, rfl, by decide⟩
  exact ⟨by decide +kernel, (scheduled_passes_apart Sample.idle_starts hrun).1⟩

end Vpnmgr
