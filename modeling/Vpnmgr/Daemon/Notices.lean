import Vpnmgr.Daemon.Healthy
import Vpnmgr.Daemon.Authority
import Vpnmgr.Daemon.Scheduler

/-! What the scheduler tells the desktop of its passes: its moves and proposals are announced one for
one, and while no client asks for anything the last that was announced is how things are. -/

namespace Vpnmgr

open Stateful Stateful.Action Tuner

variable {P : Platform}

inductive Urgency where
  | normal
  | critical
  deriving DecidableEq

structure Notice where
  summary : String
  body : String
  urgency : Urgency
  deriving DecidableEq

/-- What is told of a pass. Most are kept silent. -/
def announce (report : TuneReport) : Option Notice :=
  if report.switched then some ⟨"VPN server switched", report.summary, .normal⟩
  else if report.pending.isSome then
    some ⟨"A faster VPN server is available", report.summary, .normal⟩
  else if report.nothingReachable then
    some ⟨"VPN is not reaching any server", report.summary, .critical⟩
  else none

/-! ### How a pass ends -/

/-- What is told of a pass that came to the decision. -/
def Tuner.Decision.notice (decision : Decision) : Option Notice :=
  match decision with
  | .switch .. => some ⟨"VPN server switched", decision.describe, .normal⟩
  | .propose .. => some ⟨"A faster VPN server is available", decision.describe, .normal⟩
  | .nothingReachable _ => some ⟨"VPN is not reaching any server", decision.describe, .critical⟩
  | _ => none

/-- A pass failed and left the connection, or recorded a decision, which it had followed if that was to
move. -/
inductive Concludes (w : World P) : Except Error TuneReport × World P → Prop where
  | failed (e : Error) (w' : World P) (h : Leaves w w') : Concludes w (.error e, w')
  | stayed (decision : Decision) (v : World P) (h : Leaves w v)
    (hstays : decision.isActionable = false) : Concludes w (record decision v)
  | moved (target : RankedServer) (reason : Reason) (v : World P) (h : MovedTo w v target) :
    Concludes w (record (.switch target reason) v)

theorem Concludes.after_leaves {w v : World P} {x : Except Error TuneReport × World P}
    (hv : Leaves w v) (h : Concludes v x) : Concludes w x := by
  cases h with
  | failed e w' h => exact .failed e w' (trans_of Leaves hv h)
  | stayed decision u h hstays => exact .stayed decision u (trans_of Leaves hv h) hstays
  | moved target reason u h =>
    obtain ⟨chosen, hname, hcurrent, hevents⟩ := h
    exact .moved target reason u ⟨chosen, hname, hcurrent, hv.events ▸ hevents⟩

theorem tuneDegraded_concludes (current : Connection) (currentRtt : Option Ieee.F64) (w : World P) :
    Concludes w (tuneDegraded current currentRtt w) := by
  have hmeasures := sweep_measures none w
  rcases hsweep : sweep none w with ⟨e | ranked, v⟩
  · rw [hsweep] at hmeasures
    have hleaves := leaves_of_measures _ _ hmeasures
    rw [tuneDegraded, attempt_bind, hsweep]
    cases e with
    | allUnreachable probed => exact .stayed _ v hleaves rfl
    | _ => exact .failed _ v hleaves
  · rw [hsweep] at hmeasures
    obtain ⟨_, _, -, hrun⟩ := tuneDegraded_swept current currentRtt hsweep
    have hassessed : Measures w (after (assess current currentRtt ranked) v) :=
      hmeasures.trans (assess_fetches current currentRtt ranked v).toMeasures
    rw [hrun]
    dsimp only
    generalize decide _ _ = decision
    generalize after (assess current currentRtt ranked) v = u at hassessed
    refine Concludes.after_leaves (leaves_of_measures _ _ hassessed) ?_
    rcases hfollow : followDecision decision u with ⟨e | _, x⟩
    · rw [bind_run_error hfollow]
      exact .failed e x (followDecision_error hfollow)
    · rw [bind_run_ok hfollow]
      cases hactionable : decision.isActionable with
      | false =>
        rw [followDecision, hactionable] at hfollow
        cases hfollow
        exact .stayed decision u (refl_of Leaves u) hactionable
      | true =>
        obtain ⟨target, reason, rfl⟩ := Decision.isActionable_iff.mp hactionable
        obtain ⟨chosen, x', hswitch, hx⟩ := bind_ok hfollow
        cases hx
        exact .moved target reason x (switch_movedTo rfl hswitch)

theorem tune_concludes (w : World P) : Concludes w (tune w) := by
  cases hcurrent : w.state.current with
  | none =>
    rw [tune, self, read_bind, hcurrent]
    exact .stayed .notConnected w (refl_of Leaves w) rfl
  | some current =>
    have hprobed := probeCurrent_samples current.server w
    obtain ⟨currentRtt, hprobe⟩ := probeCurrent_returns current.server w
    generalize after (probeCurrent current.server) w = v at hprobe
    rw [hprobe] at hprobed
    refine Concludes.after_leaves (leaves_of_measures _ _ hprobed.toMeasures) ?_
    cases hfast : v.state.isFast currentRtt with
    | true =>
      obtain ⟨rttMs, rfl, _⟩ := (Option.any_eq_true _ _).mp hfast
      rw [tune_fast hcurrent hprobe hfast]
      exact .stayed _ v (refl_of Leaves v) rfl
    | false =>
      rw [tune_slow hcurrent hprobe hfast]
      exact tuneDegraded_concludes current currentRtt v

/-- Recording a decision keeps the connection, and reports what is told of the decision. -/
theorem record_announced (decision : Decision) (v : World P) : ∃ report v',
    record decision v = (.ok report, v') ∧ announce report = decision.notice ∧
      v'.state.current = v.state.current ∧
      (∀ p, v'.state.pending = some p → ∃ reason, decision = .propose p.1 reason) ∧
      v'.events = (match decision with
        | .propose target _ => [.proposed target.name]
        | _ => []) ++ v.events := by
  cases decision with
  | propose target reason =>
    exact ⟨_, _, rfl, rfl, rfl, fun _ hp => (by cases hp; exact ⟨reason, rfl⟩), rfl⟩
  | _ => exact ⟨_, _, rfl, rfl, rfl, fun _ hp => (by cases hp), rfl⟩

/-- What is told of the scheduler's re-check: a pass that fails is only logged. -/
def noticeOf (result : Except Error (Option TuneReport)) : Option Notice :=
  result.toOption.join.bind announce

/-- What a pass did where this is told of it. -/
inductive Announced (w w' : World P) : Option Notice → Prop where
  | silent (h : Leaves w w') : Announced w w' none
  | unreachable (probed : Nat) (h : Leaves w w') (hnone : w'.state.pending = none) :
    Announced w w' (Decision.nothingReachable probed).notice
  | switched (target : RankedServer) (reason : Reason) (h : MovedTo w w' target)
    (hnone : w'.state.pending = none) : Announced w w' (Decision.switch target reason).notice
  | proposed (target : RankedServer) (reason : Reason)
    (hcurrent : w'.state.current = w.state.current)
    (hevents : w'.events = .proposed target.name :: w.events)
    (hpending : ∀ p, w'.state.pending = some p → p.1 = target) :
    Announced w w' (Decision.propose target reason).notice

theorem Concludes.announced {w : World P} {x : Except Error TuneReport × World P}
    (h : Concludes w x) : Announced w x.2 (noticeOf (x.1.map some)) := by
  cases h with
  | failed e w' h => exact .silent h
  | stayed decision v h hstays =>
    obtain ⟨report, v', hrun, hnotice, hcurrent, hpending, hevents⟩ := record_announced decision v
    rw [hrun]
    show Announced w v' (announce report)
    rw [hnotice]
    rw [h.current] at hcurrent
    rw [h.events] at hevents
    have hnone : (∀ target reason, decision ≠ .propose target reason) → v'.state.pending = none := by
      refine fun hother => Option.eq_none_iff_forall_ne_some.mpr fun p hp => ?_
      obtain ⟨reason, hpropose⟩ := hpending p hp
      exact hother _ _ hpropose
    cases decision with
    | propose target reason =>
      refine .proposed target reason hcurrent hevents fun p hp => ?_
      obtain ⟨_, hsame⟩ := hpending p hp
      cases hsame
      rfl
    | switch target reason => cases hstays
    | nothingReachable probed =>
      have hsettled := hnone fun _ _ => nofun
      exact .unreachable probed ⟨.inr hsettled, hcurrent, hevents⟩ hsettled
    | _ => exact .silent ⟨.inr (hnone fun _ _ => nofun), hcurrent, hevents⟩
  | moved target reason v h =>
    obtain ⟨report, v', hrun, hnotice, hcurrent, hpending, hevents⟩ :=
      record_announced (.switch target reason) v
    obtain ⟨chosen, hname, hchosen, hmoved⟩ := h
    rw [hrun]
    show Announced w v' (announce report)
    rw [hnotice]
    refine .switched target reason ⟨chosen, hname, hcurrent.trans hchosen, hevents.trans hmoved⟩ ?_
    refine Option.eq_none_iff_forall_ne_some.mpr fun p hp => ?_
    obtain ⟨_, hpropose⟩ := hpending p hp
    cases hpropose

theorem scheduledPass_announced (w : World P) :
    Announced w (after scheduledPass w) (noticeOf (scheduledPass w).1) := by
  rw [after, scheduledPass_run]
  cases hbegins : w.passBegins .scheduledPass with
  | none => exact .silent (now_leaves w)
  | some u =>
    obtain ⟨hstate, hevents, -⟩ := passBegins_state hbegins
    have hbegun : Leaves w u := ⟨.inl (by rw [hstate]), by rw [hstate], hevents⟩
    exact ((tune_concludes u).after_leaves hbegun).announced

/-! ### What is told in a run -/

/-- The events since the first world, where they led to the second. -/
def World.since (w w' : World P) : List Event :=
  w'.events.take (w'.events.length - w.events.length)

theorem World.since_eq {w w' : World P} (events : List Event)
    (h : w'.events = events ++ w.events) : w.since w' = events := by
  rw [World.since, h, List.length_append, Nat.add_sub_cancel, List.take_left]

namespace Running

/-- What the scheduler tells of what it does next, if it does. -/
def notice (r : Running P) : Task → Option Notice
  | .wake => noticeOf (scheduledPass r.world).1
  | _ => none

/-- What the scheduler's pass does to the tunnel and to the proposal. -/
def passed (r : Running P) : Task → List Event
  | .wake => r.world.since (r.advance .wake).world
  | _ => []

/-- What is told in a run, the latest first. -/
def notices (r : Running P) : List Task → List Notice
  | [] => []
  | task :: tasks => (r.advance task).notices tasks ++ (r.notice task).toList

/-- The events of the scheduler's passes in a run, the latest first. -/
def passes (r : Running P) : List Task → List Event
  | [] => []
  | task :: tasks => (r.advance task).passes tasks ++ r.passed task

end Running

/-- Told of a move or a proposal, and not that no server can be reached. -/
def Notice.steers (n : Notice) : Bool := n.urgency = .normal

/-- A move is told as the decision to make it, and a proposal as the decision to make that. -/
inductive Tells : Event → Notice → Prop where
  | switched (chosen target : RankedServer) (reason : Reason)
    (h : Text.eqIgnoreAsciiCase chosen.name target.name = true) :
    Tells (.switched chosen.endpoint)
      ⟨"VPN server switched", (Decision.switch target reason).describe, .normal⟩
  | proposed (target : RankedServer) (reason : Reason) :
    Tells (.proposed target.name)
      ⟨"A faster VPN server is available", (Decision.propose target reason).describe, .normal⟩

theorem Announced.tells {w w' : World P} {notice : Option Notice} (h : Announced w w' notice) :
    List.Forall₂ Tells (w.since w') (notice.toList.filter Notice.steers) := by
  cases h with
  | silent h =>
    rw [World.since_eq [] h.events]
    exact .nil
  | unreachable probed h hnone =>
    rw [World.since_eq [] h.events]
    exact .nil
  | switched target reason h hnone =>
    obtain ⟨chosen, hname, -, hevents⟩ := h
    rw [World.since_eq [_] hevents]
    exact .cons (.switched chosen target reason hname) .nil
  | proposed target reason hcurrent hevents hpending =>
    rw [World.since_eq [_] hevents]
    exact .cons (.proposed target reason) .nil

theorem Announced.other {w w' : World P} {notice : Option Notice} (h : Announced w w' notice)
    {n : Notice} (hn : n ∈ notice) (hother : n.steers = false) :
    ∃ probed, n = ⟨"VPN is not reaching any server",
      (Decision.nothingReachable probed).describe, .critical⟩ := by
  cases h with
  | silent => cases hn
  | unreachable probed =>
    cases hn
    exact ⟨probed, rfl⟩
  | switched => cases hn; cases hother
  | proposed => cases hn; cases hother

theorem passes_told_step (r : Running P) (task : Task) :
    List.Forall₂ Tells (r.passed task) ((r.notice task).toList.filter Notice.steers) ∧
      ∀ n ∈ r.notice task, n.steers = false → ∃ probed, n = ⟨"VPN is not reaching any server",
        (Decision.nothingReachable probed).describe, .critical⟩ := by
  cases task with
  | wake =>
    have h := scheduledPass_announced r.world
    exact ⟨h.tells, fun n hn => h.other hn⟩
  | _ => exact ⟨.nil, fun n hn => by cases hn⟩

def Notice.switches (n : Notice) : Bool := n.summary = "VPN server switched"

/-- The server in use is the one of the last move that was told, or as it was; and a proposal that waits
is the last that was told of anything, or was there before. -/
structure AsTold (w w' : World P) (told : List Notice) : Prop where
  current : match told.find? Notice.switches with
    | none => w'.state.current = w.state.current
    | some n => ∃ target reason c, n.body = (Decision.switch target reason).describe ∧
        w'.state.current = some c ∧ Text.eqIgnoreAsciiCase c.server target.name = true
  pending : ∀ p, w'.state.pending = some p → match told.head? with
    | none => w.state.pending = some p
    | some n => ∃ reason, n = ⟨"A faster VPN server is available",
        (Decision.propose p.1 reason).describe, .normal⟩

theorem AsTold.trans {w v w' : World P} {earlier later : List Notice} (hv : AsTold w v earlier)
    (h : AsTold v w' later) : AsTold w w' (later ++ earlier) where
  current := by
    have hlater := h.current
    rw [List.find?_append]
    cases hfound : later.find? Notice.switches with
    | some n =>
      rw [hfound] at hlater
      exact hlater
    | none =>
      rw [hfound] at hlater
      rw [Option.none_or, hlater]
      exact hv.current
  pending p hp := by
    have hlater := h.pending p hp
    cases later with
    | nil => exact hv.pending p hlater
    | cons n rest => exact hlater

theorem Announced.asTold {w w' : World P} {notice : Option Notice} (h : Announced w w' notice) :
    AsTold w w' notice.toList := by
  have hdropped : ∀ {v : World P}, v.state.pending = none → ∀ p, v.state.pending ≠ some p := by
    intro v hnone p hp
    cases hnone.symm.trans hp
  cases h with
  | silent h =>
    refine ⟨h.current, fun p hp => ?_⟩
    rcases h.pending with hkept | hnone
    · exact hkept.symm.trans hp
    · exact absurd hp (hdropped hnone p)
  | unreachable probed h hnone => exact ⟨h.current, fun p hp => absurd hp (hdropped hnone p)⟩
  | switched target reason h hnone =>
    obtain ⟨chosen, hname, hcurrent, -⟩ := h
    exact ⟨⟨target, reason, _, rfl, hcurrent, hname⟩, fun p hp => absurd hp (hdropped hnone p)⟩
  | proposed target reason hcurrent hevents hpending =>
    refine ⟨hcurrent, fun p hp => ⟨reason, ?_⟩⟩
    rw [hpending p hp]

/-- In a run in which no client asks for anything, what the desktop was told last is how things are. -/
theorem unattended_told {r : Running P} {tasks : List Task}
    (halone : ∀ op, .client op ∉ tasks) :
    AsTold r.world (tasks.foldl Running.advance r).world (r.notices tasks) := by
  induction tasks generalizing r with
  | nil => exact ⟨rfl, fun _ hp => hp⟩
  | cons task tasks ih =>
    have hrest := ih (r := r.advance task) fun op hop => halone op (List.mem_cons_of_mem _ hop)
    refine AsTold.trans ?_ hrest
    cases task with
    | client op => exact absurd List.mem_cons_self (halone op)
    | idle time => exact ⟨rfl, fun _ hp => hp⟩
    | look => exact ⟨rfl, fun _ hp => hp⟩
    | wake => exact (scheduledPass_announced r.world).asTold

namespace Sample

/-- A client has asked for a pass, and the settings have been read again since. -/
def watched : Running (.linux log) :=
  .begin (step (step (step flaky (.connect (some "Achernar") none)) .autotune) .reload)

/-- An hour in which the scheduler looks, sleeps and wakes. -/
def hour : List Task := [.look, .idle (.ofSecs 3600), .wake]

end Sample

theorem hour_told :
    (Sample.watched.notices Sample.hour).map Notice.summary = ["A faster VPN server is available"] ∧
      AsTold Sample.watched.world (Sample.hour.foldl Running.advance Sample.watched).world
        (Sample.watched.notices Sample.hour) :=
  ⟨by decide +kernel, unattended_told (by simp [Sample.hour])⟩

end Vpnmgr
