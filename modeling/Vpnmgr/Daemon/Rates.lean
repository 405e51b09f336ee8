import Vpnmgr.Daemon.Candidates
import Vpnmgr.Daemon.Pairing
import Vpnmgr.Library.Noting

/-! Every recorded rate belongs to the path it was measured on. The operations are taken once more
with notes of what they measure and of where they record it. -/

namespace Vpnmgr

open Ieee Stateful Stateful.Action
open Stateful.Noting (quiet note Erases)

variable {P : Platform} {α : Type}

/-- A measurement, with the tunnel and the record of it at the time of the download. -/
structure Reading (P : Platform) where
  tunnel : Option P.Tunnel
  current : Option Connection
  sample : SpeedSample

def State.reading (s : State P) (sample : SpeedSample) : Reading P :=
  ⟨s.tunnel, s.current, sample⟩

/-- Where a rate is recorded: as that of the line, or of a server. -/
inductive Slot where
  | direct
  | server (name : String)

inductive Note (P : Platform) where
  | taken (r : Reading P)
  | recorded (slot : Slot) (r : Reading P)

namespace Noted

/-- An operation with notes. -/
abbrev Operation (P : Platform) := Noting (Note P) (World P) Error

def measure (request : ThroughputRequest) : Operation P (Reading P) := do
  let s ← quiet self
  let sample ← quiet (Vpnmgr.measure request)
  note (.taken (s.reading sample))
  pure (s.reading sample)

def recordThroughput (server : String) (r : Reading P) : Operation P Unit := do
  quiet (Vpnmgr.recordThroughput server r.sample.mbps)
  note (.recorded (.server server) r)

def recordDirect (r : Reading P) : Operation P Unit := do
  quiet (Vpnmgr.recordDirect r.sample.mbps)
  note (.recorded .direct r)

def calibrate (shouldMeasure : Bool) : Operation P Unit := do
  if shouldMeasure then
    match ← attempt (measure (← quiet self).selectRequest) with
    | .ok r => recordDirect r
    | .error (_ : Error) => pure ()
  else pure ()

def rankForConnect (measureFirst : Option Bool) : Operation P (List RankedServer) := do
  calibrate ((← quiet self).shouldMeasure measureFirst)
  quiet (sweep none)

def tryOut (candidate : RankedServer) (trial : Trial) (request : ThroughputRequest) :
    Operation P (Option F64) := do
  if (← quiet (waitUntilCarrying trial)) then
    match trial.download request with
    | .error _ => pure none
    | .ok sample =>
      let s ← quiet self
      note (.taken (s.reading sample))
      recordThroughput candidate.name (s.reading sample)
      pure (some sample.mbps)
  else pure none

def tryCandidates (target : F64) (request : ThroughputRequest) (first : Bool)
    (best : Option (RankedServer × F64)) : List RankedServer → Operation P Tried
  | [] => pure (.best best)
  | candidate :: rest => do
    let trial ← quiet nextTrial
    quiet (pointAt first candidate)
    match ← tryOut candidate trial request with
    | none => tryCandidates target request false best rest
    | some mbps =>
      if target ≤ mbps then pure (.settled (candidate.measuredAt mbps))
      else tryCandidates target request false (keepBest best candidate mbps) rest

def connectBest (measureFirst : Option Bool) : Operation P RankedServer := do
  let ranked ← rankForConnect measureFirst
  let s ← quiet self
  match ranked with
  | [] => quiet (fail (.allUnreachable 0))
  | first :: _ =>
    if s.attempts measureFirst ranked = 0 then
      quiet (establish first)
      pure first
    else
      let shortlist := ranked.take (s.attempts measureFirst ranked)
      match ← tryCandidates s.acceptance s.selectRequest true none shortlist with
      | .settled chosen => pure chosen
      | .best best => quiet (settleFor shortlist best)

def connect (server : Option String) (measureFirst : Option Bool) : Operation P RankedServer := do
  match (← quiet self).current, server with
  | some current, _ => quiet (fail (.alreadyConnected current.server))
  | none, none => connectBest measureFirst
  | none, some name =>
    let chosen ← quiet (probeNamed name)
    quiet (establish chosen)
    pure chosen

def speedtest : Operation P SpeedReport := do
  let s ← quiet self
  let minMbps := s.config.autotune.minMbps
  let r ← measure s.throughputRequest
  match s.current with
  | some current => recordThroughput current.server r
  | none => recordDirect r
  return {
    tunnelled := if s.current.isSome then some r.sample else none
    direct := if s.current.isNone then some r.sample else none
    server := s.current.map Connection.server
    minMbps
    meetsTarget := decide (minMbps ≤ r.sample.mbps)
    verdict := speedVerdict (s.current.map Connection.server) r.sample.mbps minMbps }

def baseline : Operation P SpeedReport := do
  let s ← quiet self
  match s.current with
  | none => speedtest
  | some current =>
    let minMbps := s.config.autotune.minMbps
    let tunnelled ← measure s.throughputRequest
    recordThroughput current.server tunnelled
    quiet disconnect
    let direct ← attempt (measure s.throughputRequest)
    let restored ← attempt (connect (some current.server) (some false))
    let direct ← lift direct
    let _ ← lift restored
    recordDirect direct
    return {
      tunnelled := some tunnelled.sample
      direct := some direct.sample
      server := some current.server
      minMbps
      meetsTarget := decide (minMbps ≤ tunnelled.sample.mbps)
      verdict :=
        baselineVerdict current.server tunnelled.sample.mbps direct.sample.mbps minMbps }

/-- What the daemon does next, with notes. The other operations measure no rate. -/
def turn (p : World P × List (Note P)) : Turn → World P × List (Note P)
  | .op (.connect server measure) => (connect server measure p).2
  | .op .speedtest => (speedtest p).2
  | .op (.baseline true) => (baseline p).2
  | t => (Vpnmgr.turn p.1 t, p.2)

/-! Without the notes each operation is the one of the runs. -/

theorem measure_erases (request : ThroughputRequest) :
    Erases Reading.sample (measure request : Operation P (Reading P)) (Vpnmgr.measure request) :=
  .read_bind _ fun _ => .bind_pure (.quiet _) fun _ => .note_bind _ (.pure _ _)

theorem recordThroughput_erases (server : String) (r : Reading P) :
    Erases id (recordThroughput server r) (Vpnmgr.recordThroughput server r.sample.mbps) :=
  .bind_pure (.quiet _) fun _ _ => rfl

theorem recordDirect_erases (r : Reading P) :
    Erases id (recordDirect r) (Vpnmgr.recordDirect r.sample.mbps) :=
  .bind_pure (.quiet _) fun _ _ => rfl

theorem calibrate_erases (shouldMeasure : Bool) :
    Erases id (calibrate shouldMeasure : Operation P Unit) (Vpnmgr.calibrate shouldMeasure) := by
  refine .ite (.bind (.quiet _) fun s => .bind (.attempt (measure_erases _)) fun r => ?_)
    (.pure _ _)
  cases r with
  | error e => exact .pure _ _
  | ok r => exact recordDirect_erases r

theorem rankForConnect_erases (measureFirst : Option Bool) :
    Erases id (rankForConnect measureFirst : Operation P _) (Vpnmgr.rankForConnect measureFirst) :=
  .bind (.quiet _) fun _ => .bind (calibrate_erases _) fun _ => .quiet _

theorem tryOut_erases (candidate : RankedServer) (trial : Trial) (request : ThroughputRequest) :
    Erases id (tryOut candidate trial request : Operation P (Option F64))
      (Vpnmgr.tryOut candidate trial request) := by
  refine .bind (.quiet _) fun carries => .ite ?_ (.pure _ _)
  cases trial.download request with
  | error e => exact .pure _ _
  | ok sample =>
    exact .read_bind _ fun s => .note_bind _ (.bind (recordThroughput_erases _ _) fun _ => .pure _ _)

theorem tryCandidates_erases (target : F64) (request : ThroughputRequest) (first : Bool)
    (best : Option (RankedServer × F64)) (candidates : List RankedServer) :
    Erases id (tryCandidates target request first best candidates : Operation P Tried)
      (Vpnmgr.tryCandidates target request first best candidates) := by
  induction candidates generalizing first best with
  | nil => exact .pure _ _
  | cons candidate rest ih =>
    refine .bind (.quiet _) fun trial => .bind (.quiet _) fun _ => ?_
    refine .bind (tryOut_erases _ _ _) fun rate => ?_
    cases rate with
    | none => exact ih _ _
    | some mbps => exact .ite (.pure _ _) (ih _ _)

theorem connectBest_erases (measureFirst : Option Bool) :
    Erases id (connectBest measureFirst : Operation P RankedServer)
      (Vpnmgr.connectBest measureFirst) := by
  refine .bind (rankForConnect_erases _) fun ranked => .bind (.quiet _) fun s => ?_
  cases ranked with
  | nil => exact .quiet _
  | cons first rest =>
    refine .ite (.bind (.quiet _) fun _ => .pure _ _) ?_
    refine .bind (tryCandidates_erases _ _ _ _ _) fun tried => ?_
    cases tried with
    | settled chosen => exact .pure _ _
    | best best => exact .quiet _

theorem connect_erases (server : Option String) (measureFirst : Option Bool) :
    Erases id (connect server measureFirst : Operation P RankedServer)
      (Vpnmgr.connect server measureFirst) := by
  refine .bind (.quiet _) fun s => ?_
  dsimp only [id]
  cases s.current with
  | some current => exact .quiet _
  | none =>
    cases server with
    | none => exact connectBest_erases _
    | some name => exact .bind (.quiet _) fun chosen => .bind (.quiet _) fun _ => .pure _ _

theorem speedtest_erases : Erases id (speedtest : Operation P SpeedReport) Vpnmgr.speedtest := by
  refine .bind (.quiet _) fun s => .bind (measure_erases _) fun r => ?_
  obtain ⟨_, _, _, _, current, _, _, _, _, _, _, _, _⟩ := s
  cases current with
  | some current => exact .bind (recordThroughput_erases _ _) fun _ => .pure _ _
  | none => exact .bind (recordDirect_erases _) fun _ => .pure _ _

theorem baseline_erases : Erases id (baseline : Operation P SpeedReport) Vpnmgr.baseline := by
  refine .bind (.quiet _) fun s => ?_
  dsimp only [id]
  cases s.current with
  | none => exact speedtest_erases
  | some current =>
    refine .bind (measure_erases _) fun tunnelled => ?_
    refine .bind (recordThroughput_erases _ _) fun _ => .bind (.quiet _) fun _ => ?_
    refine .bind (.attempt (measure_erases _)) fun direct => ?_
    refine .bind (.attempt (connect_erases _ _)) fun restored => ?_
    refine .bind (.lift direct _) fun direct => .bind (.lift restored id) fun _ => ?_
    exact .bind (recordDirect_erases _) fun _ => .pure _ _

/-- The worlds of the noted runs are those of the runs. -/
theorem turn_fst (p : World P × List (Note P)) (t : Turn) : (turn p t).1 = Vpnmgr.turn p.1 t := by
  unfold turn
  split
  · exact ((connect_erases _ _).state p).symm
  · exact (speedtest_erases.state p).symm
  · exact (baseline_erases.state p).symm
  · rfl

end Noted

/-! ### What records no rate -/

/-- The rate recorded for a server. -/
def State.rateOf (s : State P) (name : String) : Option F64 := (s.throughputSeen name).map (·.1)

/-- The ranking shows the recorded rates. -/
def State.ShowsRates (s : State P) : Prop := ∀ r ∈ s.lastRanking, r.mbps = s.rateOf r.name

/-- The recorded rates stay as they are. -/
structure RatesStay (w w' : World P) : Prop where
  directMbps : w'.state.directMbps = w.state.directMbps
  throughputSeen : w'.state.throughputSeen = w.state.throughputSeen
  shows : w.state.ShowsRates → w'.state.ShowsRates

instance : IsPreorder (World P) RatesStay where
  refl _ := ⟨rfl, rfl, id⟩
  trans _ _ _ h₁ h₂ := ⟨h₂.directMbps.trans h₁.directMbps,
    h₂.throughputSeen.trans h₁.throughputSeen, h₂.shows ∘ h₁.shows⟩

theorem ShowsRates.of_subset {s s' : State P} (hseen : s'.throughputSeen = s.throughputSeen)
    (hranking : s'.lastRanking ⊆ s.lastRanking) (h : s.ShowsRates) : s'.ShowsRates := by
  intro r hr
  rw [State.rateOf, hseen]
  exact h r (hranking hr)

theorem RatesStay.of_eq {w w' : World P} (hdirect : w'.state.directMbps = w.state.directMbps)
    (hseen : w'.state.throughputSeen = w.state.throughputSeen)
    (hranking : w'.state.lastRanking = w.state.lastRanking) : RatesStay w w' :=
  ⟨hdirect, hseen, ShowsRates.of_subset hseen (hranking ▸ List.Subset.refl _)⟩

theorem Fetches.rates {w w' : World P} (h : Fetches w w') : RatesStay w w' :=
  .of_eq h.directMbps h.throughputSeen h.lastRanking

theorem Steers.rates {w w' : World P} (h : Steers w w') : RatesStay w w' := by
  refine .of_eq ?_ ?_ ?_ <;> rw [h.state]

theorem rates_of_fetches {x : Daemon P α} (h : Within Fetches x) : Within RatesStay x :=
  h.mono fun _ _ => Fetches.rates

theorem rates_of_steers {x : Daemon P α} (h : Within Steers x) : Within RatesStay x :=
  h.mono fun _ _ => Steers.rates

theorem modify_rates {f : State P → State P} (hdirect : ∀ s, (f s).directMbps = s.directMbps)
    (hseen : ∀ s, (f s).throughputSeen = s.throughputSeen)
    (hranking : ∀ s, (f s).lastRanking = s.lastRanking) :
    Within RatesStay (modify f : Daemon P Unit) :=
  Within.update fun w => .of_eq (hdirect w.state) (hseen w.state) (hranking w.state)

theorem nextNetwork_rates : Within RatesStay (nextNetwork : Daemon P Network) :=
  fun _ => .of_eq rfl rfl rfl

theorem nextTrial_rates : Within RatesStay (nextTrial : Daemon P Trial) :=
  fun _ => .of_eq rfl rfl rfl

theorem probeNamed_rates (name : String) :
    Within RatesStay (probeNamed name : Daemon P RankedServer) :=
  probeNamed_within (rates_of_fetches serverList_fetches) (rates_of_fetches now_fetches)
    nextNetwork_rates name

/-- A sweep stores a ranking that shows the recorded rates. -/
theorem sweep_rates (country : Option String) :
    Within RatesStay (sweep country : Daemon P (List RankedServer)) := by
  have hkept : Within (fun w w' : World P => w'.state.directMbps = w.state.directMbps ∧
      w'.state.throughputSeen = w.state.throughputSeen) (sweep country) := by
    have : IsPreorder (World P) fun w w' => w'.state.directMbps = w.state.directMbps ∧
        w'.state.throughputSeen = w.state.throughputSeen :=
      { refl := fun _ => ⟨rfl, rfl⟩
        trans := fun _ _ _ h₁ h₂ => ⟨h₂.1.trans h₁.1, h₂.2.trans h₁.2⟩ }
    exact sweep_within (serverList_fetches.mono fun _ _ h => ⟨h.directMbps, h.throughputSeen⟩)
      (now_fetches.mono fun _ _ h => ⟨h.directMbps, h.throughputSeen⟩) (fun _ => ⟨rfl, rfl⟩)
      (fun _ => Within.update fun _ => ⟨rfl, rfl⟩) (fun _ => Within.update fun _ => ⟨rfl, rfl⟩) _
  intro w
  obtain ⟨hdirect, hseen⟩ := hkept w
  refine ⟨hdirect, hseen, fun hw => ?_⟩
  rcases h : sweep country w with ⟨e | ranking, w'⟩
  · rw [h] at hseen
    exact ShowsRates.of_subset hseen ((sweep_error h).1 ▸ List.Subset.refl _) hw
  · rw [h] at hseen
    obtain ⟨list, v, t, -, rfl, hstored, -⟩ := sweep_ok h
    intro r hr
    rw [hstored] at hr
    obtain ⟨scored, -, rfl⟩ := List.mem_map.mp hr
    rw [State.rateOf, hseen]
    rfl

theorem switch_rates (name : String) : Within RatesStay (switch name : Daemon P RankedServer) := by
  refine Within.bind (Within.read _) fun s => Within.ite (Within.fail _) ?_
  refine Within.bind (probeNamed_rates _) fun chosen => ?_
  refine Within.bind (rates_of_steers (retarget_steers _)) fun _ => ?_
  exact Within.bind (modify_rates (fun _ => rfl) (fun _ => rfl) fun _ => rfl) fun _ => Within.pure _

theorem settleFor_rates (shortlist : List RankedServer) (best : Option (RankedServer × F64)) :
    Within RatesStay (settleFor shortlist best : Daemon P RankedServer) :=
  settleFor_within (fun _ (_ : True) => rates_of_steers (moveTo_steers _))
    (fun _ w _ _ => (establish_steers _ w).rates) _ _ (fun _ _ => trivial) fun _ _ => trivial

theorem reload_rates : Within RatesStay (reload : Daemon P Unit) := by
  have hload : Within RatesStay (loadDisk : Daemon P (Config × ClientConfig)) := by
    refine Within.bind (fun _ => .of_eq rfl rfl rfl) fun disk => ?_
    exact Within.bind (Within.lift _) fun _ => Within.bind (Within.lift _) fun _ => Within.pure _
  refine Within.bind hload fun loaded => ?_
  refine Within.bind (modify_rates (fun _ => rfl) (fun _ => rfl) fun _ => rfl) fun _ => ?_
  exact Within.update fun w => ⟨rfl, rfl, ShowsRates.of_subset rfl fun _ => List.mem_of_mem_filter⟩

theorem record_rates (decision : Tuner.Decision) :
    Within RatesStay (record decision : Daemon P TuneReport) := by
  have hset : Within RatesStay (setPending decision : Daemon P Unit) := by
    cases decision with
    | propose target reason =>
      refine Within.bind (rates_of_fetches now_fetches) fun t => ?_
      refine Within.bind (modify_rates (fun _ => rfl) (fun _ => rfl) fun _ => rfl) fun _ => ?_
      exact Within.update fun _ => .of_eq rfl rfl rfl
    | _ => exact modify_rates (fun _ => rfl) (fun _ => rfl) fun _ => rfl
  intro w
  refine trans_of RatesStay (hset w) (record_within (fun _ _ => Fetches.rates) ?_ decision w)
  exact fun text => modify_rates (fun _ => rfl) (fun _ => rfl) fun _ => rfl

theorem autotune_rates : Within RatesStay (autotune : Daemon P TuneReport) := by
  have htune : Within RatesStay (tune : Daemon P TuneReport) :=
    tune_within switch_rates
      (fun _ => probeCurrent_within (rates_of_fetches serverList_fetches) nextNetwork_rates _)
      (sweep_rates _) (fun _ _ _ => rates_of_fetches (assess_fetches _ _ _)) record_rates
  refine Within.bind (rates_of_fetches now_fetches) fun t => ?_
  exact Within.bind (modify_rates (fun _ => rfl) (fun _ => rfl) fun _ => rfl) fun _ => htune

theorem approve_rates : Within RatesStay (approve : Daemon P RankedServer) := by
  refine Within.bind (Within.read _) fun s => ?_
  cases s.pending with
  | none => exact Within.fail _
  | some pending =>
    refine Within.bind (modify_rates (fun _ => rfl) (fun _ => rfl) fun _ => rfl) fun _ => ?_
    refine Within.bind (switch_rates _) fun moved => ?_
    exact Within.bind (modify_rates (fun _ => rfl) (fun _ => rfl) fun _ => rfl) fun _ => Within.pure _

theorem dismiss_rates : Within RatesStay (dismiss : Daemon P String) := by
  refine Within.bind (Within.read _) fun s => ?_
  cases s.pending with
  | none => exact Within.fail _
  | some pending =>
    refine Within.bind (modify_rates (fun _ => rfl) (fun _ => rfl) fun _ => rfl) fun _ => ?_
    refine Within.bind (Within.bind (Within.read _) fun s => ?_) fun _ => ?_
    · cases s.current with
      | none => exact Within.pure _
      | some current =>
        refine Within.bind (rates_of_fetches now_fetches) fun t => ?_
        exact modify_rates (fun _ => rfl) (fun _ => rfl) fun _ => rfl
    · exact Within.bind (modify_rates (fun _ => rfl) (fun _ => rfl) fun _ => rfl)
        fun _ => Within.pure _

theorem killswitch_rates (enable : Option Bool) :
    Within RatesStay (killswitch enable : Daemon P KillswitchReport) := by
  refine Within.bind ?_ fun _ =>
    Within.bind (Within.read _) fun m => Within.bind (Within.read _) fun s => Within.pure _
  match enable with
  | none => exact Within.pure _
  | some true =>
    refine Within.bind (Within.read _) fun s => Within.bind (fun _ => .of_eq rfl rfl rfl) fun _ => ?_
    refine Within.bind (fun _ => .of_eq rfl rfl rfl) fun _ => ?_
    exact modify_rates (fun _ => rfl) (fun _ => rfl) fun _ => rfl
  | some false =>
    refine Within.bind (fun _ => .of_eq rfl rfl rfl) fun _ => ?_
    refine Within.bind (fun _ => .of_eq rfl rfl rfl) fun _ => ?_
    exact modify_rates (fun _ => rfl) (fun _ => rfl) fun _ => rfl

theorem scheduledPass_rates : Within RatesStay (scheduledPass : Daemon P (Option TuneReport)) :=
  Within.bind (rates_of_fetches now_fetches) fun _ => Within.bind (Within.read _) fun _ =>
    Within.ite (Within.bind autotune_rates fun _ => Within.pure _) (Within.pure _)

/-- Wherever a pass is abandoned, it has recorded no rate. -/
theorem scheduled_rates : Async.WaitsIn RatesStay (Pass.scheduled : Pass.Part P (Option TuneReport)) :=
  Pass.scheduled_waits (rates_of_fetches now_fetches) (rates_of_fetches serverList_fetches)
    nextNetwork_rates (sweep_rates none) fun _ => modify_rates (fun _ => rfl) (fun _ => rfl) fun _ => rfl

/-! ### What the notes say -/

/-- A reading was taken on the path that a slot is for. -/
def Reading.On (r : Reading P) : Slot → Prop
  | .direct => r.tunnel = none
  | .server name => r.current.map Connection.server = some name

/-- The rate of a note of a measurement through a server. -/
def Note.through (name : String) : Note P → Option F64
  | .taken r => if r.current.map Connection.server = some name then some r.sample.mbps else none
  | .recorded _ _ => none

/-- The latest rate measured through a server. -/
def rateThrough (name : String) (notes : List (Note P)) : Option F64 :=
  notes.findSome? (Note.through name)

/-- The rate of a note that records the line rate. -/
def Note.line : Note P → Option F64
  | .recorded .direct r => some r.sample.mbps
  | _ => none

/-- What the notes say of the state beside them: each rate was recorded after it was measured, on the
path that it is recorded for, and the state has the latest of them. -/
structure Attributed (p : World P × List (Note P)) : Prop where
  path : ∀ slot r, .recorded slot r ∈ p.2 → .taken r ∈ p.2 ∧ r.On slot
  direct : p.1.state.direct = p.2.findSome? Note.line
  through : ∀ name, p.1.state.rateOf name = rateThrough name p.2
  shows : p.1.state.ShowsRates

/-- No note is lost, and the notes stay attributed. -/
structure Extends (p p' : World P × List (Note P)) : Prop where
  notes : p.2 ⊆ p'.2
  attributed : Attributed p → Attributed p'

instance : IsPreorder (World P × List (Note P)) Extends where
  refl _ := ⟨List.Subset.refl _, id⟩
  trans _ _ _ h₁ h₂ := ⟨List.Subset.trans h₁.notes h₂.notes, h₂.attributed ∘ h₁.attributed⟩

theorem RatesStay.extends {w w' : World P} (h : RatesStay w w') (notes : List (Note P)) :
    Extends (w, notes) (w', notes) where
  notes := List.Subset.refl _
  attributed hw := {
    path := hw.path
    direct := by
      rw [← hw.direct]
      exact congrArg (Option.map Prod.fst) h.directMbps
    through name := by
      rw [← hw.through name]
      exact congrArg (fun seen => (seen name).map Prod.fst) h.throughputSeen
    shows := h.shows hw.shows }

theorem quiet_extends {x : Daemon P α} (h : Within RatesStay x) :
    Within Extends (quiet x : Noted.Operation P α) := fun p => by
  rw [Noting.quiet_run]
  exact (h p.1).extends p.2

/-- A rate measured without a connection is none that was measured through a server. -/
theorem extends_taken {w : World P} {notes : List (Note P)} {r : Reading P}
    (hcurrent : r.current = none) : Extends (w, notes) (w, .taken r :: notes) where
  notes := List.subset_cons_self _ _
  attributed h := {
    path slot r' hr := by
      obtain ⟨htaken, hon⟩ := h.path slot r' (List.mem_of_ne_of_mem (by simp) hr)
      exact ⟨List.mem_cons_of_mem _ htaken, hon⟩
    direct := h.direct
    through name := by
      rw [h.through name, rateThrough, rateThrough, List.findSome?_cons, Note.through, hcurrent]
      rfl
    shows := h.shows }

theorem extends_recordDirect {p : World P × List (Note P)} {r : Reading P} (hr : .taken r ∈ p.2)
    (htunnel : r.tunnel = none) : Extends p (Noted.recordDirect r p).2 where
  notes := List.subset_cons_self _ _
  attributed h := {
    path slot r' hmem := by
      rcases List.mem_cons.mp hmem with hmem | hmem
      · cases hmem
        exact ⟨List.mem_cons_of_mem _ hr, htunnel⟩
      · obtain ⟨htaken, hon⟩ := h.path slot r' hmem
        exact ⟨List.mem_cons_of_mem _ htaken, hon⟩
    direct := rfl
    through := h.through
    shows := h.shows }

/-- A rate measured through a server and recorded as that server's. -/
theorem extends_recordThroughput {w : World P} {notes : List (Note P)} {r : Reading P}
    {name : String} (hr : r.current.map Connection.server = some name) :
    Extends (w, notes) (Noted.recordThroughput name r (w, .taken r :: notes)).2 where
  notes := List.Subset.trans (List.subset_cons_self _ _) (List.subset_cons_self _ _)
  attributed h := by
    have hrate : ∀ other, (w.state.withThroughput name r.sample.mbps
        (w.clock + w.outside.pace 0)).rateOf other =
          if other = name then some r.sample.mbps else w.state.rateOf other := by
      intro other
      rw [State.rateOf, State.withThroughput]
      dsimp only
      split <;> rfl
    refine ⟨fun slot r' hmem => ?_, h.direct, fun other => ?_, fun entry hentry => ?_⟩
    · rcases List.mem_cons.mp hmem with hmem | hmem
      · cases hmem
        exact ⟨List.mem_cons_of_mem _ List.mem_cons_self, hr⟩
      · obtain ⟨htaken, hon⟩ := h.path slot r' (List.mem_of_ne_of_mem (by simp) hmem)
        exact ⟨List.mem_cons_of_mem _ (List.mem_cons_of_mem _ htaken), hon⟩
    · refine (hrate other).trans ?_
      show _ = rateThrough other (.recorded (.server name) r :: .taken r :: notes)
      rw [rateThrough, List.findSome?_cons, Note.through, List.findSome?_cons, Note.through, hr,
        h.through other, rateThrough]
      by_cases hother : other = name
      · rw [if_pos hother, if_pos (by rw [hother])]
      · rw [if_neg hother, if_neg fun heq => hother (Option.some.inj heq).symm]
    · obtain ⟨before, hbefore, rfl⟩ := List.mem_map.mp hentry
      refine Eq.trans ?_ (hrate _).symm
      by_cases hname : before.name = name
      · simp [hname]
      · simpa [hname] using h.shows before hbefore

/-! ### The measuring operations -/

/-- A measurement fails and is not noted, or it succeeds and its reading is. -/
theorem measure_cases {request : ThroughputRequest} {p p' : World P × List (Note P)}
    {result : Except Error (Reading P)} (h : Noted.measure request p = (result, p')) :
    p'.1.state = p.1.state ∧ ((∃ e, result = .error e ∧ p'.2 = p.2) ∨
      ∃ r, result = .ok r ∧ p'.2 = .taken r :: p.2 ∧ r.tunnel = p.1.state.tunnel ∧
        r.current = p.1.state.current) := by
  simp only [Noted.measure, bind_run, Noting.quiet_run, self, read_run, Vpnmgr.measure,
    nextDownload, draw, lift_run] at h
  cases hsample : p.1.outside.download 0 request with
  | error e =>
    simp only [hsample, Except.mapError] at h
    obtain ⟨rfl, rfl⟩ := Prod.mk.inj h
    exact ⟨rfl, .inl ⟨_, rfl, rfl⟩⟩
  | ok sample =>
    simp only [hsample, Except.mapError] at h
    obtain ⟨rfl, rfl⟩ := Prod.mk.inj h
    exact ⟨rfl, .inr ⟨_, rfl, rfl, rfl, rfl⟩⟩

theorem extends_of_state {w w' : World P} (h : w'.state = w.state) (notes : List (Note P)) :
    Extends (w, notes) (w', notes) :=
  RatesStay.extends (.of_eq (by rw [h]) (by rw [h]) (by rw [h])) notes

/-- A measurement without a connection, whatever comes of it. -/
theorem measure_extends {request : ThroughputRequest} {p p' : World P × List (Note P)}
    {result : Except Error (Reading P)} (hcurrent : p.1.state.current = none)
    (h : Noted.measure request p = (result, p')) : Extends p p' := by
  obtain ⟨hstate, ⟨_, _, hnotes⟩ | ⟨r, _, hnotes, _, hr⟩⟩ := measure_cases h
  · obtain ⟨w', notes'⟩ := p'
    subst hnotes
    exact extends_of_state hstate _
  · obtain ⟨w', notes'⟩ := p'
    subst hnotes
    exact trans_of Extends (extends_of_state hstate _) (extends_taken (hr.trans hcurrent))

theorem self_bind {β : Type} (k : State P → Noted.Operation P β) (p : World P × List (Note P)) :
    (quiet self >>= k) p = k p.1.state p := rfl

/-- Measuring without a connection, and recording the line rate. -/
theorem calibrate_extends {shouldMeasure : Bool} {p : World P × List (Note P)}
    (htunnel : p.1.state.tunnel = none) (hcurrent : p.1.state.current = none) :
    Extends p (Noted.calibrate shouldMeasure p).2 := by
  rw [Noted.calibrate]
  split
  · rw [self_bind, attempt_bind]
    rcases h : Noted.measure p.1.state.selectRequest p with ⟨e | r, p'⟩
    · exact measure_extends hcurrent h
    · obtain ⟨-, ⟨_, hr, _⟩ | ⟨_, hr, hnotes, hon, _⟩⟩ := measure_cases h
      · cases hr
      · cases hr
        exact trans_of Extends (measure_extends hcurrent h)
          (extends_recordDirect (hnotes ▸ List.mem_cons_self) (hon.trans htunnel))
  · exact refl_of Extends p

theorem rankForConnect_extends {measureFirst : Option Bool} {p : World P × List (Note P)}
    (htunnel : p.1.state.tunnel = none) (hcurrent : p.1.state.current = none) :
    Extends p (Noted.rankForConnect measureFirst p).2 := by
  rw [Noted.rankForConnect, self_bind]
  refine Within.bind_at (calibrate_extends htunnel hcurrent) fun _ p' _ => ?_
  exact quiet_extends (sweep_rates none) p'

/-- Measuring the candidate that the tunnel is on. -/
theorem tryOut_extends {candidate : RankedServer} {trial : Trial} {request : ThroughputRequest}
    {p : World P × List (Note P)} (hp : p.1.state.current = some (.of candidate)) :
    Extends p (Noted.tryOut candidate trial request p).2 := by
  have hwaited : quiet (waitUntilCarrying trial) p = (.ok (p.1.state.tunnel.isSome &&
    carrying trial.since candidateReadyTimeout trial.polls), p) := rfl
  rw [Noted.tryOut, bind_run_ok hwaited]
  split
  · cases trial.download request with
    | error e => exact refl_of Extends p
    | ok sample =>
      have hr : (p.1.state.reading sample).current.map Connection.server = some candidate.name := by
        rw [State.reading, hp]
        rfl
      exact extends_recordThroughput hr
  · exact refl_of Extends p

theorem tryCandidates_extends (target : F64) (request : ThroughputRequest) (first : Bool)
    (best : Option (RankedServer × F64)) (candidates : List RankedServer) :
    Within Extends (Noted.tryCandidates target request first best candidates :
      Noted.Operation P Tried) := by
  induction candidates generalizing first best with
  | nil => exact Within.pure _
  | cons candidate rest ih =>
    refine Within.bind (quiet_extends nextTrial_rates) fun trial p => ?_
    have hpoint := quiet_extends (rates_of_steers (pointAt_steers first candidate)) p
    refine Within.bind_at hpoint fun _ p' hpointed => ?_
    rw [Noting.quiet_run] at hpointed
    obtain ⟨hok, rfl⟩ := Prod.mk.inj hpointed
    have hcurrent := (pointAt_points (Prod.ext hok rfl)).current
    refine Within.bind_at (tryOut_extends hcurrent) fun rate p' _ => ?_
    cases rate with
    | none => exact ih _ _ p'
    | some mbps => exact Within.ite (Within.pure _) (ih _ _) p'

theorem connectBest_extends {measureFirst : Option Bool} {p : World P × List (Note P)}
    (htunnel : p.1.state.tunnel = none) (hcurrent : p.1.state.current = none) :
    Extends p (Noted.connectBest measureFirst p).2 := by
  refine Within.bind_at (rankForConnect_extends htunnel hcurrent) fun ranked p' _ => ?_
  refine Within.bind (quiet_extends (Within.read _)) (fun s => ?_) p'
  cases ranked with
  | nil => exact quiet_extends (Within.fail _)
  | cons first rest =>
    refine Within.ite ?_ ?_
    · exact Within.bind (quiet_extends (rates_of_steers (establish_steers _))) fun _ => Within.pure _
    · refine Within.bind (tryCandidates_extends _ _ _ _ _) fun tried => ?_
      cases tried with
      | settled chosen => exact Within.pure _
      | best best => exact quiet_extends (settleFor_rates _ _)

theorem World.Paired.tunnel {w : World P} (h : w.Paired) (hcurrent : w.state.current = none) :
    w.state.tunnel = none := by
  rw [World.Paired, hcurrent] at h
  exact Option.isNone_iff_eq_none.mp (by simpa using h)

theorem connect_extends (server : Option String) (measureFirst : Option Bool)
    {p : World P × List (Note P)} (hp : p.1.Paired) :
    Extends p (Noted.connect server measureFirst p).2 := by
  rw [Noted.connect, self_bind]
  cases hcurrent : p.1.state.current with
  | some current => exact quiet_extends (Within.fail _) p
  | none =>
    cases server with
    | none => exact connectBest_extends (hp.tunnel hcurrent) hcurrent
    | some name =>
      refine Within.bind (quiet_extends (probeNamed_rates name)) (fun chosen => ?_) p
      exact Within.bind (quiet_extends (rates_of_steers (establish_steers _))) fun _ =>
        Within.pure _

/-- Measuring through a server and recording the rate as that server's, with what follows. -/
theorem measureThrough_extends {request : ThroughputRequest} {name : String} {β : Type}
    {k : Reading P → Noted.Operation P β} {p : World P × List (Note P)}
    (hp : p.1.state.current.map Connection.server = some name)
    (hk : ∀ r p', p'.1.state.tunnel = p.1.state.tunnel →
      p'.1.state.current = p.1.state.current → Extends p' (k r p').2) :
    Extends p ((do
      let r ← Noted.measure request
      Noted.recordThroughput name r
      k r : Noted.Operation P β) p).2 := by
  rcases h : Noted.measure request p with ⟨e | r, w', notes'⟩
  · rw [bind_run_error h]
    obtain ⟨hstate, ⟨_, _, hnotes⟩ | ⟨_, hr, _⟩⟩ := measure_cases h
    · subst hnotes
      exact extends_of_state hstate _
    · cases hr
  · rw [bind_run_ok h]
    obtain ⟨hstate, ⟨_, hr, _⟩ | ⟨_, hr, hnotes, _, hcurrent⟩⟩ := measure_cases h
    · cases hr
    · cases hr
      subst hnotes
      have hrecorded : Extends (w', p.2) _ := extends_recordThroughput (hcurrent ▸ hp)
      refine trans_of Extends (trans_of Extends (extends_of_state hstate _) hrecorded) ?_
      have htunnel : w'.state.tunnel = p.1.state.tunnel := congrArg State.tunnel hstate
      have hcurrent : w'.state.current = p.1.state.current := congrArg State.current hstate
      exact hk r _ htunnel hcurrent

theorem speedtest_extends {p : World P × List (Note P)} (hp : p.1.Paired) :
    Extends p (Noted.speedtest p).2 := by
  rw [Noted.speedtest, self_bind]
  cases hcurrent : p.1.state.current with
  | some current =>
    refine measureThrough_extends (by rw [hcurrent]; rfl) fun r p' _ _ => ?_
    exact refl_of Extends p'
  | none =>
    rcases h : Noted.measure p.1.state.throughputRequest p with ⟨e | r, p'⟩
    · rw [bind_run_error h]
      exact measure_extends hcurrent h
    · rw [bind_run_ok h]
      refine trans_of Extends (measure_extends hcurrent h) ?_
      obtain ⟨-, ⟨_, hr, _⟩ | ⟨_, hr, hnotes, htunnel, _⟩⟩ := measure_cases h
      · cases hr
      · cases hr
        have hrecorded := extends_recordDirect (p := p') (hnotes ▸ List.mem_cons_self)
          (htunnel.trans (hp.tunnel hcurrent))
        exact hrecorded

/-- What follows the measurement through the tunnel: only a direct rate is recorded, and it was
measured after the tunnel was gone. -/
theorem restore_extends {current : Connection} {request : ThroughputRequest}
    {report : Reading P → SpeedReport} (p : World P × List (Note P)) :
    Extends p ((do
      quiet disconnect
      let direct ← attempt (Noted.measure request)
      let restored ← attempt (Noted.connect (some current.server) (some false))
      let direct ← lift direct
      let _ ← lift restored
      Noted.recordDirect direct
      return report direct : Noted.Operation P SpeedReport) p).2 := by
  refine Within.bind_at (quiet_extends (rates_of_steers disconnect_steers) p) fun _ p' hdown => ?_
  rw [Noting.quiet_run] at hdown
  obtain ⟨hok, rfl⟩ := Prod.mk.inj hdown
  rcases disconnect_cases (Prod.ext hok rfl) with ⟨_, hr, _⟩ | ⟨_, _, _, _, _, _, _, hstate, _⟩
  · cases hr
  have hcurrent : (disconnect p.1).2.state.current = none := by rw [hstate]
  have htunnel : (disconnect p.1).2.state.tunnel = none := by rw [hstate]
  generalize (disconnect p.1).2 = w at hcurrent htunnel
  rw [attempt_bind]
  rcases h : Noted.measure request (w, p.2) with ⟨result, p'⟩
  refine trans_of Extends (measure_extends hcurrent h) ?_
  have hpaired : p'.1.Paired := by
    rw [World.Paired, (measure_cases h).1, hcurrent, htunnel]
    rfl
  rw [attempt_bind]
  have hconnect := connect_extends (some current.server) (some false) hpaired
  refine trans_of Extends hconnect ?_
  cases result with
  | error e => exact refl_of Extends _
  | ok direct =>
    obtain ⟨-, ⟨_, hr, _⟩ | ⟨_, hr, hnotes, hon, _⟩⟩ := measure_cases h
    · cases hr
    cases hr
    have htaken := hconnect.notes (hnotes ▸ List.mem_cons_self : Note.taken direct ∈ p'.2)
    cases (Noted.connect (some current.server) (some false) p').1 with
    | error e => exact refl_of Extends _
    | ok _ => exact extends_recordDirect htaken (hon.trans htunnel)

theorem baseline_extends {p : World P × List (Note P)} (hp : p.1.Paired) :
    Extends p (Noted.baseline p).2 := by
  rw [Noted.baseline, self_bind]
  cases hcurrent : p.1.state.current with
  | none => exact speedtest_extends hp
  | some current =>
    exact measureThrough_extends (by rw [hcurrent]; rfl) fun r p' _ _ => restore_extends p'

/-! ### Runs with notes -/

theorem turn_extends (t : Turn) {p : World P × List (Note P)} (hp : p.1.Paired) :
    Extends p (Noted.turn p t) := by
  have hquiet : RatesStay p.1 (turn p.1 t) → Extends p (turn p.1 t, p.2) := (·.extends p.2)
  cases t with
  | abandoned at_ =>
    refine hquiet ?_
    rw [turn]
    cases hwait : (Pass.scheduled.waits p.1)[at_]? with
    | none => exact refl_of RatesStay p.1
    | some w' => exact scheduled_rates p.1 w' (List.mem_of_getElem? hwait)
  | op op =>
    cases op with
    | connect server measure => exact connect_extends _ _ hp
    | speedtest => exact speedtest_extends hp
    | baseline confirm =>
      cases confirm with
      | false => exact hquiet (refl_of RatesStay p.1)
      | true => exact baseline_extends hp
    | disconnect => exact hquiet (rates_of_steers disconnect_steers p.1)
    | switch server => exact hquiet (switch_rates _ p.1)
    | test country => exact hquiet (sweep_rates _ p.1)
    | servers country limit all => exact hquiet (servers_fetches _ _ _ p.1).rates
    | reload => exact hquiet (reload_rates p.1)
    | autotune => exact hquiet (autotune_rates p.1)
    | approve => exact hquiet (approve_rates p.1)
    | dismiss => exact hquiet (dismiss_rates p.1)
    | killswitch enable => exact hquiet (killswitch_rates _ p.1)
    | scheduledPass => exact hquiet (scheduledPass_rates p.1)

theorem Starts.attributed {w : World P} (h : Starts w) : Attributed (w, []) := by
  obtain ⟨_, _, _, _, _, hloaded⟩ := h.loads
  have hstate : ∀ {s : State P} {config client}, s = .loaded config client →
      s.direct = none ∧ (∀ name, s.rateOf name = none) ∧ s.lastRanking = [] := by
    rintro s config client rfl
    exact ⟨rfl, fun _ => rfl, rfl⟩
  obtain ⟨hdirect, hrate, hranking⟩ := hstate hloaded
  exact ⟨fun _ _ hr => absurd hr List.not_mem_nil, hdirect, hrate,
    fun r hr => absurd (hranking ▸ hr) List.not_mem_nil⟩

/-- The ranking that clients read has the recorded rates. -/
theorem State.ShowsRates.served {s : State P} (h : s.ShowsRates) {t : Instant} {limit : Option Nat}
    {r : RankedServer} (hr : r ∈ s.lastRankingAt t limit) : r.mbps = s.rateOf r.name := by
  obtain ⟨entry, hentry, rfl⟩ := List.mem_map.mp (State.lastRankingAt_subset hr)
  have hentry := h entry hentry
  rw [State.rateOf] at hentry ⊢
  cases hseen : s.throughputSeen entry.name with
  | none => rw [hseen] at hentry; simpa [hseen] using hentry
  | some seen => simp [hseen]

/-- Wherever operations and abandoned passes lead, with notes of every download that was measured and
of every rate that was recorded: a rate recorded as the line's was measured while there was no tunnel,
one recorded for a server while the connection was to that server, the state has the latest of them,
and the ranking that clients read shows for each server the latest rate measured through it. -/
theorem rates_attributed {start : World P} (hstart : Starts start) :
    (∀ w, Reaches turn (fun _ _ => True) start w →
      ∃ notes, Reaches Noted.turn (fun _ _ => True) (start, []) (w, notes)) ∧
    ∀ w notes, Reaches Noted.turn (fun _ _ => True) (start, []) (w, notes) →
      (∀ r, .recorded .direct r ∈ notes → .taken r ∈ notes ∧ r.tunnel = none) ∧
      (∀ name r, .recorded (.server name) r ∈ notes →
        .taken r ∈ notes ∧ r.current.map Connection.server = some name) ∧
      w.state.direct = notes.findSome? Note.line ∧
      (∀ name, w.state.rateOf name = rateThrough name notes) ∧
      ∀ t limit, ∀ r ∈ w.state.lastRankingAt t limit, r.mbps = rateThrough r.name notes := by
  refine ⟨fun w h => ?_, fun w notes h => ?_⟩
  · induction h with
    | refl => exact ⟨[], .here⟩
    | @tail v _ _ hmove ih =>
      obtain ⟨notes, hnotes⟩ := ih
      obtain ⟨t, _, rfl⟩ := hmove
      refine ⟨(Noted.turn (v, notes) t).2, ?_⟩
      rw [← Noted.turn_fst (v, notes) t]
      exact hnotes.next trivial
  · have hholds : w.Paired ∧ Attributed (w, notes) := by
      refine h.keeps (I := fun p => p.1.Paired ∧ Attributed p) (fun p t _ hp => ⟨?_, ?_⟩)
        ⟨hstart.paired, hstart.attributed⟩
      · rw [Noted.turn_fst]
        exact turn_paired p.1 t hp.1
      · exact (turn_extends t hp.1).attributed hp.2
    obtain ⟨-, hw⟩ := hholds
    refine ⟨fun r => hw.path .direct r, fun name r => hw.path (.server name) r, hw.direct,
      hw.through, fun t limit r hr => ?_⟩
    exact (hw.shows.served hr).trans (hw.through r.name)

/-- Two servers that answer probes, and downloads that are measured. -/
def Sample.quick : World (.linux Sample.log) :=
  world config linuxMachine
    { outside config pairList pairReply linuxFaults with
      download := fun _ _ => .ok { mbps := 90, bytes := 25000000, elapsedMs := 2222, truncated := false } }

/-- A speed test of the line, a sweep, a connection, and a speed test of the server. -/
def Sample.noted : World (.linux Sample.log) × List (Note (.linux Sample.log)) :=
  Noted.turn (Noted.turn (Noted.turn (Noted.turn (quick, []) (.op .speedtest)) (.op (.test none)))
    (.op (.connect (some "Achernar") none))) (.op .speedtest)

theorem noted_attributed :
    Sample.noted.1.state.direct = Sample.noted.2.findSome? Note.line ∧
    ∀ t limit, ∀ r ∈ Sample.noted.1.state.lastRankingAt t limit,
      r.mbps = rateThrough r.name Sample.noted.2 := by
  have hstart : Starts Sample.quick := Sample.world_starts Sample.config_valid rfl _ _
  have hrun : Reaches Noted.turn (fun _ _ => True) (Sample.quick, []) Sample.noted :=
    .next (.next (.next (.next .here trivial) trivial) trivial) trivial
  obtain ⟨-, -, hdirect, -, hranking⟩ :=
    (rates_attributed hstart).2 Sample.noted.1 Sample.noted.2 hrun
  exact ⟨hdirect, hranking⟩

end Vpnmgr
