import Vpnmgr.Daemon.Schedule

/-! Connecting by trying candidates. What `connect` returns against the server that the tunnel is
on, and what a failed `connect` leaves behind. -/

namespace Vpnmgr

open Ieee Stateful Stateful.Action

variable {P : Platform}

/-- The endpoint most recently given to the backend with success. -/
def lastPointed : List Event → Option SocketAddr
  | [] => none
  | .up endpoint :: _ | .switched endpoint :: _ => some endpoint
  | _ :: events => lastPointed events

/-- The tunnel is on a server, by the record and by what was last given to the backend. -/
structure World.Points (w : World P) (server : RankedServer) : Prop where
  current : w.state.current = some (.of server)
  tunnel : w.state.tunnel.isSome = true
  pointed : lastPointed w.events = some server.endpoint

/-- What `connect` says is what the daemon records and what was last given to the backend. -/
def World.Reports (w : World P) (chosen : RankedServer) : Prop :=
  (∃ c, w.state.current = some c ∧ c.server = chosen.name ∧ c.endpoint = chosen.endpoint ∧
    c.entry = chosen.entry) ∧ lastPointed w.events = some chosen.endpoint

/-- One server, through one entry. -/
def RankedServer.Same (a b : RankedServer) : Prop :=
  a.name = b.name ∧ a.endpoint = b.endpoint ∧ a.entry = b.entry

instance (a b : RankedServer) : Decidable (a.Same b) := inferInstanceAs (Decidable (_ ∧ _ ∧ _))

theorem World.Points.reports_iff {w : World P} {server chosen : RankedServer}
    (h : w.Points server) : w.Reports chosen ↔ server.Same chosen := by
  unfold World.Reports RankedServer.Same
  rw [h.current, h.pointed]
  constructor
  · rintro ⟨⟨c, hc, hname, hendpoint, hentry⟩, _⟩
    cases hc
    exact ⟨hname, hendpoint, hentry⟩
  · rintro ⟨hname, hendpoint, hentry⟩
    exact ⟨⟨_, rfl, hname, hendpoint, hentry⟩, congrArg some hendpoint⟩

theorem World.Points.measures {w w' : World P} {server : RankedServer} (h : w.Points server)
    (hw : Measures w w') : w'.Points server where
  current := hw.current.trans h.current
  tunnel := by rw [hw.tunnel]; exact h.tunnel
  pointed := by rw [hw.events]; exact h.pointed

theorem World.Points.measuredAt {w : World P} {server : RankedServer} (h : w.Points server)
    (mbps : F64) : w.Points (server.measuredAt mbps) :=
  ⟨h.current, h.tunnel, h.pointed⟩

theorem establish_points {chosen : RankedServer} {w w' : World P}
    (h : establish chosen w = (.ok (), w')) : w'.Points chosen := by
  rcases establish_cases h with ⟨_, _, hr, _⟩ | ⟨_, _, _, _, _, _, hr, _⟩ |
    ⟨opened, tunnel, _, _, _, hstate, hevents⟩
  · cases hr
  · cases hr
  · refine ⟨?_, ?_, ?_⟩
    · rw [hstate]
    · rw [hstate]; rfl
    · rw [hevents]; rfl

theorem moveTo_points {chosen : RankedServer} {w w' : World P}
    (h : moveTo chosen w = (.ok (), w')) : w'.Points chosen := by
  obtain ⟨_, v, hv, h⟩ := bind_ok h
  cases h
  rcases retarget_cases hv with ⟨_, hr, _⟩ | ⟨_, _, _, _, _, hr, _⟩ |
    ⟨tunnel, tunnel', _, _, _, hstate, hevents⟩
  · cases hr
  · cases hr
  · refine ⟨rfl, ?_, ?_⟩
    · show v.state.tunnel.isSome = true
      rw [hstate]; rfl
    · show lastPointed v.events = _
      rw [hevents]; rfl

theorem pointAt_points {first : Bool} {candidate : RankedServer} {w w' : World P}
    (h : pointAt first candidate w = (.ok (), w')) : w'.Points candidate := by
  cases first with
  | true => exact establish_points h
  | false => exact moveTo_points h

/-! ### The outcomes of the trials -/

/-- The rate a trial measures, if the tunnel carries traffic in time and the download succeeds. -/
def Trial.rate (t : Trial) (request : ThroughputRequest) : Option F64 :=
  if carrying t.since candidateReadyTimeout t.polls then
    match t.download request with
    | .ok sample => some sample.mbps
    | .error _ => none
  else none

/-- Each candidate with the rate its trial measures. -/
def rated (trial : Nat → Trial) (request : ThroughputRequest) :
    List RankedServer → List (RankedServer × Option F64)
  | [] => []
  | candidate :: rest => (candidate, (trial 0).rate request) :: rated (later trial) request rest

/-- The best so far, after one more outcome. -/
def keepRated (best : Option (RankedServer × F64)) (o : RankedServer × Option F64) :
    Option (RankedServer × F64) :=
  match o.2 with
  | some mbps => keepBest best o.1 mbps
  | none => best

/-- An outcome that reached the target. -/
def Reached (target : F64) (o : RankedServer × Option F64) : Prop :=
  ∃ mbps, o.2 = some mbps ∧ target ≤ mbps

/-- What trying the candidates comes to: settled on one that reached the target, with the tunnel on
it, or none did and the tunnel is on the last of them. -/
def TriedWell (target : F64) (best : Option (RankedServer × F64))
    (outcomes : List (RankedServer × Option F64)) (last : Option RankedServer) (w' : World P) :
    Tried → Prop
  | .settled chosen => (∃ o ∈ outcomes, Reached target o) ∧ w'.Points chosen
  | .best b => (∀ o ∈ outcomes, ¬Reached target o) ∧ b = outcomes.foldl keepRated best ∧
      ∀ server, last = some server → w'.Points server

theorem TriedWell.cons {target : F64} {best : Option (RankedServer × F64)}
    {o : RankedServer × Option F64} {outcomes : List (RankedServer × Option F64)}
    {last : Option RankedServer} {w' : World P} {tried : Tried} (ho : ¬Reached target o)
    (h : TriedWell target (keepRated best o) outcomes last w' tried) :
    TriedWell target best (o :: outcomes) last w' tried := by
  cases tried with
  | settled chosen =>
    obtain ⟨⟨o', ho', hreached⟩, hpoints⟩ := h
    exact ⟨⟨o', List.mem_cons_of_mem _ ho', hreached⟩, hpoints⟩
  | best b =>
    obtain ⟨hnone, hbest, hlast⟩ := h
    exact ⟨List.forall_mem_cons.mpr ⟨ho, hnone⟩, hbest, hlast⟩

/-- On a tunnel that is up, trying a candidate out gives the rate of its trial. -/
theorem tryOut_run {candidate : RankedServer} {trial : Trial} {request : ThroughputRequest}
    {w w' : World P} {r : Except Error (Option F64)} (htunnel : w.state.tunnel.isSome = true)
    (h : tryOut candidate trial request w = (r, w')) : r = .ok (trial.rate request) := by
  obtain ⟨carries, v, hwait, h⟩ : ∃ carries v, waitUntilCarrying trial w = (.ok carries, v) ∧
      (if carries = true then _ else _ : Daemon P (Option F64)) v = (r, w') := ⟨_, _, rfl, h⟩
  cases hwait
  rw [htunnel, Bool.true_and] at h
  unfold Trial.rate
  by_cases hcarries : carrying trial.since candidateReadyTimeout trial.polls = true
  · rw [if_pos hcarries] at h ⊢
    cases hdownload : trial.download request with
    | error e => rw [hdownload] at h; cases h; rfl
    | ok sample => rw [hdownload] at h; cases h; rfl
  · rw [if_neg hcarries] at h ⊢
    cases h
    rfl

/-- The loop over the candidates. What the tunnel was on before matters only where none is left. -/
theorem tryCandidates_ok {target : F64} {request : ThroughputRequest} {first : Bool}
    {best : Option (RankedServer × F64)} {candidates : List RankedServer}
    {previous : Option RankedServer} {w w' : World P} {tried : Tried}
    (hprevious : ∀ server, previous = some server → w.Points server)
    (h : tryCandidates target request first best candidates w = (.ok tried, w')) :
    TriedWell target best (rated w.outside.trial request candidates)
      (candidates.getLast?.or previous) w' tried := by
  induction candidates generalizing first best previous w with
  | nil =>
    cases h
    exact ⟨fun o ho => absurd ho List.not_mem_nil, rfl, hprevious⟩
  | cons candidate rest ih =>
    obtain ⟨trial, v, hv, h⟩ := bind_ok h
    cases hv
    obtain ⟨_, v, hpoint, h⟩ := bind_ok h
    obtain ⟨rate, u, htry, h⟩ := bind_ok h
    have hpoints := pointAt_points hpoint
    have htrial : v.outside.trial = later w.outside.trial := by
      rw [((pointAt_steers _ _).run hpoint).outside]
    have hmeasures := ((tryOut_samples _ _ _).run htry).toMeasures
    have hrate := tryOut_run hpoints.tunnel htry
    have hlast : (candidate :: rest).getLast?.or previous = rest.getLast?.or (some candidate) := by
      rw [List.getLast?_cons]
      cases rest.getLast? <;> rfl
    have hafter : ∀ server, some candidate = some server → u.Points server := by
      rintro server ⟨⟩
      exact hpoints.measures hmeasures
    cases hrate
    rw [hlast, rated]
    cases hrate : (w.outside.trial 0).rate request with
    | none =>
      rw [hrate] at h
      rw [← htrial, ← hmeasures.trial]
      exact TriedWell.cons (fun ⟨_, hsome, _⟩ => by cases hsome) (ih hafter h)
    | some mbps =>
      rw [hrate] at h
      dsimp only at h
      by_cases hreach : target ≤ mbps
      · rw [if_pos hreach] at h
        cases h
        exact ⟨⟨_, List.mem_cons_self, _, rfl, hreach⟩, (hafter _ rfl).measuredAt _⟩
      · rw [if_neg hreach] at h
        rw [← htrial, ← hmeasures.trial]
        refine TriedWell.cons ?_ (ih hafter h)
        rintro ⟨mbps', hsome, hle⟩
        cases hsome
        exact hreach hle

theorem rated_fst (trial : Nat → Trial) (request : ThroughputRequest)
    (candidates : List RankedServer) :
    (rated trial request candidates).map Prod.fst = candidates := by
  induction candidates generalizing trial with
  | nil => rfl
  | cons candidate rest ih => rw [rated, List.map_cons, ih]

/-! ### What `connect` returns -/

/-- The best of the rates measured, the first of those as good. -/
def fastest (outcomes : List (RankedServer × Option F64)) : Option (RankedServer × F64) :=
  outcomes.foldl keepRated none

/-- The server to fall back on where none reached the target: the fastest that was measured, or the
first that was tried. -/
def dueServer (first : RankedServer) (outcomes : List (RankedServer × Option F64)) :
    RankedServer :=
  ((fastest outcomes).map Prod.fst).getD first

/-- The candidates that `connectBest` tries, with the rates their trials measure. -/
def World.outcomes (w : World P) (measureFirst : Option Bool) (ranked : List RankedServer) :
    List (RankedServer × Option F64) :=
  rated w.outside.trial w.state.selectRequest (ranked.take (w.state.attempts measureFirst ranked))

/-- The tunnel ends on the server that is due: no candidate is tried, one reaches the target, or the
last one tried is due, or has another name than a server that was measured and is moved back to. -/
def World.EndsOnDue (w : World P) (measureFirst : Option Bool) (ranked : List RankedServer) :
    Prop :=
  let outcomes := w.outcomes measureFirst ranked
  (∃ o ∈ outcomes, Reached w.state.acceptance o) ∨
    ∀ first last, outcomes.head? = some first → outcomes.getLast? = some last →
      last.1.Same (dueServer first.1 outcomes) ∨
        ((fastest outcomes).isSome ∧ last.1.name ≠ (dueServer first.1 outcomes).name)

/-- Settling for the best measured moves back to it, unless the tunnel is on a server of its name. -/
theorem returnTo_reports {server last : RankedServer} {mbps : F64} {w w' : World P}
    (hlast : w.Points last) (h : returnTo server w = (.ok (), w')) :
    w'.Reports (server.measuredAt mbps) ↔ last.Same server ∨ last.name ≠ server.name := by
  obtain ⟨_, _, hself, h⟩ := bind_ok h
  cases hself
  rw [hlast.current] at h
  by_cases hname : last.name = server.name
  · have hkept : w = w' := by
      simp [Connection.of, hname] at h
      exact h
    subst hkept
    rw [hlast.reports_iff, or_iff_left (not_not.mpr hname)]
    rfl
  · rw [if_pos (by simpa [Connection.of] using hname)] at h
    have hmoved := ((moveTo_points h).measuredAt mbps).reports_iff.mpr ⟨rfl, rfl, rfl⟩
    exact iff_of_true hmoved (.inr hname)

theorem ensureUp_reports {fallback last : RankedServer} {w w' : World P}
    (hlast : w.Points last) (h : ensureUp fallback w = (.ok (), w')) :
    w'.Reports fallback ↔ last.Same fallback := by
  obtain ⟨_, _, hself, h⟩ := bind_ok h
  cases hself
  rw [hlast.current] at h
  cases h
  exact hlast.reports_iff

/-- Where no candidate reached the target, the end of the loop and what it settles for decide. -/
theorem settleFor_reports {shortlist : List RankedServer} {best : Option (RankedServer × F64)}
    {first last chosen : RankedServer} {w w' : World P} (hfirst : shortlist.head? = some first)
    (hlast : w.Points last) (h : settleFor shortlist best w = (.ok chosen, w')) :
    w'.Reports chosen ↔ last.Same ((best.map Prod.fst).getD first) ∨
      (best.isSome ∧ last.name ≠ ((best.map Prod.fst).getD first).name) := by
  cases best with
  | some best =>
    obtain ⟨_, v, hreturn, h⟩ := bind_ok h
    cases h
    rw [returnTo_reports hlast hreturn]
    simp
  | none =>
    cases shortlist with
    | nil => cases hfirst
    | cons fallback rest =>
      cases hfirst
      obtain ⟨_, v, hensure, h⟩ := bind_ok h
      cases h
      rw [ensureUp_reports hlast hensure]
      simp

theorem connectBest_reports_iff {measureFirst : Option Bool} {chosen : RankedServer}
    {w w' : World P} (h : connectBest measureFirst w = (.ok chosen, w')) :
    ∃ ranked v, rankForConnect measureFirst w = (.ok ranked, v) ∧
      (w'.Reports chosen ↔ v.EndsOnDue measureFirst ranked) := by
  obtain ⟨ranked, v, hrank, h⟩ := bind_ok h
  refine ⟨ranked, v, hrank, ?_⟩
  obtain ⟨_, _, hself, h⟩ := bind_ok h
  cases hself
  cases hranked : ranked with
  | nil => rw [hranked] at h; cases h
  | cons first rest =>
    rw [hranked] at h
    dsimp only at h
    by_cases hattempts : v.state.attempts measureFirst (first :: rest) = 0
    · -- No candidate is tried.
      have hempty : v.outcomes measureFirst (first :: rest) = [] := by
        rw [World.outcomes, hattempts]; rfl
      rw [if_pos hattempts] at h
      obtain ⟨_, u, hup, h⟩ := bind_ok h
      cases h
      refine iff_of_true ((establish_points hup).reports_iff.mpr ⟨rfl, rfl, rfl⟩) (.inr ?_)
      rw [hempty]
      rintro _ _ ⟨⟩
    · rw [if_neg hattempts] at h
      obtain ⟨tried, u, htry, h⟩ := bind_ok h
      have hprevious : ∀ server, none = some server → v.Points server := by rintro _ ⟨⟩
      have htried := tryCandidates_ok hprevious htry
      have hshort : (v.outcomes measureFirst (first :: rest)).map Prod.fst =
          (first :: rest).take (v.state.attempts measureFirst (first :: rest)) := rated_fst _ _ _
      change TriedWell _ _ (v.outcomes measureFirst (first :: rest)) _ _ _ at htried
      rw [← hshort] at h htried
      cases tried with
      | settled chosen' =>
        cases h
        obtain ⟨hreached, hpoints⟩ := htried
        exact iff_of_true (hpoints.reports_iff.mpr ⟨rfl, rfl, rfl⟩) (.inl hreached)
      | best best =>
        obtain ⟨hnone, hbest, hpoints⟩ := htried
        obtain ⟨n, hn⟩ := Nat.exists_eq_succ_of_ne_zero hattempts
        generalize houtcomes : v.outcomes measureFirst (first :: rest) = outcomes at *
        rw [hn, List.take_succ_cons] at hshort
        obtain ⟨o, os, rfl⟩ := List.exists_cons_of_ne_nil
          (show outcomes ≠ [] by rintro rfl; cases hshort)
        have hlast : ((o :: os).map Prod.fst).getLast? = some ((o :: os).getLast (by simp)).1 := by
          rw [List.getLast?_map, List.getLast?_eq_some_getLast (by simp)]; rfl
        have hhead : ((o :: os).map Prod.fst).head? = some o.1 := rfl
        have hreports := settleFor_reports hhead (hpoints _ (by rw [hlast]; rfl)) h
        rw [hreports, World.EndsOnDue, houtcomes, hbest]
        constructor
        · intro hdue
          refine .inr fun first' last' hfirst' hlast' => ?_
          cases hfirst'
          rw [List.getLast?_eq_some_getLast (by simp)] at hlast'
          cases hlast'
          exact hdue
        · rintro (⟨o', ho', hreached⟩ | hdue)
          · exact absurd hreached (hnone o' ho')
          · exact hdue o _ rfl (List.getLast?_eq_some_getLast (by simp))

/-- `connect` reports the server that the tunnel is on exactly when a server was named, or the
trials of the candidates end on the one that is due. -/
theorem connect_reports_iff {server : Option String} {measureFirst : Option Bool}
    {chosen : RankedServer} {w w' : World P}
    (h : connect server measureFirst w = (.ok chosen, w')) :
    w'.Reports chosen ↔ server.isSome ∨ ∃ ranked v,
      rankForConnect measureFirst w = (.ok ranked, v) ∧ v.EndsOnDue measureFirst ranked := by
  obtain ⟨_, _, hself, h⟩ := bind_ok h
  cases hself
  cases hcurrent : w.state.current with
  | some current => rw [hcurrent] at h; cases h
  | none =>
    rw [hcurrent] at h
    cases server with
    | some name =>
      obtain ⟨server, v, _, h⟩ := bind_ok h
      obtain ⟨_, u, hup, h⟩ := bind_ok h
      cases h
      exact iff_of_true ((establish_points hup).reports_iff.mpr ⟨rfl, rfl, rfl⟩) (.inl rfl)
    | none =>
      obtain ⟨ranked, v, hrank, hiff⟩ := connectBest_reports_iff h
      rw [hiff]
      simp only [Option.isSome_none, Bool.false_eq_true, false_or]
      constructor
      · exact fun hdue => ⟨ranked, v, hrank, hdue⟩
      · rintro ⟨ranked', v', hrank', hdue⟩
        rw [hrank] at hrank'
        cases hrank'
        exact hdue

theorem named_connect_reports : ∃ chosen,
    (after (connect (some "Bellatrix") none) (Sample.pair Sample.linuxFaults)).Reports chosen := by
  obtain ⟨chosen, h⟩ := run_ok (x := connect (some "Bellatrix") none)
    (s := Sample.pair Sample.linuxFaults) (by decide +kernel)
  exact ⟨chosen, (connect_reports_iff h).mpr (.inl rfl)⟩

/-- Where no candidate carries traffic the first is reported, and the tunnel is on the last. -/
theorem connect_reports_another :
    ¬∀ (server : Option String) (measureFirst : Option Bool) (chosen : RankedServer)
      (w w' : World (.linux Sample.log)),
      connect server measureFirst w = (.ok chosen, w') → w'.Reports chosen := by
  intro hreports
  obtain ⟨chosen, h⟩ := run_ok (x := connect none none) (s := Sample.pair Sample.linuxFaults)
    (by decide +kernel)
  obtain ⟨⟨c, hc, hname, _⟩, _⟩ := hreports _ _ _ _ _ h
  have hchosen : ((connect none none (Sample.pair Sample.linuxFaults)).1.toOption.map
      RankedServer.name) = some "Achernar" := by decide +kernel
  have hcurrent : ((connect none none (Sample.pair Sample.linuxFaults)).2.state.current.map
      Connection.server) = some "Bellatrix" := by decide +kernel
  rw [h] at hchosen
  rw [hc, Option.map_some, hname] at hcurrent
  exact absurd (hchosen.symm.trans hcurrent) (by decide)

/-! ### What a failed `connect` leaves -/

/-- The daemon holds a tunnel and the record of a connection. -/
def World.Connected (w : World P) : Prop :=
  w.state.current.isSome = true ∧ w.state.tunnel.isSome = true

/-- The backend can be opened and brings the tunnel up on `chosen`. -/
def World.BringsUp (w : World P) (chosen : RankedServer) : Prop :=
  ∃ opened tunnel m, P.new (w.outside.faults.opens 0) w.machine = .ok opened ∧
    P.up (w.state.spec chosen) (w.outside.faults.ups 0)
      (w.state.fit (w.outside.surroundings 0) opened, w.machine) = (.ok (), tunnel, m)

theorem World.BringsUp.measures {w w' : World P} {chosen : RankedServer} (h : Measures w w') :
    w'.BringsUp chosen ↔ w.BringsUp chosen := by
  unfold World.BringsUp State.spec State.fit State.bypassRequest
  rw [h.config, h.client, h.machine, h.surroundings, h.faults]

theorem World.Points.connected {w : World P} {server : RankedServer} (h : w.Points server) :
    w.Connected :=
  ⟨by rw [h.current]; rfl, h.tunnel⟩

theorem World.Connected.measures {w w' : World P} (hw : w.Connected) (h : Measures w w') :
    w'.Connected := by
  unfold World.Connected
  rw [h.current, h.tunnel]
  exact hw

/-- A failed `establish` leaves the state alone, and fails on what the backend answers. -/
theorem establish_error {chosen : RankedServer} {w w' : World P} {e : Error}
    (h : establish chosen w = (.error e, w')) : w'.state = w.state ∧ ¬w.BringsUp chosen := by
  rcases establish_cases h with ⟨_, hnew, _, hstate, _⟩ | ⟨_, _, _, _, hnew, hup, _, hstate, _⟩ |
    ⟨_, _, _, _, hr, _⟩
  · refine ⟨hstate, fun ⟨_, _, _, hopened, _⟩ => ?_⟩
    rw [hnew] at hopened
    cases hopened
  · refine ⟨hstate, fun ⟨_, _, _, hopened, hbrought⟩ => ?_⟩
    rw [hnew] at hopened
    cases hopened
    rw [hup] at hbrought
    cases hbrought
  · cases hr

theorem establish_ok_bringsUp {chosen : RankedServer} {w w' : World P}
    (h : establish chosen w = (.ok (), w')) : w.BringsUp chosen := by
  rcases establish_cases h with ⟨_, _, hr, _⟩ | ⟨_, _, _, _, _, _, hr, _⟩ |
    ⟨opened, tunnel, hnew, hup, _⟩
  · cases hr
  · cases hr
  · exact ⟨opened, tunnel, _, hnew, hup⟩

/-- A connection, once recorded, stays recorded. -/
def StaysConnected (w w' : World P) : Prop := w.Connected → w'.Connected

instance : IsPreorder (World P) StaysConnected :=
  inferInstanceAs (IsPreorder (World P) fun w w' => w.Connected → w'.Connected)

/-- Moving an established tunnel leaves a connection recorded, even where it fails. -/
theorem moveTo_connected (chosen : RankedServer) :
    Within StaysConnected (moveTo chosen : Daemon P Unit) := by
  intro w hw
  rcases h : moveTo chosen w with ⟨e | _, w'⟩
  · rcases bind_error h with h | ⟨_, _, _, h⟩
    · rcases retarget_cases h with ⟨_, _, hkept⟩ | ⟨_, _, _, _, _, _, hstate, _⟩ |
        ⟨_, _, _, _, hr, _⟩
      · rw [hkept]; exact hw
      · refine ⟨?_, ?_⟩
        · rw [hstate]; exact hw.1
        · rw [hstate]; rfl
      · cases hr
    · cases h
  · exact (moveTo_points h).connected

theorem samples_staysConnected (w w' : World P) (h : Samples w w') : StaysConnected w w' :=
  fun hw => hw.measures h.toMeasures

theorem nextTrial_connected : Within StaysConnected (nextTrial : Daemon P Trial) :=
  fun _ hw => hw

theorem tryCandidates_connected (target : F64) (request : ThroughputRequest)
    (best : Option (RankedServer × F64)) (candidates : List RankedServer) :
    Within StaysConnected (tryCandidates target request false best candidates : Daemon P Tried) :=
  tryCandidates_within (.of_samples samples_staysConnected) nextTrial_connected (fun c _ => moveTo_connected c)
    _ _ _ _ fun _ _ => trivial

/-- Nothing is brought up where a connection is recorded. -/
theorem ensureUp_connected {fallback : RankedServer} {w : World P} (hw : w.Connected) :
    ensureUp fallback w = (.ok (), w) := by
  obtain ⟨c, hc⟩ := Option.isSome_iff_exists.mp hw.1
  simp [ensureUp, self, hc]

theorem settleFor_connected (shortlist : List RankedServer) (best : Option (RankedServer × F64)) :
    Within StaysConnected (settleFor shortlist best : Daemon P RankedServer) :=
  settleFor_within (fun c _ => moveTo_connected c)
    (fun _ _ _ hnone hw => absurd hw.1 (by rw [hnone]; exact Bool.false_ne_true)) _ _
    (fun _ _ => trivial) fun _ _ => trivial

/-- From the start, the first candidate decides whether anything is left. -/
theorem tryCandidates_first {target : F64} {request : ThroughputRequest}
    {best : Option (RankedServer × F64)} {candidate : RankedServer} {rest : List RankedServer}
    {w w' : World P} {r : Except Error Tried}
    (h : tryCandidates target request true best (candidate :: rest) w = (r, w')) :
    (w.BringsUp candidate ∧ w'.Connected) ∨
      (¬w.BringsUp candidate ∧ w'.state = w.state ∧ ∃ e, r = .error e) := by
  rcases hpoint : establish candidate (after nextTrial w) with ⟨e | _, v⟩
  · obtain ⟨hstate, hfails⟩ := establish_error hpoint
    have hstop := h.symm.trans (bind_run_error (x := establish candidate) hpoint)
    cases hstop
    exact .inr ⟨hfails, hstate, e, rfl⟩
  · have hbrought := establish_ok_bringsUp hpoint
    refine .inl ⟨hbrought, ?_⟩
    have hstays := tryOut_within (P := P) (.of_samples samples_staysConnected) candidate
      (w.outside.trial 0) best fun best => tryCandidates_connected target request best rest
    exact hstays.run ((bind_run_ok (x := establish candidate) hpoint).symm.trans h)
      (establish_points hpoint).connected

/-- Neither a connection nor a tunnel. -/
def World.Unconnected (w : World P) : Prop :=
  w.state.current = none ∧ w.state.tunnel = none

theorem World.Connected.not_unconnected {w : World P} (h : w.Connected) : ¬w.Unconnected := by
  intro hw
  rw [World.Connected, hw.1] at h
  cases h.1

theorem World.Unconnected.of_state {w w' : World P} (h : w.Unconnected)
    (hstate : w'.state = w.state) : w'.Unconnected := by
  rw [World.Unconnected, hstate]
  exact h

theorem World.Unconnected.measures {w w' : World P} (h : w.Unconnected) (hw : Measures w w') :
    w'.Unconnected := by
  rw [World.Unconnected, hw.current, hw.tunnel]
  exact h

/-- Candidates are tried, and the tunnel comes up on the first of them. -/
def World.FirstComesUp (w : World P) (measureFirst : Option Bool) : Prop :=
  ∃ ranked v first, rankForConnect measureFirst w = (.ok ranked, v) ∧ ranked.head? = some first ∧
    v.state.attempts measureFirst ranked ≠ 0 ∧ v.BringsUp first

theorem connectBest_unconnected_iff {measureFirst : Option Bool} {w w' : World P} {e : Error}
    (hw : w.Unconnected) (h : connectBest measureFirst w = (.error e, w')) :
    w'.Unconnected ↔ ¬w.FirstComesUp measureFirst := by
  rcases hrank : rankForConnect measureFirst w with ⟨e' | ranked, v⟩
  · have hv := hw.measures ((rankForConnect_measures _).run hrank)
    have hstop := h.symm.trans (bind_run_error hrank)
    cases hstop
    refine iff_of_true hv ?_
    rintro ⟨_, _, _, hok, _⟩
    rw [hrank] at hok
    cases hok
  · have hv := hw.measures ((rankForConnect_measures _).run hrank)
    rw [connectBest, bind_run_ok hrank, self, read_bind] at h
    have hup : w.FirstComesUp measureFirst ↔ ∃ first, ranked.head? = some first ∧
        v.state.attempts measureFirst ranked ≠ 0 ∧ v.BringsUp first := by
      unfold World.FirstComesUp
      rw [hrank]
      constructor
      · rintro ⟨_, _, first, heq, hfirst⟩
        cases heq
        exact ⟨first, hfirst⟩
      · rintro ⟨first, hfirst⟩
        exact ⟨_, _, first, rfl, hfirst⟩
    rw [hup]
    cases ranked with
    | nil =>
      cases h
      refine iff_of_true hv ?_
      rintro ⟨_, hnone, _⟩
      cases hnone
    | cons first rest =>
      dsimp only at h
      by_cases hattempts : v.state.attempts measureFirst (first :: rest) = 0
      · rw [if_pos hattempts] at h
        rcases bind_error h with h | ⟨_, _, _, h⟩
        · refine iff_of_true (hv.of_state (establish_error h).1) ?_
          rintro ⟨_, _, hsome, _⟩
          exact hsome hattempts
        · cases h
      · rw [if_neg hattempts] at h
        obtain ⟨n, hn⟩ := Nat.exists_eq_succ_of_ne_zero hattempts
        rw [hn, List.take_succ_cons] at h
        have hbrings : (∃ f, (first :: rest).head? = some f ∧
            v.state.attempts measureFirst (first :: rest) ≠ 0 ∧ v.BringsUp f) ↔
            v.BringsUp first := by
          simp [hattempts]
        rw [hbrings]
        rcases bind_error h with htry | ⟨tried, u, htry, h⟩
        · rcases tryCandidates_first htry with ⟨hbrought, hleft⟩ | ⟨hfails, hstate, _⟩
          · exact iff_of_false hleft.not_unconnected (not_not.mpr hbrought)
          · exact iff_of_true (hv.of_state hstate) hfails
        · rcases tryCandidates_first htry with ⟨hbrought, hleft⟩ | ⟨_, _, _, herror⟩
          · refine iff_of_false ?_ (not_not.mpr hbrought)
            cases tried with
            | settled chosen => cases h
            | best best => exact ((settleFor_connected _ _).run h hleft).not_unconnected
          · cases herror

theorem connect_none_run {w : World P} (hcurrent : w.state.current = none)
    (measureFirst : Option Bool) : connect none measureFirst w = connectBest measureFirst w := by
  simp [connect, self, hcurrent]

theorem connect_some_run {w : World P} (hcurrent : w.state.current = none) (name : String)
    (measureFirst : Option Bool) : connect (some name) measureFirst w =
      (do
        let chosen ← probeNamed name
        establish chosen
        pure chosen : Daemon P RankedServer) w := by
  simp [connect, self, hcurrent]

/-- A `connect` that fails leaves nothing behind exactly when it does not get as far as the first of
several candidates coming up. -/
theorem failed_connect_unconnected_iff {server : Option String} {measureFirst : Option Bool}
    {w w' : World P} {e : Error} (hw : w.Unconnected)
    (h : connect server measureFirst w = (.error e, w')) :
    w'.Unconnected ↔ ¬(server = none ∧ w.FirstComesUp measureFirst) := by
  cases server with
  | none =>
    rw [connect_none_run hw.1] at h
    rw [connectBest_unconnected_iff hw h]
    simp
  | some name =>
    rw [connect_some_run hw.1] at h
    refine iff_of_true ?_ (by simp)
    rcases bind_error h with h | ⟨chosen, v, hprobe, h⟩
    · exact hw.measures ((probeNamed_samples _).run h).toMeasures
    · have hv := hw.measures ((probeNamed_samples _).run hprobe).toMeasures
      rcases bind_error h with h | ⟨_, _, _, h⟩
      · exact hv.of_state (establish_error h).1
      · cases h

theorem unknown_connect_unconnected :
    (after (connect (some "Castor") none) (Sample.pair Sample.linuxFaults)).Unconnected := by
  obtain ⟨e, h⟩ := run_error (x := connect (some "Castor") none)
    (s := Sample.pair Sample.linuxFaults) (by decide +kernel)
  exact (failed_connect_unconnected_iff ⟨rfl, rfl⟩ h).mpr fun hnone => by cases hnone.1

/-- Where the second candidate cannot be moved to, `connect` fails and stays on the first. -/
theorem failed_connect_connected :
    ¬∀ (server : Option String) (measureFirst : Option Bool) (e : Error)
      (w w' : World (.linux Sample.log)),
      w.Unconnected → connect server measureFirst w = (.error e, w') → w'.Unconnected := by
  intro hclean
  obtain ⟨e, h⟩ := run_error (x := connect none none) (s := Sample.pair Sample.stuckFaults)
    (by decide +kernel)
  have hcurrent : (connect none none (Sample.pair Sample.stuckFaults)).2.state.current.isSome =
      true := by decide +kernel
  rw [(hclean _ _ _ _ _ ⟨rfl, rfl⟩ h).1] at hcurrent
  cases hcurrent

end Vpnmgr
