import Vpnmgr.Daemon.Candidates
import Vpnmgr.Library.Least

/-! Which candidate `connect` stays on: the first whose rate reaches the target, in the order of the
ranking, and where none does the first of the fastest. -/

namespace Vpnmgr

open Ieee Stateful Stateful.Action

variable {P : Platform} {target : F64} {outcomes : List (RankedServer × Option F64)}

/-! ### The fastest outcome -/

/-- The key that is least for the fastest outcome. A candidate that was not measured has none. -/
def speed (o : RankedServer × Option F64) : Option (WithBot (WithTop ℚ))ᵒᵈ :=
  o.2.map fun rate => OrderDual.toDual rate.place

/-- What the loop keeps, as an outcome with its key. -/
def keyed (b : RankedServer × F64) : (RankedServer × Option F64) × (WithBot (WithTop ℚ))ᵒᵈ :=
  ((b.1, some b.2), OrderDual.toDual b.2.place)

theorem keepRated_number {best : Option (RankedServer × F64)} {o : RankedServer × Option F64}
    (hbest : ∀ b, best = some b → b.2 ≠ .nan) (ho : o.2 ≠ some .nan) :
    ∀ b, keepRated best o = some b → b.2 ≠ .nan := by
  obtain ⟨candidate, rate⟩ := o
  cases rate with
  | none => exact hbest
  | some rate =>
    intro b hb
    change (if best.all (fun b => b.2 < rate) then some (candidate, rate) else best) = some b at hb
    split at hb
    · cases hb
      exact fun h => ho (congrArg some h)
    · exact hbest b hb

theorem keep_speed {best : Option (RankedServer × F64)} {o : RankedServer × Option F64}
    (hbest : ∀ b, best = some b → b.2 ≠ .nan) (ho : o.2 ≠ some .nan) :
    Least.keep speed (best.map keyed) o = (keepRated best o).map keyed := by
  obtain ⟨candidate, rate⟩ := o
  cases rate with
  | none => rfl
  | some rate =>
    cases best with
    | none => rfl
    | some b =>
      have hrate : rate ≠ .nan := fun h => ho (congrArg some h)
      have hlt := F64.lt_iff_place (hbest b rfl) hrate
      change (if OrderDual.toDual rate.place < OrderDual.toDual b.2.place then _ else _) =
        Option.map keyed (if (some b).all (fun b => b.2 < rate) then _ else _)
      simp only [OrderDual.toDual_lt_toDual, Option.all_some, decide_eq_true_eq, hlt]
      split <;> rfl

theorem foldl_keep_speed {best : Option (RankedServer × F64)}
    (hbest : ∀ b, best = some b → b.2 ≠ .nan) (hrates : ∀ o ∈ outcomes, o.2 ≠ some .nan) :
    outcomes.foldl (Least.keep speed) (best.map keyed) =
      (outcomes.foldl keepRated best).map keyed := by
  induction outcomes generalizing best with
  | nil => rfl
  | cons o rest ih =>
    have ho := hrates o List.mem_cons_self
    rw [List.foldl_cons, List.foldl_cons, keep_speed hbest ho]
    exact ih (keepRated_number hbest ho) fun x hx => hrates x (List.mem_cons_of_mem _ hx)

/-- The rates before are lower than `rate`, and those after are no higher. -/
def FirstFastest (before : List (RankedServer × Option F64)) (rate : F64)
    (after : List (RankedServer × Option F64)) : Prop :=
  (∀ x ∈ before, ∀ r, x.2 = some r → r < rate) ∧ ∀ x ∈ after, ∀ r, x.2 = some r → r ≤ rate

/-- Where the rates are numbers the loop keeps the first of the fastest, and some server where one
was measured. -/
theorem fastest_first (hrates : ∀ o ∈ outcomes, o.2 ≠ some .nan)
    (hmeasured : ∃ o ∈ outcomes, o.2.isSome) : ∃ server rate before after,
      fastest outcomes = some (server, rate) ∧ outcomes = before ++ (server, some rate) :: after ∧
        FirstFastest before rate after := by
  have hscan := Least.scanned_foldl speed outcomes
  rw [← Option.map_none, foldl_keep_speed (fun _ h => by cases h) hrates] at hscan
  cases hfastest : outcomes.foldl keepRated none with
  | none =>
    rw [hfastest] at hscan
    obtain ⟨o, ho, hsome⟩ := hmeasured
    obtain ⟨rate, hrate⟩ := Option.isSome_iff_exists.mp hsome
    have hkey : speed o = none := hscan o ho
    rw [speed, hrate] at hkey
    cases hkey
  | some best =>
    rw [hfastest] at hscan
    obtain ⟨before, after, hsplit, _, hbefore, hafter⟩ := hscan
    have hmem : (best.1, some best.2) ∈ outcomes := by
      rw [hsplit]
      exact List.mem_append_right _ List.mem_cons_self
    have hbest : best.2 ≠ .nan := fun h => hrates _ hmem (congrArg some h)
    refine ⟨best.1, best.2, before, after, hfastest, hsplit, fun x hx r hr => ?_,
      fun x hx r hr => ?_⟩
    · have hnumber : r ≠ .nan := by
        rintro rfl
        exact hrates x (by rw [hsplit]; exact List.mem_append_left _ hx) hr
      exact (F64.lt_iff_place hnumber hbest).mpr (hbefore x hx _ (by rw [speed, hr]; rfl))
    · have hnumber : r ≠ .nan := by
        rintro rfl
        refine hrates x ?_ hr
        rw [hsplit]
        exact List.mem_append_right _ (List.mem_cons_of_mem _ hx)
      exact (F64.le_iff_place hnumber hbest).mpr (hafter x hx _ (by rw [speed, hr]; rfl))

/-! ### What the trials leave behind -/

/-- The moves of the tunnel onto servers in turn, the latest first. Where `first` is set the tunnel
comes up on the first of them. -/
def moves (first : Bool) : List RankedServer → List Event
  | [] => []
  | server :: rest =>
    moves false rest ++ [if first then .up server.endpoint else .switched server.endpoint]

/-- Each rate that was measured is recorded for its own server, and nothing for another. -/
structure Recorded (tried : List (RankedServer × Option F64)) (w w' : World P) : Prop where
  measured : ∀ x ∈ tried, ∀ rate, x.2 = some rate →
    ∃ t, w'.state.throughputSeen x.1.name = some (rate, t)
  others : ∀ name, (∀ x ∈ tried, x.1.name = name → x.2 = none) →
    w'.state.throughputSeen name = w.state.throughputSeen name

/-- The tunnel was moved onto the servers tried, in their order, and what was measured is
recorded. -/
structure Visited (first : Bool) (tried : List (RankedServer × Option F64)) (w w' : World P) :
    Prop extends Recorded tried w w' where
  events : w'.events = moves first (tried.map Prod.fst) ++ w.events

theorem Visited.nil (first : Bool) (w : World P) : Visited first [] w w where
  measured _ hx := absurd hx List.not_mem_nil
  others _ _ := rfl
  events := rfl

theorem Visited.cons {first : Bool} {o : RankedServer × Option F64}
    {rest : List (RankedServer × Option F64)} {w u w' : World P}
    (hname : ∀ x ∈ rest, x.1.name ≠ o.1.name) (hhead : Visited first [o] w u)
    (hrest : Visited false rest u w') : Visited first (o :: rest) w w' where
  measured := by
    intro x hx rate hrate
    rcases List.mem_cons.mp hx with rfl | hx
    · rw [hrest.others x.1.name fun y hy heq => absurd heq (hname y hy)]
      exact hhead.measured x List.mem_cons_self rate hrate
    · exact hrest.measured x hx rate hrate
  others := by
    intro name hnone
    rw [hrest.others name fun x hx => hnone x (List.mem_cons_of_mem _ hx)]
    exact hhead.others name fun x hx => hnone x (by simp at hx; simp [hx])
  events := by
    rw [hrest.events, hhead.events]
    simp [moves]

theorem moveTo_run {chosen : RankedServer} {w w' : World P} {r : Except Error Unit}
    (htunnel : w.state.tunnel.isSome = true) (h : moveTo chosen w = (r, w')) :
    (∃ e, r = .error (.tunnel e)) ∨ (r = .ok () ∧ w'.events = .switched chosen.endpoint :: w.events ∧
      w'.state.throughputSeen = w.state.throughputSeen) := by
  rcases hretarget : retarget chosen w with ⟨r', v⟩
  rcases retarget_cases hretarget with ⟨hnone, _⟩ | ⟨_, e, _, _, _, rfl, _⟩ |
    ⟨_, _, _, _, rfl, hstate, hevents⟩
  · rw [hnone] at htunnel
    cases htunnel
  · have hstop := h.symm.trans (bind_run_error (x := retarget chosen) hretarget)
    cases hstop
    exact .inl ⟨e, rfl⟩
  · have hmoved := h.symm.trans (bind_run_ok (x := retarget chosen) hretarget)
    cases hmoved
    refine .inr ⟨rfl, hevents, ?_⟩
    change v.state.throughputSeen = w.state.throughputSeen
    rw [hstate]

/-- Pointing the tunnel at a candidate fails on a call of the backend, or is one move. -/
theorem pointAt_run {first : Bool} {candidate : RankedServer} {w w' : World P}
    {r : Except Error Unit} (hup : first = false → w.state.tunnel.isSome = true)
    (h : pointAt first candidate w = (r, w')) :
    (∃ e, r = .error (.tunnel e)) ∨ (r = .ok () ∧ w'.events = moves first [candidate] ++ w.events ∧
      w'.state.throughputSeen = w.state.throughputSeen) := by
  cases first with
  | true =>
    rcases establish_cases h with ⟨e, _, hr, _⟩ | ⟨_, e, _, _, _, _, hr, _⟩ |
      ⟨_, _, _, _, hr, hstate, hevents⟩
    · exact .inl ⟨e, hr⟩
    · exact .inl ⟨e, hr⟩
    · refine .inr ⟨hr, hevents, ?_⟩
      rw [hstate]
  | false => exact moveTo_run (hup rfl) h

theorem Recorded.kept {candidate : RankedServer} {w w' : World P}
    (h : w'.state.throughputSeen = w.state.throughputSeen) :
    Recorded [(candidate, none)] w w' where
  measured := by
    intro x hx rate hrate
    rw [List.mem_singleton.mp hx] at hrate
    cases hrate
  others name _ := congrFun h name

/-- Trying a candidate out records the rate, if there is one. -/
theorem tryOut_recorded {candidate : RankedServer} {trial : Trial} {request : ThroughputRequest}
    {w w' : World P} {rate : Option F64}
    (h : tryOut candidate trial request w = (.ok rate, w')) : Recorded [(candidate, rate)] w w' := by
  obtain ⟨carries, v, hwait, h⟩ := bind_ok h
  cases hwait
  split at h
  · cases hdownload : trial.download request with
    | error e =>
      rw [hdownload] at h
      cases h
      exact .kept rfl
    | ok sample =>
      rw [hdownload] at h
      obtain ⟨_, u, hrecord, h⟩ := bind_ok h
      cases hrecord
      cases h
      constructor
      · intro x hx rate hrate
        rw [List.mem_singleton.mp hx] at hrate ⊢
        cases hrate
        exact ⟨_, if_pos rfl⟩
      · intro name hnone
        have hother : name ≠ candidate.name := by
          rintro rfl
          cases hnone _ List.mem_cons_self rfl
        exact if_neg hother
  · cases h
    exact .kept rfl

/-- How the trials end: on the first of the outcomes that reached the target, with nothing after it
tried, or with every candidate tried. -/
def Toured (target : F64) (first : Bool) (outcomes : List (RankedServer × Option F64))
    (w w' : World P) : Tried → Prop
  | .settled chosen => ∃ before o after rate, outcomes = before ++ o :: after ∧
      o.2 = some rate ∧ target ≤ rate ∧ (∀ x ∈ before, ¬Reached target x) ∧
      chosen = o.1.measuredAt rate ∧ w'.Points o.1 ∧ Visited first (before ++ [o]) w w'
  | .best _ => Visited first outcomes w w'

theorem Toured.cons {first : Bool} {o : RankedServer × Option F64} {w u w' : World P} {tried : Tried}
    (hname : ∀ x ∈ outcomes, x.1.name ≠ o.1.name) (ho : ¬Reached target o)
    (hhead : Visited first [o] w u) (h : Toured target false outcomes u w' tried) :
    Toured target first (o :: outcomes) w w' tried := by
  cases tried with
  | settled chosen =>
    obtain ⟨before, o', after, rate, rfl, hrate, hreached, hbefore, hchosen, hpoints, hvisited⟩ := h
    refine ⟨o :: before, o', after, rate, rfl, hrate, hreached,
      List.forall_mem_cons.mpr ⟨ho, hbefore⟩, hchosen, hpoints, ?_⟩
    refine Visited.cons (fun x hx => hname x ?_) hhead hvisited
    rcases List.mem_append.mp hx with hx | hx
    · exact List.mem_append_left _ hx
    · rw [List.mem_singleton.mp hx]
      exact List.mem_append_right _ List.mem_cons_self
  | best b => exact Visited.cons hname hhead h

/-- The loop over the candidates, where every move succeeds. -/
theorem tryCandidates_tour {request : ThroughputRequest} {first : Bool}
    {best : Option (RankedServer × F64)} {candidates : List RankedServer} {w w' : World P}
    {r : Except Error Tried} (hup : first = false → w.state.tunnel.isSome = true)
    (hnames : (candidates.map RankedServer.name).Nodup) (hmoves : ∀ e, r ≠ .error (.tunnel e))
    (h : tryCandidates target request first best candidates w = (r, w')) : ∃ tried,
      r = .ok tried ∧ Toured target first (rated w.outside.trial request candidates) w w' tried := by
  induction candidates generalizing first best w with
  | nil =>
    cases h
    exact ⟨_, rfl, Visited.nil first w'⟩
  | cons candidate rest ih =>
    obtain ⟨hname, hrest⟩ := List.nodup_cons.mp hnames
    rcases hpoint : pointAt first candidate (after nextTrial w) with ⟨r', v⟩
    rcases pointAt_run (w := after nextTrial w) hup hpoint with ⟨e, rfl⟩ | ⟨rfl, hevents, hseen⟩
    · have hstop := h.symm.trans (bind_run_error (x := pointAt first candidate) hpoint)
      cases hstop
      exact absurd rfl (hmoves e)
    · have hpoints := pointAt_points hpoint
      rcases htry : tryOut candidate (w.outside.trial 0) request v with ⟨rate, u⟩
      cases tryOut_run hpoints.tunnel htry
      have hkept := ((tryOut_samples _ _ _).run htry).toMeasures
      have htrial : u.outside.trial = later w.outside.trial := by
        rw [hkept.trial, ((pointAt_steers _ _).run hpoint).outside]
        rfl
      have hafter : u.Points candidate := hpoints.measures hkept
      have hrecorded := tryOut_recorded htry
      have hhead : Visited first [(candidate, (w.outside.trial 0).rate request)] w u :=
        { measured := hrecorded.measured
          others := fun name hnone => (hrecorded.others name hnone).trans (congrFun hseen name)
          events := hkept.events.trans hevents }
      have hothers : ∀ x ∈ rated u.outside.trial request rest, x.1.name ≠ candidate.name := by
        intro x hx heq
        have hmem : x.1 ∈ rest := by
          rw [← rated_fst u.outside.trial request rest]
          exact List.mem_map_of_mem hx
        exact hname (heq ▸ List.mem_map_of_mem hmem)
      have hrun := h.symm.trans ((bind_run_ok (x := pointAt first candidate) hpoint).trans
        (bind_run_ok (x := tryOut candidate (w.outside.trial 0) request) htry))
      rw [rated, ← htrial]
      cases hrate : (w.outside.trial 0).rate request with
      | none =>
        rw [hrate] at hrun hhead
        obtain ⟨tried, hr, htoured⟩ := ih (fun _ => hafter.tunnel) hrest hrun.symm
        refine ⟨tried, hr, htoured.cons hothers ?_ hhead⟩
        rintro ⟨_, hsome, _⟩
        cases hsome
      | some rate =>
        rw [hrate] at hrun hhead
        dsimp only at hrun
        by_cases hreach : target ≤ rate
        · rw [if_pos hreach] at hrun
          cases hrun
          exact ⟨_, rfl, [], _, _, rate, rfl, rfl, hreach, fun _ hx => absurd hx List.not_mem_nil,
            rfl, hafter, hhead⟩
        · rw [if_neg hreach] at hrun
          obtain ⟨tried, hr, htoured⟩ := ih (fun _ => hafter.tunnel) hrest hrun.symm
          refine ⟨tried, hr, htoured.cons hothers ?_ hhead⟩
          rintro ⟨_, hsome, hle⟩
          cases hsome
          exact hreach hle

/-! ### What `connect` picks -/

/-- Settling for a server moves back to it unless the tunnel is on it. -/
theorem returnTo_run {server last : RankedServer} {w w' : World P} {r : Except Error Unit}
    (hlast : w.Points last) (hsame : last.name = server.name → last = server)
    (hmoves : ∀ e, r ≠ .error (.tunnel e)) (h : returnTo server w = (r, w')) :
    r = .ok () ∧ w'.Points server ∧ w'.state.throughputSeen = w.state.throughputSeen ∧
      w'.events = (if last.name = server.name then [] else [.switched server.endpoint]) ++
        w.events := by
  have hif : (if last.name ≠ server.name then moveTo server else pure () : Daemon P Unit) w =
      (r, w') := by
    rw [← h, returnTo, self, read_bind, hlast.current]
    simp [Connection.of]
  by_cases hname : last.name = server.name
  · rw [if_neg (not_not.mpr hname)] at hif
    cases hif
    obtain rfl := hsame hname
    exact ⟨rfl, hlast, rfl, by rw [if_pos rfl]; rfl⟩
  · rw [if_pos hname] at hif
    rcases moveTo_run hlast.tunnel hif with ⟨e, rfl⟩ | ⟨rfl, hevents, hseen⟩
    · exact absurd rfl (hmoves e)
    · exact ⟨rfl, moveTo_points hif, hseen, by rw [if_neg hname]; exact hevents⟩

/-- Settling for one of the outcomes, with the tunnel on the last of them: it is moved back to unless
it is the last itself. -/
theorem settleFor_run {shortlist : List RankedServer} {server : RankedServer} {rate : F64}
    {before after : List (RankedServer × Option F64)} {w w' : World P} {r : Except Error RankedServer}
    (hlast : ∀ s, ((before ++ (server, some rate) :: after).map Prod.fst).getLast? = some s →
      w.Points s)
    (hnames : ∀ x ∈ after, x.1.name ≠ server.name) (hmoves : ∀ e, r ≠ .error (.tunnel e))
    (h : settleFor shortlist (some (server, rate)) w = (r, w')) :
    r = .ok (server.measuredAt rate) ∧ w'.Points server ∧
      w'.state.throughputSeen = w.state.throughputSeen ∧
      w'.events = (if after = [] then [] else [.switched server.endpoint]) ++ w.events := by
  obtain ⟨last, hpoints, hsame, hempty⟩ : ∃ last, w.Points last ∧
      (last.name = server.name → last = server) ∧ (last.name = server.name ↔ after = []) := by
    rcases List.eq_nil_or_concat after with rfl | ⟨init, x, rfl⟩
    · exact ⟨server, hlast _ (by simp), fun _ => rfl, iff_of_true rfl rfl⟩
    · have hname := hnames x (by simp)
      refine ⟨x.1, hlast _ ?_, fun h => absurd h hname, iff_of_false hname (by simp)⟩
      rw [List.concat_eq_append, ← List.cons_append, ← List.append_assoc, List.map_append]
      exact List.getLast?_concat
  rcases hreturn : returnTo server w with ⟨r', v⟩
  have hreturned : ∀ e, r' ≠ .error (.tunnel e) := by
    rintro e rfl
    have hstop := h.symm.trans (bind_run_error (x := returnTo server) hreturn)
    cases hstop
    exact hmoves e rfl
  obtain ⟨rfl, hserver, hseen, hevents⟩ := returnTo_run hpoints hsame hreturned hreturn
  have hsettled := h.symm.trans (bind_run_ok (x := returnTo server) hreturn)
  cases hsettled
  refine ⟨rfl, hserver, hseen, ?_⟩
  rw [hevents]
  simp only [hempty]

/-- Candidates are only tried where the settings ask for it, and then as many as they ask for. -/
theorem outcomes_fst {measureFirst : Option Bool} {ranked : List RankedServer} {w : World P}
    (h : w.outcomes measureFirst ranked ≠ []) :
    w.state.attempts measureFirst ranked ≠ 0 ∧ (w.outcomes measureFirst ranked).map Prod.fst =
      ranked.take w.state.config.autotune.verifyCandidates := by
  have hattempts : w.state.attempts measureFirst ranked ≠ 0 := by
    intro hzero
    refine h ?_
    rw [World.outcomes, hzero]
    rfl
  refine ⟨hattempts, ?_⟩
  rw [World.outcomes, rated_fst]
  unfold State.attempts at hattempts ⊢
  split at hattempts
  · rw [if_pos ‹_›, ← List.take_eq_take_min]
  · exact absurd rfl hattempts

/-- Where every move succeeds, some candidate is measured and the names differ, `connect` picks the
first candidate whose rate reaches the target and tries none after it, and where there is none the
first of the fastest, to which it moves back. -/
theorem connectBest_picks {measureFirst : Option Bool} {ranked : List RankedServer} {w v : World P}
    (hrank : rankForConnect measureFirst w = (.ok ranked, v))
    (hnames : (ranked.map RankedServer.name).Nodup)
    (hrates : ∀ o ∈ v.outcomes measureFirst ranked, o.2 ≠ some .nan)
    (hmeasured : ∃ o ∈ v.outcomes measureFirst ranked, o.2.isSome)
    (hmoves : ∀ e, (connectBest measureFirst w).1 ≠ .error (.tunnel e)) :
    ∃ before o after rate w', connectBest measureFirst w = (.ok (o.1.measuredAt rate), w') ∧
      w'.Points o.1 ∧ o.2 = some rate ∧ v.outcomes measureFirst ranked = before ++ o :: after ∧
      (before ++ o :: after).map Prod.fst = ranked.take v.state.config.autotune.verifyCandidates ∧
      ((v.state.acceptance ≤ rate ∧ (∀ x ∈ before, ¬Reached v.state.acceptance x) ∧
          Visited true (before ++ [o]) v w') ∨
        ((∀ x ∈ before ++ o :: after, ¬Reached v.state.acceptance x) ∧
          FirstFastest before rate after ∧ Recorded (before ++ o :: after) v w' ∧
          w'.events = (if after = [] then [] else [.switched o.1.endpoint]) ++
            moves true ((before ++ o :: after).map Prod.fst) ++ v.events)) := by
  have hnonempty : v.outcomes measureFirst ranked ≠ [] := by
    rintro hnil
    obtain ⟨o, ho, _⟩ := hmeasured
    rw [hnil] at ho
    cases ho
  obtain ⟨hattempts, hfst⟩ := outcomes_fst hnonempty
  rcases hrun : connectBest measureFirst w with ⟨r, w'⟩
  rw [hrun] at hmoves
  rw [connectBest, bind_run_ok hrank, self, read_bind] at hrun
  cases ranked with
  | nil => exact absurd (by rw [World.outcomes, List.take_nil]; rfl) hnonempty
  | cons first rest =>
    dsimp only at hrun
    rw [if_neg hattempts] at hrun
    set ranked := first :: rest
    set shortlist := ranked.take (v.state.attempts measureFirst ranked) with hshortlist
    have hshort : (shortlist.map RankedServer.name).Nodup :=
      hnames.sublist ((List.take_sublist _ _).map _)
    rcases htry : tryCandidates v.state.acceptance v.state.selectRequest true none shortlist v with
      ⟨tried, u⟩
    have htried : ∀ e, tried ≠ .error (.tunnel e) := by
      rintro e rfl
      have hstop := hrun.symm.trans (bind_run_error htry)
      cases hstop
      exact hmoves e rfl
    obtain ⟨tried, rfl, htoured⟩ := tryCandidates_tour (by rintro ⟨⟩) hshort htried htry
    rw [bind_run_ok htry] at hrun
    change Toured _ _ (v.outcomes measureFirst ranked) _ _ _ at htoured
    cases tried with
    | settled chosen =>
      cases hrun
      obtain ⟨before, o, after, rate, hsplit, hrate, hreached, hbefore, rfl, hpoints, hvisited⟩ :=
        htoured
      rw [hsplit] at hfst
      exact ⟨before, o, after, rate, w', rfl, hpoints, hrate, hsplit, hfst,
        .inl ⟨hreached, hbefore, hvisited⟩⟩
    | best best =>
      have hprevious : ∀ server, none = some server → v.Points server := by rintro _ ⟨⟩
      obtain ⟨hnone, hbest, hlast⟩ := tryCandidates_ok hprevious htry
      obtain ⟨server, rate, before, after, hfastest, hsplit, hfirst⟩ :=
        fastest_first hrates hmeasured
      have hshortlist_fst : shortlist = (before ++ (server, some rate) :: after).map Prod.fst := by
        rw [← hsplit, World.outcomes, rated_fst]
      have hothers : ∀ x ∈ after, x.1.name ≠ server.name := by
        intro x hx heq
        rw [hshortlist_fst] at hshort
        simp only [List.map_append, List.map_cons, List.map_map] at hshort
        have hserver := (List.nodup_cons.mp (List.nodup_append.mp hshort).2.1).1
        exact hserver (heq ▸ List.mem_map_of_mem hx)
      change best = fastest (v.outcomes measureFirst ranked) at hbest
      change ∀ o ∈ v.outcomes measureFirst ranked, ¬Reached v.state.acceptance o at hnone
      rw [hbest, hfastest] at hrun
      rw [hshortlist_fst, Option.or_none] at hlast
      obtain ⟨rfl, hpoints, hseen, hevents⟩ := settleFor_run hlast hothers hmoves hrun
      have hvisited : Visited true (v.outcomes measureFirst ranked) v u := htoured
      rw [hsplit] at hfst hnone hvisited
      refine ⟨before, (server, some rate), after, rate, w', rfl, hpoints, rfl, hsplit, hfst,
        .inr ⟨hnone, hfirst, ⟨?_, ?_⟩, ?_⟩⟩
      · rw [hseen]
        exact hvisited.measured
      · rw [hseen]
        exact hvisited.others
      · rw [hevents, hvisited.events, List.append_assoc]

namespace Sample

/-- Two servers that carry traffic as soon as the tunnel is on them, the second at a higher rate. -/
def carryingPair : World (.linux log) :=
  { pair linuxFaults with
    outside.trial := fun n =>
      { since := 0
        polls := [⟨0, some 1⟩]
        download := fun _ => .ok ⟨F64.ofNat (n + 1), 1000, 100, false⟩ } }

end Sample

theorem carrying_pair_picked : ∃ o rate w',
    connectBest none Sample.carryingPair = (.ok (RankedServer.measuredAt o rate), w') ∧
      w'.Points o := by
  obtain ⟨ranked, hrank⟩ := run_ok (x := rankForConnect none) (s := Sample.carryingPair)
    (by decide +kernel)
  have hnames : (rankForConnect none Sample.carryingPair).1.toOption.map
      (List.map RankedServer.name) = some ["Achernar", "Bellatrix"] := by decide +kernel
  have hrates : (rankForConnect none Sample.carryingPair).1.toOption.map
      (fun ranked => ((after (rankForConnect none) Sample.carryingPair).outcomes none ranked).map
        Prod.snd) = some [some (F64.ofNat 1), some (F64.ofNat 2)] := by decide +kernel
  have hmoves : ∃ o, (connectBest none Sample.carryingPair).1 = .ok o :=
    (run_ok (x := connectBest none) (s := Sample.carryingPair) (by decide +kernel)).imp
      fun _ h => congrArg Prod.fst h
  rw [hrank] at hnames hrates
  have hnames := Option.some.inj hnames
  have hrates : ((after (rankForConnect none) Sample.carryingPair).outcomes none ranked).map
      Prod.snd = [some (F64.ofNat 1), some (F64.ofNat 2)] := Option.some.inj hrates
  have hnumbers : ∀ o ∈ (after (rankForConnect none) Sample.carryingPair).outcomes none ranked,
      o.2 ≠ some .nan ∧ o.2.isSome := by
    intro o ho
    have hmem := List.mem_map_of_mem (f := Prod.snd) ho
    rw [hrates] at hmem
    rcases List.mem_cons.mp hmem with h | h
    · rw [h]; decide
    · rw [List.mem_singleton.mp h]; decide
  obtain ⟨o, ho⟩ := List.exists_mem_of_ne_nil
    ((after (rankForConnect none) Sample.carryingPair).outcomes none ranked)
    (fun hnil => by rw [hnil] at hrates; cases hrates)
  obtain ⟨chosen, hchosen⟩ := hmoves
  obtain ⟨_, o, _, rate, w', hrun, hpoints, _⟩ := connectBest_picks hrank (by rw [hnames]; decide)
    (fun o ho => (hnumbers o ho).1) ⟨o, ho, (hnumbers o ho).2⟩
    (fun e h => by rw [hchosen] at h; cases h)
  exact ⟨o.1, rate, w', hrun, hpoints⟩

end Vpnmgr
