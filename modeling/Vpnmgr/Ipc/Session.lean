import Vpnmgr.Ipc.Answers

/-! The course of a run as its events tell it: the connection goes from down to up, from server to
server, and down again, and the proposals are each acted on once at most. -/

namespace Vpnmgr

open Ieee Stateful Stateful.Action

variable {P : Platform} {α : Type} {G : Server → Prop}

/-! ### The connection -/

/-- Where an event leads a connection that is down, or up on an endpoint, if it may happen there. -/
def Event.moves : Event → Option SocketAddr → Option (Option SocketAddr)
  | up endpoint, none => some (some endpoint)
  | switched endpoint, some _ => some (some endpoint)
  | down, some _ => some none
  | proposed _, connection => some connection
  | _, _ => none

/-- Where the events so far, the latest first, have led, if each could happen where it did. -/
def session : List Event → Option (Option SocketAddr)
  | [] => some none
  | e :: earlier => (session earlier).bind e.moves

/-- The events tell what is recorded of the connection, and the tunnel is there with it. -/
structure World.Follows (w : World P) : Prop where
  session : session w.events = some (w.state.current.map Connection.endpoint)
  paired : w.Paired

theorem Deed.follows {w w' : World P} (h : Deed G w w') (hw : w.Follows) : w'.Follows := by
  obtain ⟨hsession, hpaired⟩ := hw
  have hup : w.state.tunnel.isSome = true → ∃ c, w.state.current = some c := fun htunnel =>
    Option.isSome_iff_exists.mp (hpaired ▸ htunnel)
  cases h with
  | up chosen tunnel m hnone =>
    refine ⟨?_, rfl⟩
    rw [Vpnmgr.session, hsession, hnone]
    rfl
  | moved chosen tunnel m dismissed htunnel =>
    obtain ⟨c, hc⟩ := hup htunnel
    refine ⟨?_, rfl⟩
    rw [Vpnmgr.session, hsession, hc]
    rfl
  | stuck tunnel m htunnel =>
    obtain ⟨c, hc⟩ := hup htunnel
    exact ⟨hsession, by rw [World.Paired, hc]; rfl⟩
  | down m htunnel =>
    obtain ⟨c, hc⟩ := hup htunnel
    refine ⟨?_, rfl⟩
    rw [Vpnmgr.session, hsession, hc]
    rfl
  | proposed target =>
    refine ⟨?_, hpaired⟩
    rw [Vpnmgr.session, hsession]
    rfl
  | _ => exact ⟨hsession, hpaired⟩

theorem Starts.follows {w : World P} (h : Starts w) : w.Follows := by
  refine ⟨?_, h.paired⟩
  obtain ⟨_, _, _, _, _, hloaded⟩ := h.loads
  rw [h.events, hloaded]
  rfl

/-- What is left when the daemon is asked to stop: the tuner has been abandoned wherever it was, and
the tunnel goes if anything is connected. -/
def shutdown (w : World P) : World P := if w.state.current.isSome then after disconnect w else w

/-- Stopping takes down the tunnel that is there, with one call of the backend, and touches nothing
else. -/
theorem shutdown_cases {w : World P} (hw : w.Paired) :
    (w.state.tunnel = none ∧ shutdown w = w) ∨
    ∃ tunnel result tunnel' m, w.state.tunnel = some tunnel ∧
      P.down (w.outside.faults.downs 0) (tunnel, w.machine) = (result, tunnel', m) ∧
      (shutdown w).state = { w.state with tunnel := none, current := none } ∧
      (shutdown w).machine = P.drop (w.outside.faults.drops 0) tunnel' m ∧
      (shutdown w).events = .down :: w.events := by
  unfold shutdown
  rw [World.Paired] at hw
  rw [← hw]
  cases htunnel : w.state.tunnel with
  | none => exact .inl ⟨rfl, rfl⟩
  | some tunnel =>
    right
    rcases h : disconnect w with ⟨r, w'⟩
    have hafter : after disconnect w = w' := by rw [after, h]
    rw [Option.isSome_some, if_pos rfl, hafter]
    rcases disconnect_cases h with ⟨hnone, -⟩ | ⟨t, result, tunnel', m, ht, hdown, -, hrest⟩
    · cases htunnel.symm.trans hnone
    · cases htunnel.symm.trans ht
      exact ⟨tunnel, result, tunnel', m, rfl, hdown, hrest⟩

/-- Wherever requests and passes lead, the events are a course from down to what is recorded, and the
tunnel is there with the record. When the daemon then stops, the connection is down: what was there is
taken down by one call, and where nothing was there nothing is done. -/
theorem works_session (about : About P) {start w : World P} (hstart : Starts start)
    (h : Reaches (work about) (fun _ _ => True) start w) :
    session w.events = some (w.state.current.map Connection.endpoint) ∧
      w.state.tunnel.isSome = w.state.current.isSome ∧
      (shutdown w).state.tunnel = none ∧ (shutdown w).state.current = none ∧
      session (shutdown w).events = some none ∧
      (w.state.tunnel = none → shutdown w = w) ∧
      ∀ tunnel, w.state.tunnel = some tunnel → ∃ result tunnel' m,
        P.down (w.outside.faults.downs 0) (tunnel, w.machine) = (result, tunnel', m) ∧
        (shutdown w).machine = P.drop (w.outside.faults.drops 0) tunnel' m := by
  obtain ⟨-, hsession, hpaired⟩ := works_holds hstart hstart.follows (fun _ _ hd => hd.follows) h
  refine ⟨hsession, hpaired, ?_⟩
  rcases shutdown_cases hpaired with ⟨hnone, hsame⟩ |
    ⟨tunnel, result, tunnel', m, htunnel, hdown, hstate, hmachine, hevents⟩
  · have hidle : w.state.current = none := by
      rw [World.Paired, hnone] at hpaired
      exact Option.isNone_iff_eq_none.mp (Option.isSome_eq_false_iff.mp hpaired.symm)
    rw [hsame]
    refine ⟨hnone, hidle, by rw [hsession, hidle]; rfl, fun _ => rfl, fun t ht => ?_⟩
    cases hnone.symm.trans ht
  · refine ⟨by rw [hstate], by rw [hstate], ?_, fun hnone => ?_, fun t ht => ?_⟩
    · rw [World.Paired, htunnel] at hpaired
      obtain ⟨c, hc⟩ := Option.isSome_iff_exists.mp hpaired.symm
      rw [hevents, session, hsession, hc]
      rfl
    · cases htunnel.symm.trans hnone
    · cases htunnel.symm.trans ht
      exact ⟨result, tunnel', m, hdown, hmachine⟩

namespace Sample

/-- Two servers, one of them connected. -/
def joined : World (.linux log) :=
  work about (pair linuxFaults) (.request (.connect (some "Achernar") none))

end Sample

theorem joined_session :
    session Sample.joined.events = some (Sample.joined.state.current.map Connection.endpoint) ∧
      Sample.joined.state.tunnel.isSome = Sample.joined.state.current.isSome ∧
      (shutdown Sample.joined).state.tunnel = none ∧
      (shutdown Sample.joined).state.current = none ∧
      session (shutdown Sample.joined).events = some none ∧
      (Sample.joined.state.tunnel = none → shutdown Sample.joined = Sample.joined) ∧
      ∀ tunnel, Sample.joined.state.tunnel = some tunnel → ∃ result tunnel' m,
        (Platform.linux Sample.log).down (Sample.joined.outside.faults.downs 0) (tunnel, Sample.joined.machine) =
          (result, tunnel', m) ∧
        (shutdown Sample.joined).machine =
          (Platform.linux Sample.log).drop (Sample.joined.outside.faults.drops 0) tunnel' m :=
  works_session Sample.about (Sample.world_starts Sample.config_valid rfl _ _) (.next .here trivial)

/-! ### The proposals -/

def Event.proposal : Event → Option String
  | proposed server => some server
  | _ => none

/-- The servers proposed so far, the latest first. -/
def World.proposals (w : World P) : List String := w.events.filterMap Event.proposal

def World.pendingName (w : World P) : Option String := w.state.pending.map fun p => p.1.name

/-- The proposal that a request carries out or turns down. -/
def World.actsOn (w : World P) : Work → Option String
  | .request .approve | .request .dismiss => w.pendingName
  | _ => none

/-- The proposals acted on in a run, the latest first. -/
def acted (about : About P) (w : World P) : List Work → List String
  | [] => []
  | x :: rest => acted about (work about w x) rest ++ (w.actsOn x).toList

/-- What was acted on, and what still waits, were proposed in that order, and what waits is the latest
proposal of all. -/
structure World.Answers (done : List String) (w : World P) : Prop where
  once : (w.pendingName.toList ++ done).Sublist w.proposals
  latest : ∀ name, w.pendingName = some name → w.proposals.head? = some name

/-- A proposal that is dropped may no longer be acted on. -/
theorem World.Answers.drops {done : List String} {w w' : World P} (hw : w.Answers done)
    (hevents : w'.events = w.events)
    (hpending : w'.state.pending = w.state.pending ∨ w'.state.pending = none) : w'.Answers done := by
  have hproposals : w'.proposals = w.proposals := by rw [World.proposals, hevents]; rfl
  rcases hpending with hsame | hnone
  · have hname : w'.pendingName = w.pendingName := by rw [World.pendingName, hsame]; rfl
    exact ⟨by rw [hname, hproposals]; exact hw.once, by rw [hname, hproposals]; exact hw.latest⟩
  · have hname : w'.pendingName = none := by rw [World.pendingName, hnone]; rfl
    refine ⟨?_, fun name h => ?_⟩
    · rw [hname, hproposals]
      exact (List.sublist_append_right _ _).trans hw.once
    · cases hname.symm.trans h

/-- A proposal that the filters go over stays as it is, or is dropped. -/
theorem State.applyFilters_pending (s : State P) :
    s.applyFiltersToCachedResults.pending = s.pending ∨
      s.applyFiltersToCachedResults.pending = none := by
  rcases hfilter : s.applyFiltersToCachedResults.pending with _ | p
  · exact .inr rfl
  · exact .inl (Option.filter_eq_some_iff.mp hfilter).1.symm

theorem Deed.answers {w w' : World P} {done : List String} (h : Deed G w w')
    (hw : w.Answers done) : w'.Answers done := by
  cases h with
  | reloaded => exact hw.drops rfl (State.applyFilters_pending _)
  | settled => exact hw.drops rfl (.inr rfl)
  | proposed target reason =>
    refine ⟨?_, fun name hname => ?_⟩
    · exact ((List.sublist_append_right _ _).trans hw.once).cons_cons target.name
    · cases hname
      rfl
  | _ => exact ⟨hw.once, hw.latest⟩

theorem Deeds.answers {w w' : World P} {done : List String} (h : Deeds G w w')
    (hw : w.Answers done) : w'.Answers done := by
  induction h with
  | refl => exact hw
  | tail _ hdeed ih => exact hdeed.answers ih

/-- A proposal that is carried out or turned down is taken off first. -/
theorem World.Answers.takes {done : List String} {w : World P} (hw : w.Answers done)
    {name : String} (hname : w.pendingName = some name) :
    World.Answers (name :: done) { w with state := { w.state with pending := none } } := by
  refine ⟨?_, fun _ h => by cases h⟩
  have honce := hw.once
  rw [hname] at honce
  exact honce

/-- Carrying a proposal out, or turning it down, does so on the world without it. -/
theorem acts_run {about : About P} {w : World P} {x : Work} {name : String}
    (h : w.actsOn x = some name) : w.pendingName = some name ∧
      (w.Lists G → Deeds G { w with state := { w.state with pending := none } } (work about w x)) := by
  have hsettled : ∀ {p : RankedServer × String × Instant}, w.state.pending = some p → w.Lists G →
      World.Lists G { w with state := { w.state with pending := none } } :=
    fun _ hw => Deed.settled.lists hw
  match x, h with
  | .request .approve, h =>
    refine ⟨h, fun hw => ?_⟩
    obtain ⟨p, hp, -⟩ := Option.map_eq_some_iff.mp h
    rw [work, handle_step about rfl, step, after, approve, self, read_bind, hp]
    refine Within.bind (R := Does G) (switch_does p.1.name) (fun moved => ?_) _ (hsettled hp hw)
    exact Within.bind (told_does _) fun _ => Within.pure _
  | .request .dismiss, h =>
    refine ⟨h, fun hw => ?_⟩
    obtain ⟨p, hp, -⟩ := Option.map_eq_some_iff.mp h
    rw [work, handle_step about rfl, step, after, dismiss, self, read_bind, hp]
    refine Within.bind (R := Does G) rememberDismissal_does (fun _ => ?_) _ (hsettled hp hw)
    exact Within.bind (told_does _) fun _ => Within.pure _

theorem work_answers (about : About P) {w : World P} {done : List String} (hlists : w.Lists G)
    (hw : w.Answers done) (x : Work) :
    (work about w x).Answers ((w.actsOn x).toList ++ done) := by
  cases hacts : w.actsOn x with
  | none => exact (work_does about w x hlists).answers hw
  | some name =>
    obtain ⟨hname, hrun⟩ : w.pendingName = some name ∧ (w.Lists G →
        Deeds G { w with state := { w.state with pending := none } } (work about w x)) :=
      acts_run hacts
    exact (hrun hlists).answers (hw.takes hname)

/-- In every run of requests and passes, what is approved or dismissed, with what waits to be, was
proposed in that order, each proposal acted on once at most; and what waits is the latest proposal. -/
theorem works_acted (about : About P) {start : World P} (hstart : Starts start) (xs : List Work) :
    let w := xs.foldl (work about) start
    (w.pendingName.toList ++ acted about start xs).Sublist w.proposals ∧
      ∀ name, w.pendingName = some name → w.proposals.head? = some name := by
  have hrun : ∀ (v : World P) (done : List String), v.Lists start.Offered → v.Answers done →
      (xs.foldl (work about) v).Answers (acted about v xs ++ done) := by
    induction xs with
    | nil => exact fun v done _ hv => hv
    | cons x rest ih =>
      intro v done hlists hv
      rw [acted, List.append_assoc]
      exact ih _ _ ((work_does about v x hlists).lists hlists) (work_answers about hlists hv x)
  obtain ⟨_, _, _, _, _, hloaded⟩ := hstart.loads
  have hinit : start.Answers [] := by
    have hname : start.pendingName = none := by rw [World.pendingName, hloaded]; rfl
    exact ⟨by rw [hname]; exact List.nil_sublist _, fun _ h => by cases hname.symm.trans h⟩
  have hanswers := hrun start [] hstart.lists hinit
  rw [List.append_nil] at hanswers
  exact ⟨hanswers.once, hanswers.latest⟩

namespace Sample

/-- A connection, a pass that finds no list and proposes to leave, and the user who stays. -/
def staying : List Work :=
  [.request (.connect (some "Achernar") none), .request .reload, .request .autotune,
    .request .dismiss]

end Sample

theorem staying_acted :
    let w := Sample.staying.foldl (work Sample.about) Sample.flaky
    (w.pendingName.toList ++ acted Sample.about Sample.flaky Sample.staying).Sublist w.proposals ∧
      ∀ name, w.pendingName = some name → w.proposals.head? = some name :=
  works_acted Sample.about (Sample.world_starts Sample.config_valid rfl _ _) Sample.staying

end Vpnmgr
