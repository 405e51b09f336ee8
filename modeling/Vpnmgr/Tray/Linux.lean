import Vpnmgr.Daemon.Restoring
import Vpnmgr.Ipc.Answers
import Vpnmgr.Library.Errand
import Vpnmgr.Tray.Menu

/-! The Linux tray beside the daemon: clicks are queued, a worker carries them out one at a time, and a
poller keeps the display current, each request over a connection of its own. -/

namespace Vpnmgr.Tray

open Errand

variable {P : Platform}

/-! ### Its tasks -/

/-- The tray, whether its service is gone, the clicks that wait, and all that were made. -/
structure Desk where
  tray : VpnTray
  closed : Bool
  queue : List Action
  clicked : List Action

/-- `Handle::update`. -/
def Desk.update (d : Desk) (f : VpnTray → VpnTray) : Desk :=
  if d.closed then d else { d with tray := f d.tray }

/-- What `refresh` has read when it comes to draw. The lists that it did not ask for are kept. -/
structure Seen where
  status : Option StatusReport
  unreachable : Option String
  ranking : Option (List RankedServer)
  servers : Option (List ServerSummary)

def Seen.draw (seen : Seen) (t : VpnTray) : VpnTray :=
  { t with
    status := seen.status
    unreachable := seen.unreachable
    ranking := seen.ranking.getD t.ranking
    servers := seen.servers.getD t.servers }

inductive Who where
  | worker
  | poller
  deriving DecidableEq

/-- Where a task stands: the worker waits for a click, looks whether a tunnel is up, says that it is
busy, waits for its reply and says how it went; the poller sleeps; both refresh what is shown, with
one request after the other, and draw it. -/
inductive Task where
  | receiving
  | looking (action : Action)
  | announcing (action : Action) (request : Request) (busy : String)
  | sending (action : Action) (request : Request)
  | finishing (error : Option String)
  | sleeping
  | readingStatus
  | readingRanking (report : StatusReport)
  | readingServers (report : StatusReport)
  | drawing (seen : Seen)
  | ended

/-- The request that an action makes, and what the tray says meanwhile. To pick a server means to move
once a tunnel is up. After an edit the daemon is told to read its settings again. -/
def Action.request (connected : Bool) : Action → Option (Request × String)
  | connect none measure => some (.connect none measure,
      if measure.getD false then "Measuring, then choosing a server" else "Finding the best server")
  | connect (some server) measure =>
    if connected then some (.switch server, "Switching")
    else some (.connect (some server) measure, "Connecting")
  | disconnect => some (.disconnect, "Disconnecting")
  | autotune => some (.autotune, "Testing servers")
  | editConfig _ => some (.reload, "Reloading")
  | approve => some (.approve, "Switching")
  | dismiss => some (.dismiss, "Dismissing")
  | quit => none

def Task.asks : Task → Option Request
  | sending _ request => some request
  | readingStatus => some .status
  | readingRanking _ => some (.lastRanking (some (.ofNat quickConnectLimit)))
  | readingServers _ => some (.servers none (some (.ofNat quickConnectLimit)) false)
  | _ => none

/-- `run_actions`, the poller and `refresh`, up to the next place where they wait. -/
def acts (who : Who) (t : Task) (d : Desk) : Task × Desk :=
  match t with
  | .receiving =>
    match d.queue with
    | [] => (.receiving, d)
    | .quit :: rest => (.ended, { d with queue := rest })
    | action :: rest => (.looking action, { d with queue := rest })
  | .looking action =>
    match action.request (!d.closed && d.tray.connected) with
    | some (request, busy) => (.announcing action request busy, d)
    | none => (.ended, d)
  | .announcing action request busy =>
    (.sending action request, d.update fun t => { t with busy := some busy, error := none })
  | .finishing error => (.readingStatus, d.update fun t => { t with busy := none, error := error })
  | .sleeping => (if d.closed then .ended else .readingStatus, d)
  | .drawing seen => (match who with | .worker => .receiving | .poller => .sleeping, d.update seen.draw)
  | t => (t, d)

/-- What the worker shows of a request that went wrong. -/
def errorOf : Except String Response → Option String
  | .error e => some e
  | .ok (.error message) => some message
  | .ok _ => none

def Task.told : Task → Except String Response → Task
  | sending .., r => finishing (errorOf r)
  | readingStatus, .ok (.status report) => readingRanking report
  | readingStatus, .ok (.error message) => drawing ⟨none, some message, none, none⟩
  | readingStatus, .ok _ => drawing ⟨none, some "vpnmgrd sent an unexpected reply", none, none⟩
  | readingStatus, .error e => drawing ⟨none, some e, none, none⟩
  | readingRanking report, .ok (.ranking (first :: rest)) =>
    drawing ⟨some report, none, some (first :: rest), none⟩
  | readingRanking report, _ => readingServers report
  | readingServers report, .ok (.servers servers) => drawing ⟨some report, none, some [], some servers⟩
  | readingServers report, _ => drawing ⟨some report, none, some [], none⟩
  | t, _ => t

/-- From without come clicks, and the end of the tray's service. -/
inductive Change where
  | click (action : Action)
  | close

def Desk.change (d : Desk) : Change → Desk
  | .click action => { d with queue := d.queue ++ [action], clicked := d.clicked ++ [action] }
  | .close => { d with closed := true }

/-- The tray and the daemon, which does other work as well. -/
def office (about : About P) : Office Who Task Desk (World P) Request Response String Work Change where
  asks := Task.asks
  acts := acts
  told := Task.told
  handle := handle about
  other := work about
  change := Desk.change

/-- The worker starts with a first refresh. -/
def start (w : World P) : System Who Task Desk (World P) Response where
  view := ⟨.fresh, false, [], []⟩
  tasks
    | .worker => .readingStatus
    | .poller => .sleeping
  answers := fun _ => none
  state := w
  asked := [(.worker, .readingStatus)]
  carried := []

/-! ### The order of the clicks -/

/-- A request that the action makes, whatever was shown of the tunnel. -/
def Action.Asks (action : Action) (request : Request) : Prop :=
  ∃ connected busy, action.request connected = some (request, busy)

/-- The click that the worker has taken and not yet sent. -/
def Task.hand : Task → List Action
  | looking action | announcing action .. => [action]
  | ended => [.quit]
  | _ => []

/-- The click that is sent, with the request that it makes. -/
def Task.sent : Task → Option (Action × Request)
  | sending action request => some (action, request)
  | _ => none

/-- A request of the worker's is under way, or its outcome is not yet shown. -/
def Task.Busy : Task → Prop
  | sending .. | finishing _ => True
  | _ => False

/-- Where the worker may stand. -/
def Task.Works : Task → Prop
  | looking action => action ≠ .quit
  | announcing action request _ | sending action request => action.Asks request
  | sleeping => False
  | _ => True

/-- Where the poller may stand. -/
def Task.Polls : Task → Prop
  | sleeping | readingStatus | readingRanking _ | readingServers _ | drawing _ | ended => True
  | _ => False

/-- The clicks are those that were sent, in order, the one in hand and those that wait, and the tray
says that it is busy exactly while the worker is. -/
structure InOrder (d : Desk) (worker poller : Task) (asked : List Task) : Prop where
  clicked : d.clicked = (asked.filterMap Task.sent).map Prod.fst ++ worker.hand ++ d.queue
  asks : ∀ x ∈ asked.filterMap Task.sent, x.1.Asks x.2
  works : worker.Works
  polls : poller.Polls
  busy : d.closed = false → (d.tray.busy.isSome = true ↔ worker.Busy)

theorem Desk.update_queue (d : Desk) (f : VpnTray → VpnTray) : (d.update f).queue = d.queue := by
  unfold update
  split <;> rfl

theorem Desk.update_clicked (d : Desk) (f : VpnTray → VpnTray) :
    (d.update f).clicked = d.clicked := by
  unfold update
  split <;> rfl

theorem Desk.update_closed (d : Desk) (f : VpnTray → VpnTray) :
    (d.update f).closed = d.closed := by
  unfold update
  split <;> rfl

theorem Desk.update_tray {d : Desk} (h : d.closed = false) (f : VpnTray → VpnTray) :
    (d.update f).tray = f d.tray := by
  simp [update, h]

theorem Action.request_eq_none {connected : Bool} {action : Action}
    (h : action.request connected = none) : action = .quit := by
  cases action with
  | quit => rfl
  | connect server measure => cases server <;> cases connected <;> cases h
  | _ => cases h

section

variable {d : Desk} {t p : Task} {asked : List Task}

/-- A task that asks for nothing, or that reads, sends no click. -/
theorem InOrder.asking (h : InOrder d t p asked) (hsent : t.sent = none) :
    InOrder d t p (asked ++ if t.asks.isSome then [t] else []) := by
  have hsame : (asked ++ if t.asks.isSome then [t] else []).filterMap Task.sent =
      asked.filterMap Task.sent := by
    split <;> simp [hsent]
  exact ⟨hsame ▸ h.clicked, hsame ▸ h.asks, h.works, h.polls, h.busy⟩

/-- The worker goes on with what it has in hand, and the display is updated. -/
theorem InOrder.update (h : InOrder d t p asked) {t' : Task} {f : VpnTray → VpnTray}
    (hhand : t'.hand = t.hand) (hworks : t'.Works)
    (hbusy : (d.tray.busy.isSome = true ↔ t.Busy) → ((f d.tray).busy.isSome = true ↔ t'.Busy)) :
    InOrder (d.update f) t' p asked where
  clicked := by
    rw [Desk.update_clicked, Desk.update_queue, hhand]
    exact h.clicked
  asks := h.asks
  works := hworks
  polls := h.polls
  busy hopen := by
    rw [Desk.update_closed] at hopen
    rw [Desk.update_tray hopen]
    exact hbusy (h.busy hopen)

theorem InOrder.worker_acts (h : InOrder d t p asked) (hnone : t.asks = none) :
    InOrder (acts .worker t d).2 (acts .worker t d).1 p
      (asked ++ if (acts .worker t d).1.asks.isSome then [(acts .worker t d).1] else []) := by
  cases t with
  | receiving =>
    rw [acts]
    split
    · exact h.asking rfl
    · next rest hqueue =>
      refine InOrder.asking ⟨?_, h.asks, trivial, h.polls, h.busy⟩ rfl
      simpa [Task.hand, hqueue] using h.clicked
    · next action rest hne hqueue =>
      refine InOrder.asking ⟨?_, h.asks, hne, h.polls, h.busy⟩ rfl
      simpa [Task.hand, hqueue] using h.clicked
  | looking action =>
    rw [acts]
    split
    · next request busy hrequest =>
      exact InOrder.asking ⟨h.clicked, h.asks, ⟨_, _, hrequest⟩, h.polls, h.busy⟩ rfl
    · next hrequest => exact absurd (Action.request_eq_none hrequest) h.works
  | announcing action request busy =>
    have hsent : (asked ++ [Task.sending action request]).filterMap Task.sent =
        asked.filterMap Task.sent ++ [(action, request)] := by simp [Task.sent]
    rw [acts, if_pos (by rfl)]
    refine ⟨?_, ?_, h.works, h.polls, fun hopen => ?_⟩
    · rw [hsent, Desk.update_clicked, Desk.update_queue, h.clicked]
      simp [Task.hand]
    · rw [hsent]
      exact List.forall_mem_append.mpr ⟨h.asks, List.forall_mem_singleton.mpr h.works⟩
    · rw [Desk.update_closed] at hopen
      rw [Desk.update_tray hopen]
      exact ⟨fun _ => trivial, fun _ => rfl⟩
  | finishing error =>
    have hshown : InOrder (d.update fun t => { t with busy := none, error := error })
        .readingStatus p asked := h.update rfl trivial fun _ => iff_of_false Bool.false_ne_true id
    rw [acts]
    exact hshown.asking rfl
  | drawing seen =>
    rw [acts]
    refine InOrder.asking ?_ rfl
    exact h.update rfl trivial fun hbusy => hbusy
  | ended => exact h.asking rfl
  | sleeping => exact absurd h.works id
  | _ => cases hnone

/-- The poller takes no click, and leaves alone what says that the worker is busy. -/
theorem InOrder.poller_acts (h : InOrder d t p asked) (hnone : p.asks = none) :
    InOrder (acts .poller p d).2 t (acts .poller p d).1 asked := by
  cases p with
  | sleeping =>
    rw [acts]
    refine ⟨h.clicked, h.asks, h.works, ?_, h.busy⟩
    split <;> trivial
  | drawing seen =>
    have hdrawn : InOrder (d.update seen.draw) t (.drawing seen) asked :=
      h.update rfl h.works fun hbusy => hbusy
    rw [acts]
    exact ⟨hdrawn.clicked, hdrawn.asks, hdrawn.works, trivial, hdrawn.busy⟩
  | ended => exact h
  | receiving | looking | announcing | finishing => exact absurd h.polls id
  | _ => cases hnone

/-- What a reading task is told sends it to the next reading, or to draw. -/
inductive Task.Reads : Task → Prop where
  | ranking (report : StatusReport) : Reads (readingRanking report)
  | servers (report : StatusReport) : Reads (readingServers report)
  | drawing (seen : Seen) : Reads (drawing seen)

theorem told_cases {q : Request} (hasks : t.asks = some q) (r : Except String Response) :
    (∃ action, t = .sending action q ∧ t.told r = .finishing (errorOf r)) ∨
      (t.hand = [] ∧ ¬t.Busy ∧ (t.told r).Reads) := by
  cases t with
  | sending action request =>
    cases hasks
    exact .inl ⟨action, rfl, rfl⟩
  | readingStatus =>
    refine .inr ⟨rfl, id, ?_⟩
    rcases r with e | (_ | _ | _ | _ | _ | _ | _ | _ | _) <;> constructor
  | readingRanking report =>
    refine .inr ⟨rfl, id, ?_⟩
    rcases r with e | (_ | (_ | _) | _ | _ | _ | _ | _ | _ | _) <;> constructor
  | readingServers report =>
    refine .inr ⟨rfl, id, ?_⟩
    rcases r with e | (_ | _ | _ | _ | _ | _ | _ | _ | _) <;> constructor
  | _ => cases hasks

theorem InOrder.worker_told (h : InOrder d t p asked) {q : Request} (hq : t.asks = some q)
    (r : Except String Response) :
    InOrder d (t.told r) p (asked ++ if (t.told r).asks.isSome then [t.told r] else []) := by
  rcases told_cases hq r with ⟨action, rfl, htold⟩ | ⟨hhand, hidle, hreads⟩
  · rw [htold]
    exact InOrder.asking ⟨h.clicked, h.asks, trivial, h.polls, h.busy⟩ rfl
  · have hbusy := h.busy
    have hclicked := h.clicked
    rw [hhand] at hclicked
    generalize t.told r = t' at hreads ⊢
    cases hreads <;> exact InOrder.asking ⟨hclicked, h.asks, trivial, h.polls,
      fun hopen => (hbusy hopen).trans (iff_of_false hidle id)⟩ rfl

theorem InOrder.poller_told (h : InOrder d t p asked) {q : Request} (hq : p.asks = some q)
    (r : Except String Response) : InOrder d t (p.told r) asked := by
  rcases told_cases hq r with ⟨action, rfl, _⟩ | ⟨_, _, hreads⟩
  · exact absurd h.polls id
  · refine ⟨h.clicked, h.asks, h.works, ?_, h.busy⟩
    generalize p.told r = p' at hreads ⊢
    cases hreads <;> trivial

end

/-- The worker's own requests, and the poller's where it may stand. -/
def Ordered (d : Desk) (tasks : Who → Task) (asked : List (Who × Task)) : Prop :=
  InOrder d (tasks .worker) (tasks .poller) (own .worker asked)

theorem poller_ne_worker : Who.poller ≠ Who.worker := nofun

theorem office_ordered (about : About P) : (office about).Keeps (fun _ => True) Ordered where
  handle _ _ _ := trivial
  other _ _ _ := trivial
  act d tasks asked who hnone h := by
    cases who with
    | worker =>
      rw [Ordered, Office.own_asking_self, Function.update_self,
        Function.update_of_ne poller_ne_worker]
      exact h.worker_acts hnone
    | poller =>
      rw [Ordered, Office.own_asking_other _ _ poller_ne_worker, Function.update_self,
        Function.update_of_ne poller_ne_worker.symm]
      exact h.poller_acts hnone
  tell d tasks asked who q r hq _ h := by
    cases who with
    | worker =>
      rw [Ordered, Office.own_asking_self, Function.update_self,
        Function.update_of_ne poller_ne_worker]
      exact h.worker_told hq r
    | poller =>
      rw [Ordered, Office.own_asking_other _ _ poller_ne_worker, Function.update_self,
        Function.update_of_ne poller_ne_worker.symm]
      exact h.poller_told hq r
  change d tasks asked change h := by
    cases change with
    | click action =>
      refine ⟨?_, h.asks, h.works, h.polls, h.busy⟩
      exact (congrArg (· ++ [action]) h.clicked).trans (List.append_assoc _ d.queue [action])
    | close => exact ⟨h.clicked, h.asks, h.works, h.polls, fun hopen => by cases hopen⟩

theorem start_ordered (about : About P) (w : World P) :
    (office about).Sound (fun _ => True) Ordered (start w) where
  state := trivial
  answers _ _ h := by cases h
  kept := ⟨rfl, fun _ h => (by cases h), trivial, trivial,
    fun _ => iff_of_false Bool.false_ne_true id⟩

/-- The clicks that were sent so far, each with its request. -/
def sent (log : List (Who × Task)) : List (Action × Request) := (own .worker log).filterMap Task.sent

/-- However clicks, the two tasks, lost replies and the daemon's other work are interleaved, the worker
takes the clicks in order and makes for each the one request that it stands for; the daemon carries out
these requests in that order, each once at most. While one is under way the tray says so, and offers
nothing but to answer a proposal and to quit. -/
theorem clicks_in_order (about : About P) {w : World P} {s : System Who Task Desk (World P) Response}
    (hrun : (office about).Runs (start w) s) :
    s.view.clicked = (sent s.asked).map Prod.fst ++ (s.tasks .worker).hand ++ s.view.queue ∧
      (∀ x ∈ sent s.asked, x.1.Asks x.2) ∧ (sent s.carried).Sublist (sent s.asked) ∧
      (s.view.closed = false → ((s.tasks .worker).Busy ↔ s.view.tray.busy.isSome = true) ∧
        ((s.tasks .worker).Busy → ∀ action, Offers s.view.tray.menu action →
          action = .quit ∨ action = .approve ∨ action = .dismiss)) := by
  have hordered := ((office_ordered about).runs hrun (start_ordered about w)).kept
  have honce : (office about).Once .worker s := by
    refine Office.Once.runs hrun ⟨List.nil_sublist _, fun _ _ => ⟨[], rfl, .slnil⟩, fun a h => ?_⟩
    cases h
  refine ⟨hordered.clicked, hordered.asks, honce.carried.filterMap _, fun hopen => ?_⟩
  have hbusy := (hordered.busy hopen).symm
  refine ⟨hbusy, fun hworking action hoffers => ?_⟩
  have hnot : s.view.tray.idle ≠ true := by
    rw [VpnTray.idle, Option.isNone_eq_false_iff.mpr (hbusy.mp hworking), Bool.false_and]
    exact Bool.false_ne_true
  rcases (VpnTray.offers_menu _).mp hoffers with hquit | ⟨_, hanswer⟩ | ⟨hidle, _⟩
  · exact .inl hquit
  · exact .inr hanswer
  · exact absurd hidle hnot

/-- A server is picked before anything is shown, the first status does not come, and the worker sends
what was picked. -/
def Sample.clicks : List (Move Who String Work Change) :=
  [.change (.click (.connect (some "Achernar") none)), .lose .worker "connection refused"] ++
    List.replicate 4 (.act .worker)

def Sample.picking : System Who Task Desk (World (.linux Sample.log)) Response :=
  Sample.clicks.foldl (office Sample.about).step (start Sample.flaky)

theorem Sample.picking_runs :
    (office Sample.about).Runs (start Sample.flaky) Sample.picking := Office.runs_moves ..

theorem picking_in_order :
    let s := Sample.picking
    s.view.clicked = (sent s.asked).map Prod.fst ++ (s.tasks .worker).hand ++ s.view.queue ∧
      (∀ x ∈ sent s.asked, x.1.Asks x.2) ∧ (sent s.carried).Sublist (sent s.asked) ∧
      (s.view.closed = false → ((s.tasks .worker).Busy ↔ s.view.tray.busy.isSome = true) ∧
        ((s.tasks .worker).Busy → ∀ action, Offers s.view.tray.menu action →
          action = .quit ∨ action = .approve ∨ action = .dismiss)) :=
  clicks_in_order Sample.about Sample.picking_runs

/-! ### What is shown -/

section

variable {G : Request → Response → Prop}

/-- What is shown was answered by the daemon. -/
structure VpnTray.Read (G : Request → Response → Prop) (t : VpnTray) : Prop where
  status : ∀ report, t.status = some report → G .status (.status report)
  ranking : t.ranking = [] ∨ G (.lastRanking (some (.ofNat quickConnectLimit))) (.ranking t.ranking)
  servers : t.servers = [] ∨
    G (.servers none (some (.ofNat quickConnectLimit)) false) (.servers t.servers)

structure Seen.Read (G : Request → Response → Prop) (seen : Seen) : Prop where
  status : ∀ report, seen.status = some report → G .status (.status report)
  ranking : ∀ list, seen.ranking = some list →
    list = [] ∨ G (.lastRanking (some (.ofNat quickConnectLimit))) (.ranking list)
  servers : ∀ list, seen.servers = some list →
    G (.servers none (some (.ofNat quickConnectLimit)) false) (.servers list)

/-- What a task has read was answered by the daemon. -/
def Task.Read (G : Request → Response → Prop) : Task → Prop
  | readingRanking report | readingServers report => G .status (.status report)
  | drawing seen => seen.Read G
  | _ => True

theorem VpnTray.fresh_read : VpnTray.fresh.Read G :=
  ⟨fun _ h => (by cases h), .inl rfl, .inl rfl⟩

theorem Seen.Read.draw {seen : Seen} {t : VpnTray} (h : seen.Read G) (ht : t.Read G) :
    (seen.draw t).Read G where
  status := h.status
  ranking := by
    rw [Seen.draw]
    cases hranking : seen.ranking with
    | none => exact ht.ranking
    | some list => exact h.ranking list hranking
  servers := by
    rw [Seen.draw]
    cases hservers : seen.servers with
    | none => exact ht.servers
    | some list => exact .inr (h.servers list hservers)

/-- Whatever an update does, it does while the service lasts. -/
theorem Desk.update_read {d : Desk} {f : VpnTray → VpnTray} (h : d.tray.Read G)
    (hf : d.tray.Read G → (f d.tray).Read G) : (d.update f).tray.Read G := by
  unfold update
  split
  · exact h
  · exact hf h

theorem acts_read (who : Who) {t : Task} {d : Desk} (ht : t.Read G) (hd : d.tray.Read G) :
    (acts who t d).1.Read G ∧ (acts who t d).2.tray.Read G := by
  cases t with
  | receiving =>
    rw [acts]
    split <;> exact ⟨trivial, hd⟩
  | looking action =>
    rw [acts]
    split <;> exact ⟨trivial, hd⟩
  | announcing action request busy =>
    exact ⟨trivial, Desk.update_read hd fun h => ⟨h.status, h.ranking, h.servers⟩⟩
  | finishing error =>
    exact ⟨trivial, Desk.update_read hd fun h => ⟨h.status, h.ranking, h.servers⟩⟩
  | sleeping =>
    rw [acts]
    split <;> exact ⟨trivial, hd⟩
  | drawing seen =>
    refine ⟨?_, Desk.update_read hd ht.draw⟩
    cases who <;> trivial
  | _ => exact ⟨ht, hd⟩

theorem told_read {t : Task} {q : Request} {r : Except String Response} (hasks : t.asks = some q)
    (hgiven : ∀ a, r = .ok a → G q a) (ht : t.Read G) : (t.told r).Read G := by
  have hempty : Seen.Read G ⟨none, none, none, none⟩ :=
    ⟨fun _ h => (by cases h), fun _ h => (by cases h), fun _ h => (by cases h)⟩
  cases t with
  | sending => trivial
  | readingStatus =>
    cases hasks
    rcases r with e | (_ | _ | _ | _ | _ | _ | _ | _ | _)
    case ok.status report => exact hgiven _ rfl
    all_goals exact ⟨hempty.status, hempty.ranking, hempty.servers⟩
  | readingRanking report =>
    cases hasks
    rcases r with e | (_ | (_ | ⟨first, rest⟩) | _ | _ | _ | _ | _ | _ | _)
    case ok.ranking.cons =>
      exact ⟨fun _ h => (by cases h; exact ht), fun _ h => (by cases h; exact .inr (hgiven _ rfl)),
        hempty.servers⟩
    all_goals exact ht
  | readingServers report =>
    cases hasks
    rcases r with e | (_ | _ | list | _ | _ | _ | _ | _ | _)
    case ok.servers =>
      exact ⟨fun _ h => (by cases h; exact ht), fun _ h => (by cases h; exact .inl rfl),
        fun _ h => (by cases h; exact hgiven _ rfl)⟩
    all_goals exact ⟨fun _ h => (by cases h; exact ht), fun _ h => (by cases h; exact .inl rfl),
      hempty.servers⟩
  | _ => cases hasks

end

/-- What the daemon answers somewhere on a run from a start. -/
def Given (about : About P) (start : World P) (q : Request) (a : Response) : Prop :=
  ∃ w, Stateful.Reaches (work about) (fun _ _ => True) start w ∧ (handle about q w).1 = a

theorem office_read (about : About P) (first : World P) :
    (office about).Keeps (Stateful.Reaches (work about) (fun _ _ => True) first)
      fun d tasks _ => d.tray.Read (Given about first) ∧ ∀ who, (tasks who).Read (Given about first) where
  handle q st h := h.next (a := Work.request q) trivial
  other st x h := h.next (a := x) trivial
  act d tasks asked who hnone h := by
    obtain ⟨htask, htray⟩ := acts_read who (h.2 who) h.1
    refine ⟨htray, fun other => ?_⟩
    by_cases hsame : other = who
    · rw [hsame, Function.update_self]
      exact htask
    · rw [Function.update_of_ne hsame]
      exact h.2 other
  tell d tasks asked who q r hq hgiven h := by
    refine ⟨h.1, fun other => ?_⟩
    by_cases hsame : other = who
    · rw [hsame, Function.update_self]
      exact told_read hq hgiven (h.2 who)
    · rw [Function.update_of_ne hsame]
      exact h.2 other
  change d tasks asked change h := by
    cases change <;> exact h

theorem start_read (about : About P) (first : World P) :
    (office about).Sound (Stateful.Reaches (work about) (fun _ _ => True) first)
      (fun d tasks _ => d.tray.Read (Given about first) ∧ ∀ who, (tasks who).Read (Given about first))
      (start first) where
  state := .here
  answers _ _ h := by cases h
  kept := ⟨VpnTray.fresh_read, fun who => by cases who <;> trivial⟩

/-- An answer that the daemon gives on a run from a start is truthful. -/
theorem Given.truthful {about : About P} {first : World P} (hstart : Starts first) {q : Request}
    {a : Response} (h : Given about first q a) : a.Truthful first.Offered q := by
  obtain ⟨w, hreach, rfl⟩ := h
  exact handle_truthful about q
    (works_holds hstart hstart.grounded (fun _ _ hdeed => hdeed.grounded) hreach)

/-- A server to pick is one of a list that the daemon was given. -/
theorem entry_listed {about : About P} {first : World P} (hstart : Starts first)
    {ranking : List RankedServer} {servers : List ServerSummary}
    (hranking : ranking = [] ∨
      Given about first (.lastRanking (some (.ofNat quickConnectLimit))) (.ranking ranking))
    (hservers : servers = [] ∨
      Given about first (.servers none (some (.ofNat quickConnectLimit)) false) (.servers servers))
    {measured : Ieee.F64 → String} {e : String × String}
    (he : e ∈ quickConnectEntries measured ranking servers) :
    ∃ s, first.Offered s ∧ s.name = e.1 := by
  unfold quickConnectEntries at he
  split at he
  · obtain ⟨summary, hsummary, rfl⟩ := List.mem_map.mp he
    have hmem := List.mem_of_mem_take hsummary
    have hgiven := hservers.resolve_left (List.ne_nil_of_mem hmem)
    obtain ⟨s, hs, rfl⟩ := hgiven.truthful hstart summary hmem
    exact ⟨s, hs, rfl⟩
  · next hne =>
    obtain ⟨r, hr, rfl⟩ := List.mem_map.mp he
    have hgiven := hranking.resolve_left hne
    obtain ⟨s, hs, hdescribes⟩ := hgiven.truthful hstart r (List.mem_of_mem_take hr)
    exact ⟨s, hs.1, hdescribes.name.symm⟩

/-- A proposal that is shown is of a server of such a list, reported healthy. -/
theorem Given.pending {about : About P} {first : World P} (hstart : Starts first)
    {status : Option StatusReport}
    (hstatus : ∀ report, status = some report → Given about first .status (.status report))
    (hpending : (status.bind StatusReport.pendingSwitch).isSome = true) :
    ∃ pending, status.bind StatusReport.pendingSwitch = some pending ∧
      Known (Fit first.Offered) pending.target := by
  obtain ⟨pending, hpending⟩ := Option.isSome_iff_exists.mp hpending
  obtain ⟨report, hreport, hswitch⟩ := Option.bind_eq_some_iff.mp hpending
  exact ⟨pending, hpending, ((hstatus report hreport).truthful hstart).pending _ hswitch⟩

/-- The request for a server comes to this: the daemon is connected to the server of that name and says
so, or it refuses; and it refuses without doing anything where it was made for a tunnel that is up and
there is none, or the other way round. -/
def PickHeeded (about : About P) (name : String) (q : Request) (w : World P) : Prop :=
  (∃ chosen, Text.eqIgnoreAsciiCase chosen.name name = true ∧
      (handle about q w).2.state.current = some (.of chosen) ∧
      ((handle about q w).1 = .ok (connectedText chosen) ∨
        (handle about q w).1 = .ok (switchedText chosen))) ∨
    ∃ message, (handle about q w).1 = .error message ∧
      ((q = .switch name ↔ w.state.current = none) → (handle about q w).2 = w)

/-- A request to connect is refused while a tunnel is up. -/
theorem connect_refused (about : About P) (name : String) (measure : Option Bool) {w : World P}
    {current : Connection} (hcurrent : w.state.current = some current) :
    handle about (.connect (some name) measure) w =
      (.error ((Error.alreadyConnected current.server).describe about.quote about.display), w) := by
  have hkept : connect (some name) measure w = (.error (.alreadyConnected current.server), w) := by
    simp [connect, self, hcurrent]
  rw [handle, reply, hkept]

theorem connect_heeded (about : About P) (name : String) (measure : Option Bool) (w : World P) :
    PickHeeded about name (.connect (some name) measure) w := by
  cases hcurrent : w.state.current with
  | some current =>
    refine .inr ⟨_, by rw [connect_refused about name measure hcurrent], fun _ => ?_⟩
    rw [connect_refused about name measure hcurrent]
  | none =>
    rcases hrun : connect (some name) measure w with ⟨e | chosen, w'⟩
    · refine .inr ⟨_, by rw [handle, reply, hrun], fun hother => ?_⟩
      cases hother.mpr hcurrent
    · obtain ⟨hname, hconnected, -⟩ := connect_named hcurrent hrun
      refine .inl ⟨chosen, hname, ?_, .inl ?_⟩
      · rw [handle, reply, hrun]
        exact hconnected
      · rw [handle, reply, hrun]

theorem switch_heeded (about : About P) (name : String) (w : World P) :
    PickHeeded about name (.switch name) w := by
  rcases hrun : switch name w with ⟨e | chosen, w'⟩
  · refine .inr ⟨_, by rw [handle, reply, hrun], fun hother => ?_⟩
    have hkept : switch name w = (.error .notConnected, w) := by
      simp [switch, self, hother.mp rfl]
    rw [handle, reply, hkept]
  · obtain ⟨v, hprobe, hcurrent, -⟩ := switch_records hrun
    obtain ⟨list, _, server, -, hget, hplace⟩ := probeNamed_ok hprobe
    have hname : chosen.name = server.name := congrArg Prod.fst hplace
    refine .inl ⟨chosen, by rw [hname]; exact ServerList.get_name hget, ?_, .inr ?_⟩
    · rw [handle, reply, hrun]
      exact hcurrent
    · rw [handle, reply, hrun]

end Vpnmgr.Tray
