import Vpnmgr.Tray.Linux

/-! The Windows tray beside the daemon: one loop polls and carries out the clicks, and hands what it has
read to the thread that owns the icon. -/

namespace Vpnmgr.Tray.Windows

open Errand

variable {P : Platform}

/-! ### Its menu -/

/-- Everything the tray draws from, read anew each time. -/
structure Snapshot where
  status : Option StatusReport
  ranking : List RankedServer
  servers : List ServerSummary
  unreachable : Option String
  busy : Option String

namespace Snapshot

def default : Snapshot := ⟨none, [], [], none, none⟩

variable (s : Snapshot)

def connected : Bool := s.status.any StatusReport.connected

def tooltip : String :=
  let traffic := match s.status.filter StatusReport.connected with
    | some r => "\n" ++ humanBytes r.txBytes ++ " up, " ++ humanBytes r.rxBytes ++ " down" ++
        (match r.lastHandshakeSecs with
          | some age => s!"\nhandshake {age}s ago"
          | none => "")
    | none => ""
  headlineOf s.status ++ traffic ++
    ((s.status.bind baselineLine).map fun line => "\n" ++ line).getD "" ++
    (s.busy.map fun busy => "\n" ++ busy ++ "…").getD ""

def entries : List (String × String) := quickConnectEntries rate s.ranking s.servers

/-- `build_menu`. -/
def menu : List MenuItem :=
  let reachable := s.status.isSome
  [disabled (headlineOf s.status)] ++
  (s.unreachable.map fun reason => disabled (truncate reason 60)).toList ++
  (s.busy.map fun busy => disabled (busy ++ "…")).toList ++
  ((s.status.bind baselineLine).map disabled).toList ++
  (match s.status.bind StatusReport.pendingSwitch with
    | some pending => [.separator,
        disabled ("Suggested: " ++ pending.target.name ++ " (" ++ truncate pending.reason 40 ++ ")"),
        button "Switch now" "" true .approve, button "Keep the current server" "" true .dismiss]
    | none => []) ++
  [.separator] ++
  (if s.connected then [button "Disconnect" "" reachable .disconnect]
    else [button "Connect to best server" "" reachable (.connect none (some false)),
      button "Measure and connect" "" reachable (.connect none (some true))]) ++
  (if s.entries = [] then []
    else [.submenu "Connect to" (s.entries.map fun e =>
      ⟨e.2, "", reachable, some (.connect (some e.1) (some false))⟩)]) ++
  [button "Test servers now" "" reachable .autotune] ++
  ((s.status.bind StatusReport.configPath).map fun path =>
    button "Edit configuration…" "" true (.editConfig path)).toList ++
  [.separator, button "Quit" "" true .quit]

/-- The actions that the menu's lines stand for, of those that may be clicked. -/
def clickable : List Action :=
  s.menu.flatMap fun item => (item.lines.filter StandardItem.enabled).filterMap StandardItem.activate

end Snapshot

/-! ### Its loop -/

/-- What the two threads share: the snapshots on their way to the icon, the one that is shown, the
clicks on their way to the loop, all of them so far, whether the icon is gone, and whether it is time
to poll. -/
structure Desk where
  updates : List Snapshot
  shown : Snapshot
  queue : List Action
  clicked : List Action
  gone : Bool
  due : Bool

/-- What a refresh comes before: nothing, so that the loop ends if the icon is gone; nothing after an
edit, where it goes on; or the request of a click. -/
inductive Next where
  | done
  | edited
  | request (action : Action) (request : Request)

/-- Where the loop stands: it waits for a click or for the time to poll, refreshes with one request
after the other, hands the snapshot over, and waits for the reply to what a click asked for. -/
inductive Task where
  | waiting
  | readingStatus (busy : Option String) (next : Next)
  | readingRanking (snapshot : Snapshot) (next : Next)
  | readingServers (snapshot : Snapshot) (next : Next)
  | publishing (snapshot : Snapshot) (next : Next)
  | sending (action : Action) (request : Request)
  | ended

/-- The request that a click makes, and what the tray says meanwhile. -/
def request : Action → Option (Request × String)
  | .connect server measure => some (.connect server measure, "Connecting")
  | .disconnect => some (.disconnect, "Disconnecting")
  | .autotune => some (.autotune, "Testing servers")
  | .approve => some (.approve, "Switching")
  | .dismiss => some (.dismiss, "Dismissing")
  | .editConfig _ | .quit => none

def Task.asks : Task → Option Request
  | readingStatus .. => some .status
  | readingRanking .. => some (.lastRanking (some (.ofNat quickConnectLimit)))
  | readingServers .. => some (.servers none (some (.ofNat quickConnectLimit)) false)
  | sending _ request => some request
  | _ => none

/-- Hand a snapshot over, if there is an icon to show it. -/
def Desk.publish (d : Desk) (snapshot : Snapshot) : Desk :=
  if d.gone then d else { d with updates := d.updates ++ [snapshot] }

/-- `daemon_loop`, up to the next place where it waits. A click that comes when it is time to poll may
as well have come later. After an edit the daemon is told to read its settings again, and nothing is
said of it. -/
def acts (_ : Unit) (t : Task) (d : Desk) : Task × Desk :=
  match t with
  | .waiting =>
    if d.due then (.readingStatus none .done, { d with due := false })
    else
      match d.queue with
      | [] => (.waiting, d)
      | .editConfig path :: rest => (.sending (.editConfig path) .reload, { d with queue := rest })
      | action :: rest =>
        match request action with
        | some (q, busy) => (.readingStatus (some busy) (.request action q), { d with queue := rest })
        | none => (.ended, { d with queue := rest })
  | .publishing snapshot next =>
    (match next with
      | .done => if d.gone then .ended else .waiting
      | .edited => .waiting
      | .request action q => .sending action q, d.publish snapshot)
  | t => (t, d)

/-- What the loop refreshes for, after a request. -/
def Next.after : Action → Next
  | .editConfig _ => edited
  | _ => done

def Task.told : Task → Except String Response → Task
  | readingStatus busy next, .ok (.status report) =>
    readingRanking ⟨some report, [], [], none, busy⟩ next
  | readingStatus busy next, .ok (.error message) =>
    publishing ⟨none, [], [], some message, busy⟩ next
  | readingStatus busy next, .ok _ =>
    publishing ⟨none, [], [], some "vpnmgrd sent an unexpected reply", busy⟩ next
  | readingStatus busy next, .error e => publishing ⟨none, [], [], some e, busy⟩ next
  | readingRanking snapshot next, .ok (.ranking (first :: rest)) =>
    publishing { snapshot with ranking := first :: rest } next
  | readingRanking snapshot next, _ => readingServers snapshot next
  | readingServers snapshot next, .ok (.servers servers) => publishing { snapshot with servers } next
  | readingServers snapshot next, _ => publishing snapshot next
  | sending action _, _ => readingStatus none (.after action)
  | t, _ => t

/-- From without come the time to poll and, on the thread of the icon, clicks on what is shown and the
drawing of a snapshot. To quit ends that thread. -/
inductive Change where
  | tick
  | click (line : Nat)
  | draw

def Desk.change (d : Desk) : Change → Desk
  | .tick => { d with due := true }
  | .click line =>
    if d.gone then d
    else
      match d.shown.clickable[line]? with
      | none => d
      | some .quit => { d with gone := true }
      | some action => { d with queue := d.queue ++ [action], clicked := d.clicked ++ [action] }
  | .draw =>
    if d.gone then d
    else
      match d.updates with
      | [] => d
      | snapshot :: rest => { d with updates := rest, shown := snapshot }

def office (about : About P) : Office Unit Task Desk (World P) Request Response String Work Change where
  asks := Task.asks
  acts := acts
  told := Task.told
  handle := handle about
  other := work about
  change := Desk.change

def start (w : World P) : System Unit Task Desk (World P) Response where
  view := ⟨[], .default, [], [], false, false⟩
  tasks := fun _ => .waiting
  answers := fun _ => none
  state := w
  asked := []
  carried := []

/-! ### The order of the clicks -/

/-- The request that the action makes. -/
def Asks (action : Action) (q : Request) : Prop :=
  (∃ path, action = .editConfig path ∧ q = .reload) ∨ ∃ busy, request action = some (q, busy)

def Next.hand : Next → List Action
  | request action _ => [action]
  | _ => []

/-- The click that the loop has taken and not yet sent. -/
def Task.hand : Task → List Action
  | readingStatus _ next | readingRanking _ next | readingServers _ next | publishing _ next => next.hand
  | _ => []

/-- The click that is sent, with the request that it makes. -/
def Task.sent : Task → Option (Action × Request)
  | sending action request => some (action, request)
  | _ => none

def Next.Fits : Next → Prop
  | request action q => Asks action q
  | _ => True

/-- What the loop is about to ask for a click is what the click stands for. -/
def Task.Fits : Task → Prop
  | readingStatus _ next | readingRanking _ next | readingServers _ next | publishing _ next => next.Fits
  | sending action q => Asks action q
  | _ => True

/-- The clicks are those that were sent, in order, the one in hand and those that wait. -/
structure InOrder (d : Desk) (t : Task) (asked : List Task) : Prop where
  clicked : d.clicked = (asked.filterMap Task.sent).map Prod.fst ++ t.hand ++ d.queue
  asks : ∀ x ∈ asked.filterMap Task.sent, Asks x.1 x.2
  fits : t.Fits
  open_ : .quit ∉ d.queue

section

variable {d : Desk} {t : Task} {asked : List Task}

theorem request_eq_none {action : Action} (hedit : ∀ path, action ≠ .editConfig path)
    (h : request action = none) : action = .quit := by
  cases action with
  | quit => rfl
  | editConfig path => exact absurd rfl (hedit path)
  | _ => cases h

/-- A task that asks for nothing, or that reads, sends no click. -/
theorem InOrder.asking (h : InOrder d t asked) (hsent : t.sent = none) :
    InOrder d t (asked ++ if t.asks.isSome then [t] else []) := by
  have hsame : (asked ++ if t.asks.isSome then [t] else []).filterMap Task.sent =
      asked.filterMap Task.sent := by
    split <;> simp [hsent]
  exact ⟨hsame ▸ h.clicked, hsame ▸ h.asks, h.fits, h.open_⟩

/-- The loop sends the click that it has in hand. -/
theorem InOrder.send (h : InOrder d t asked) {action : Action} {q : Request} (hfits : Asks action q)
    {d' : Desk} (hqueue : d'.queue = d.queue ∧ t.hand = [action] ∨ d.queue = action :: d'.queue ∧ t.hand = [])
    (hclicked : d'.clicked = d.clicked) :
    InOrder d' (.sending action q) (asked ++ [.sending action q]) := by
  have hsent : (asked ++ [Task.sending action q]).filterMap Task.sent =
      asked.filterMap Task.sent ++ [(action, q)] := by simp [Task.sent]
  refine ⟨?_, ?_, hfits, ?_⟩
  · have hempty : (Task.sending action q).hand = [] := rfl
    rw [hsent, hclicked, h.clicked]
    rcases hqueue with ⟨hqueue, hhand⟩ | ⟨hqueue, hhand⟩ <;> simp [hqueue, hhand, hempty]
  · rw [hsent]
    exact List.forall_mem_append.mpr ⟨h.asks, List.forall_mem_singleton.mpr hfits⟩
  · rcases hqueue with ⟨hqueue, _⟩ | ⟨hqueue, _⟩
    · exact hqueue ▸ h.open_
    · exact fun hmem => h.open_ (hqueue ▸ List.mem_cons_of_mem _ hmem)

theorem Desk.publish_queue (d : Desk) (snapshot : Snapshot) : (d.publish snapshot).queue = d.queue := by
  unfold publish
  split <;> rfl

theorem Desk.publish_clicked (d : Desk) (snapshot : Snapshot) :
    (d.publish snapshot).clicked = d.clicked := by
  unfold publish
  split <;> rfl

theorem InOrder.publish (h : InOrder d t asked) (snapshot : Snapshot) :
    InOrder (d.publish snapshot) t asked where
  clicked := by
    rw [Desk.publish_clicked, Desk.publish_queue]
    exact h.clicked
  asks := h.asks
  fits := h.fits
  open_ := by
    rw [Desk.publish_queue]
    exact h.open_

theorem InOrder.acts (h : InOrder d t asked) (hnone : t.asks = none) :
    InOrder (acts () t d).2 (acts () t d).1
      (asked ++ if (Windows.acts () t d).1.asks.isSome then [(Windows.acts () t d).1] else []) := by
  cases t with
  | waiting =>
    rw [Windows.acts]
    split
    · exact InOrder.asking ⟨h.clicked, h.asks, trivial, h.open_⟩ rfl
    split
    · exact h.asking rfl
    · next path rest hqueue => exact h.send (.inl ⟨path, rfl, rfl⟩) (.inr ⟨hqueue, rfl⟩) rfl
    · next action rest hedit hqueue =>
      have hrest : .quit ∉ rest := fun hmem => h.open_ (hqueue ▸ List.mem_cons_of_mem _ hmem)
      split
      · next q busy hrequest =>
        refine InOrder.asking ⟨?_, h.asks, .inr ⟨busy, hrequest⟩, hrest⟩ rfl
        simpa [Task.hand, Next.hand, hqueue] using h.clicked
      · next hrequest =>
        have hquit := request_eq_none hedit hrequest
        exact absurd (hqueue ▸ hquit ▸ List.mem_cons_self) h.open_
  | publishing snapshot next =>
    cases next with
    | done =>
      have hpublished := h.publish snapshot
      cases hgone : d.gone with
      | true =>
        have hended : InOrder (d.publish snapshot) .ended asked :=
          ⟨hpublished.clicked, hpublished.asks, trivial, hpublished.open_⟩
        simpa [Windows.acts, hgone] using hended.asking rfl
      | false =>
        have hwaiting : InOrder (d.publish snapshot) .waiting asked :=
          ⟨hpublished.clicked, hpublished.asks, trivial, hpublished.open_⟩
        simpa [Windows.acts, hgone] using hwaiting.asking rfl
    | edited =>
      have hpublished := h.publish snapshot
      have hwaiting : InOrder (d.publish snapshot) .waiting asked :=
        ⟨hpublished.clicked, hpublished.asks, trivial, hpublished.open_⟩
      exact hwaiting.asking rfl
    | request action q =>
      exact h.send h.fits (.inl ⟨d.publish_queue snapshot, rfl⟩) (d.publish_clicked snapshot)
  | ended => exact h.asking rfl
  | _ => cases hnone

/-- A refresh goes on with what it was made for, and a request is followed by a refresh. -/
theorem told_cases {q : Request} (hasks : t.asks = some q) (r : Except String Response) :
    (t.told r).sent = none ∧ (t.told r).hand = t.hand ∧ (t.Fits → (t.told r).Fits) := by
  cases t with
  | readingStatus busy next =>
    rcases r with e | (_ | _ | _ | _ | _ | _ | _ | _ | _) <;> exact ⟨rfl, rfl, id⟩
  | readingRanking snapshot next =>
    rcases r with e | (_ | (_ | _) | _ | _ | _ | _ | _ | _ | _) <;> exact ⟨rfl, rfl, id⟩
  | readingServers snapshot next =>
    rcases r with e | (_ | _ | _ | _ | _ | _ | _ | _ | _) <;> exact ⟨rfl, rfl, id⟩
  | sending action request => cases action <;> exact ⟨rfl, rfl, fun _ => trivial⟩
  | _ => cases hasks

theorem InOrder.told (h : InOrder d t asked) {q : Request} (hq : t.asks = some q)
    (r : Except String Response) :
    InOrder d (t.told r) (asked ++ if (t.told r).asks.isSome then [t.told r] else []) := by
  obtain ⟨hsent, hhand, hfits⟩ := told_cases hq r
  exact InOrder.asking ⟨hhand ▸ h.clicked, h.asks, hfits h.fits, h.open_⟩ hsent

theorem InOrder.change (h : InOrder d t asked) (change : Change) : InOrder (d.change change) t asked := by
  cases change with
  | tick => exact ⟨h.clicked, h.asks, h.fits, h.open_⟩
  | click line =>
    rw [Desk.change]
    split
    · exact h
    split
    · exact h
    · exact ⟨h.clicked, h.asks, h.fits, h.open_⟩
    · next action hne _ =>
      refine ⟨?_, h.asks, h.fits, fun hmem => ?_⟩
      · exact (congrArg (· ++ [action]) h.clicked).trans (List.append_assoc _ d.queue [action])
      · rcases List.mem_append.mp hmem with hmem | hmem
        · exact h.open_ hmem
        · exact hne (List.mem_singleton.mp hmem).symm
  | draw =>
    rw [Desk.change]
    split
    · exact h
    split
    · exact h
    · exact ⟨h.clicked, h.asks, h.fits, h.open_⟩

end

def Ordered (d : Desk) (tasks : Unit → Task) (asked : List (Unit × Task)) : Prop :=
  InOrder d (tasks ()) (own () asked)

theorem office_ordered (about : About P) : (office about).Keeps (fun _ => True) Ordered where
  handle _ _ _ := trivial
  other _ _ _ := trivial
  act d tasks asked _ hnone h := by
    rw [Ordered, Office.own_asking_self, Function.update_self]
    exact InOrder.acts h hnone
  tell d tasks asked _ q r hq _ h := by
    rw [Ordered, Office.own_asking_self, Function.update_self]
    exact InOrder.told h hq r
  change d tasks asked change h := InOrder.change h change

theorem start_ordered (about : About P) (w : World P) :
    (office about).Sound (fun _ => True) Ordered (start w) where
  state := trivial
  answers _ _ h := by cases h
  kept := ⟨rfl, fun _ h => (by cases h), trivial, fun h => (by cases h)⟩

/-- The clicks that were sent so far, each with its request. -/
def sent (log : List (Unit × Task)) : List (Action × Request) := (own () log).filterMap Task.sent

/-- However clicks, polling, lost replies and the daemon's other work are interleaved, the loop takes the
clicks in order and makes for each the one request that it stands for; the daemon carries out these
requests in that order, each once at most. -/
theorem clicks_kept (about : About P) {w : World P} {s : System Unit Task Desk (World P) Response}
    (hrun : (office about).Runs (start w) s) :
    s.view.clicked = (sent s.asked).map Prod.fst ++ (s.tasks ()).hand ++ s.view.queue ∧
      (∀ x ∈ sent s.asked, Asks x.1 x.2) ∧ (sent s.carried).Sublist (sent s.asked) := by
  have hordered := ((office_ordered about).runs hrun (start_ordered about w)).kept
  have honce : (office about).Once () s :=
    Office.Once.runs hrun ⟨.slnil, fun h _ => (by cases h), fun a h => by cases h⟩
  exact ⟨hordered.clicked, hordered.asks, honce.carried.filterMap _⟩

/-- The first poll is drawn, a server of its menu is picked, another client connects, and the loop has
refreshed for the click. -/
def Sample.clicks : List (Move Unit String Work Change) :=
  [.change .tick, .act (), .carry (), .tell (), .carry (), .tell (), .carry (), .tell (), .act (),
    .change .draw, .change (.click 2), .other (.request (.connect (some "Bellatrix") none)), .act (),
    .lose () "connection refused", .act ()]

def Sample.picking : System Unit Task Desk (World (.linux Sample.log)) Response :=
  Sample.clicks.foldl (office Sample.about).step (start Sample.flaky)

theorem Sample.picking_runs :
    (office Sample.about).Runs (start Sample.flaky) Sample.picking := Office.runs_moves ..

theorem picking_kept :
    let s := Sample.picking
    s.view.clicked = (sent s.asked).map Prod.fst ++ (s.tasks ()).hand ++ s.view.queue ∧
      (∀ x ∈ sent s.asked, Asks x.1 x.2) ∧ (sent s.carried).Sublist (sent s.asked) :=
  clicks_kept Sample.about Sample.picking_runs

/-! ### What is shown -/

section

variable {G : Request → Response → Prop}

/-- What a snapshot shows was answered by the daemon. -/
structure Snapshot.Read (G : Request → Response → Prop) (s : Snapshot) : Prop where
  status : ∀ report, s.status = some report → G .status (.status report)
  ranking : s.ranking = [] ∨ G (.lastRanking (some (.ofNat quickConnectLimit))) (.ranking s.ranking)
  servers : s.servers = [] ∨
    G (.servers none (some (.ofNat quickConnectLimit)) false) (.servers s.servers)

theorem Snapshot.unread (unreachable busy : Option String) :
    Snapshot.Read G ⟨none, [], [], unreachable, busy⟩ :=
  ⟨fun _ h => (by cases h), .inl rfl, .inl rfl⟩

def Task.Read (G : Request → Response → Prop) : Task → Prop
  | readingRanking snapshot _ | readingServers snapshot _ | publishing snapshot _ => snapshot.Read G
  | _ => True

structure Desk.Read (G : Request → Response → Prop) (d : Desk) : Prop where
  shown : d.shown.Read G
  updates : ∀ s ∈ d.updates, s.Read G

theorem Desk.Read.publish {d : Desk} (h : d.Read G) {snapshot : Snapshot} (hs : snapshot.Read G) :
    (d.publish snapshot).Read G := by
  unfold Desk.publish
  split
  · exact h
  · exact ⟨h.shown, List.forall_mem_append.mpr ⟨h.updates, List.forall_mem_singleton.mpr hs⟩⟩

theorem acts_read {t : Task} {d : Desk} (ht : t.Read G) (hd : d.Read G) :
    (acts () t d).1.Read G ∧ (acts () t d).2.Read G := by
  cases t with
  | waiting =>
    rw [acts]
    split
    · exact ⟨trivial, hd.shown, hd.updates⟩
    split
    · exact ⟨trivial, hd⟩
    · exact ⟨trivial, hd.shown, hd.updates⟩
    · split <;> exact ⟨trivial, hd.shown, hd.updates⟩
  | publishing snapshot next =>
    refine ⟨?_, hd.publish ht⟩
    cases next with
    | done => cases hgone : d.gone <;> simp [acts, hgone, Task.Read]
    | _ => trivial
  | _ => exact ⟨ht, hd⟩

theorem told_read {t : Task} {q : Request} {r : Except String Response} (hasks : t.asks = some q)
    (hgiven : ∀ a, r = .ok a → G q a) (ht : t.Read G) : (t.told r).Read G := by
  cases t with
  | readingStatus busy next =>
    cases hasks
    rcases r with e | (_ | _ | _ | _ | _ | _ | _ | _ | _)
    case ok.status report =>
      exact ⟨fun _ h => (by cases h; exact hgiven _ rfl), .inl rfl, .inl rfl⟩
    all_goals exact Snapshot.unread _ _
  | readingRanking snapshot next =>
    cases hasks
    rcases r with e | (_ | (_ | _) | _ | _ | _ | _ | _ | _ | _)
    case ok.ranking.cons => exact ⟨ht.status, .inr (hgiven _ rfl), ht.servers⟩
    all_goals exact ht
  | readingServers snapshot next =>
    cases hasks
    rcases r with e | (_ | _ | _ | _ | _ | _ | _ | _ | _)
    case ok.servers => exact ⟨ht.status, ht.ranking, .inr (hgiven _ rfl)⟩
    all_goals exact ht
  | sending action request => trivial
  | _ => cases hasks

theorem Desk.Read.change {d : Desk} (h : d.Read G) (change : Change) : (d.change change).Read G := by
  cases change with
  | tick => exact ⟨h.shown, h.updates⟩
  | click line =>
    rw [Desk.change]
    split
    · exact h
    · split <;> exact ⟨h.shown, h.updates⟩
  | draw =>
    rw [Desk.change]
    split
    · exact h
    split
    · exact h
    · next snapshot rest hupdates =>
      have hall := h.updates
      rw [hupdates] at hall
      obtain ⟨hsnapshot, hrest⟩ := List.forall_mem_cons.mp hall
      exact ⟨hsnapshot, hrest⟩

end

theorem office_read (about : About P) (first : World P) :
    (office about).Keeps (Stateful.Reaches (work about) (fun _ _ => True) first)
      fun d tasks _ => d.Read (Given about first) ∧ (tasks ()).Read (Given about first) where
  handle q st h := h.next (a := Work.request q) trivial
  other st x h := h.next (a := x) trivial
  act d tasks asked _ hnone h := by
    rw [Function.update_self]
    exact (acts_read h.2 h.1).symm
  tell d tasks asked _ q r hq hgiven h := by
    rw [Function.update_self]
    exact ⟨h.1, told_read hq hgiven h.2⟩
  change d tasks asked change h := ⟨h.1.change change, h.2⟩

theorem start_read (about : About P) (first : World P) :
    (office about).Sound (Stateful.Reaches (work about) (fun _ _ => True) first)
      (fun d tasks _ => d.Read (Given about first) ∧ (tasks ()).Read (Given about first))
      (start first) where
  state := .here
  answers _ _ h := by cases h
  kept := ⟨⟨Snapshot.unread _ _, fun _ h => (by cases h)⟩, trivial⟩

theorem mem_clickable {s : Snapshot} {action : Action} :
    action ∈ s.clickable ↔ Offers s.menu action := by
  simp only [Snapshot.clickable, Offers, MenuItem.Raises, List.mem_flatMap, List.mem_filterMap,
    List.mem_filter, and_assoc]

theorem not_offers_option (o : Option String) (text : String → String) {action : Action} :
    ¬Offers (o.map fun line => disabled (text line)).toList action := by
  refine not_offers_disabled fun item h => ?_
  obtain ⟨line, -, rfl⟩ := Option.map_eq_some_iff.mp (Option.mem_toList.mp h)
  exact ⟨_, rfl⟩

theorem offers_proposal {pending : Option PendingSwitch} {action : Action} :
    Offers (match pending with
      | some pending => [.separator,
          disabled ("Suggested: " ++ pending.target.name ++ " (" ++ truncate pending.reason 40 ++ ")"),
          button "Switch now" "" true .approve, button "Keep the current server" "" true .dismiss]
      | none => []) action ↔ pending.isSome = true ∧ (action = .approve ∨ action = .dismiss) := by
  cases pending with
  | none => simp
  | some pending => simp

/-- The lines that carry out a click: they may come at any time, while the daemon answers. -/
theorem offers_connections {connected reachable : Bool} {action : Action} :
    Offers (if connected then [button "Disconnect" "" reachable .disconnect]
      else [button "Connect to best server" "" reachable (.connect none (some false)),
        button "Measure and connect" "" reachable (.connect none (some true))]) action ↔
      reachable = true ∧ ((connected = true ∧ action = .disconnect) ∨
        (connected = false ∧ ∃ measure, action = .connect none (some measure))) := by
  cases connected with
  | true => simp
  | false =>
    simp only [Bool.false_eq_true, if_false, offers_cons, offers_nil, raises_button, or_false,
      false_and, false_or, true_and, Bool.exists_bool]
    exact and_or_left.symm

theorem offers_entries {entries : List (String × String)} {reachable : Bool} {action : Action} :
    Offers (if entries = [] then []
      else [.submenu "Connect to" (entries.map fun e =>
        ⟨e.2, "", reachable, some (.connect (some e.1) (some false))⟩)]) action ↔
      reachable = true ∧ ∃ e ∈ entries, action = .connect (some e.1) (some false) := by
  split
  · next hnone => simp [hnone]
  · simp

theorem offers_config {path : Option String} {action : Action} :
    Offers (path.map fun path => button "Edit configuration…" "" true (.editConfig path)).toList
      action ↔ ∃ p, path = some p ∧ action = .editConfig p := by
  cases path with
  | none => simp
  | some path => simp

/-- What a click on the menu may ask for: at any time to quit, to answer a proposal that is shown and to
edit the settings that the daemon named; the rest only while the daemon answers. -/
theorem offers_menu {s : Snapshot} {action : Action} : Offers s.menu action ↔ action = .quit ∨
    ((s.status.bind StatusReport.pendingSwitch).isSome = true ∧
      (action = .approve ∨ action = .dismiss)) ∨
    (∃ path, s.status.bind StatusReport.configPath = some path ∧ action = .editConfig path) ∨
    (s.status.isSome = true ∧ (action = .autotune ∨
      (s.connected = true ∧ action = .disconnect) ∨
      (s.connected = false ∧ ∃ measure, action = .connect none (some measure)) ∨
      ∃ e ∈ s.entries, action = .connect (some e.1) (some false))) := by
  have hbaseline : ¬Offers ((s.status.bind baselineLine).map disabled).toList action :=
    not_offers_option _ id
  unfold Snapshot.menu
  simp only [offers_append, not_offers_option, hbaseline, offers_proposal, offers_connections,
    offers_entries, offers_config, offers_cons, offers_nil, raises_disabled, raises_separator,
    raises_button]
  grind

theorem offers_server {s : Snapshot} {name : String} {measure : Option Bool}
    (h : Offers s.menu (.connect (some name) measure)) : ∃ e ∈ s.entries, e.1 = name := by
  simp only [offers_menu, reduceCtorEq, Action.connect.injEq, Option.some.injEq, or_false, false_or,
    and_false, exists_false, false_and] at h
  grind

theorem offers_answer {s : Snapshot} {action : Action} (haction : action = .approve ∨ action = .dismiss)
    (h : Offers s.menu action) : (s.status.bind StatusReport.pendingSwitch).isSome = true := by
  rcases haction with rfl | rfl <;> simpa [offers_menu] using h

/-- The request that the loop makes for a server is to connect to it, which the daemon does or refuses;
while a tunnel is up it refuses without doing anything, so this picker never moves one. -/
theorem picks_connect (about : About P) {first : World P}
    {s : System Unit Task Desk (World P) Response} (hrun : (office about).Runs (start first) s)
    {name : String} {measure : Option Bool} {q : Request}
    (htask : s.tasks () = .sending (.connect (some name) measure) q) :
    q = .connect (some name) measure ∧ PickHeeded about name q s.state ∧
      (s.state.state.current.isSome = true →
        ∃ message, handle about q s.state = (.error message, s.state)) := by
  have hfits := (((office_ordered about).runs hrun (start_ordered about first)).kept).fits
  rw [htask] at hfits
  rcases hfits with ⟨path, hedit, -⟩ | ⟨busy, hrequest⟩
  · cases hedit
  · cases hrequest
    refine ⟨rfl, connect_heeded about name measure s.state, fun hup => ?_⟩
    obtain ⟨current, hcurrent⟩ := Option.isSome_iff_exists.mp hup
    exact ⟨_, connect_refused about name measure hcurrent⟩

theorem picking_connects :
    let q : Request := .connect (some "Achernar") (some false)
    let w := Sample.picking.state
    q = q ∧ PickHeeded Sample.about "Achernar" q w ∧
      (w.state.current.isSome = true → ∃ message, handle Sample.about q w = (.error message, w)) :=
  picks_connect Sample.about Sample.picking_runs
    (show Sample.picking.tasks () = .sending (.connect (some "Achernar") (some false)) _ from rfl)

end Vpnmgr.Tray.Windows
