import Vpnmgr.Daemon.Deeds
import Vpnmgr.Ipc.Handle

/-! What clients are told of servers. Wherever requests and passes lead, every server in an answer is
one of a list that the daemon was given, as that list described it. -/

namespace Vpnmgr

open Ieee Stateful Stateful.Action

variable {P : Platform} {α : Type} {G : Server → Prop}

/-! ### Requests and passes as deeds -/

theorem elapsed_does (at_ : Instant) : Within (Does G) (elapsed at_ : Daemon P Duration) :=
  Within.bind now_does fun _ => Within.pure _

theorem status_does (about : About P) :
    Within (Does G) (status about : Daemon P StatusReport) := by
  refine Within.bind (Within.read _) fun s => Within.bind ?_ fun lastSweep => ?_
  · cases s.lastSweep with
    | none => exact Within.pure _
    | some last => exact Within.bind (elapsed_does _) fun _ => Within.pure _
  refine Within.bind (Within.read _) fun live => Within.bind (Within.read _) fun wallClock => ?_
  refine Within.bind pendingSwitch_does fun pending => Within.bind now_does fun t => ?_
  refine Within.bind ?_ fun age => Within.pure _
  cases s.directMbps with
  | none => exact Within.pure _
  | some direct => exact Within.bind (elapsed_does _) fun _ => Within.pure _

theorem lastRanking_does (limit : Option Nat) :
    Within (Does G) (lastRanking limit : Daemon P (List RankedServer)) :=
  Within.bind (Within.read _) fun _ => Within.bind now_does fun _ => Within.pure _

theorem handle_does (about : About P) (r : Request) (w : World P) :
    Does G w (handle about r w).2 := by
  cases hop : r.op with
  | some op =>
    rw [handle_step about hop]
    exact step_does w op
  | none =>
    cases r with
    | status => exact (reply_world about (status about) .status w).symm ▸ status_does about w
    | lastRanking limit =>
      exact (reply_world about (lastRanking _) .ranking w).symm ▸ lastRanking_does _ w
    | version => exact refl_of (Does G) w
    | _ => cases hop

theorem work_does (about : About P) (w : World P) (x : Work) : Does G w (work about w x) := by
  cases x with
  | request r => exact handle_does about r w
  | scheduled => exact step_does w .scheduledPass
  | abandoned at_ => exact turn_does w (.abandoned at_)

/-- What a start has and every deed keeps holds wherever requests and passes lead. -/
theorem works_holds {about : About P} {start w : World P} {I : World P → Prop}
    (hstart : Starts start) (hinit : I start)
    (hdeed : ∀ w w', Deed start.Offered w w' → I w → I w')
    (h : Reaches (work about) (fun _ _ => True) start w) : w.Lists start.Offered ∧ I w := by
  refine h.keeps (I := fun w => w.Lists start.Offered ∧ I w) ?_ ⟨hstart.lists, hinit⟩
  rintro w x - ⟨hlists, hw⟩
  have hdeeds := work_does about w x hlists
  refine ⟨hdeeds.lists hlists, ?_⟩
  generalize work about w x = w' at hdeeds
  clear hlists
  induction hdeeds with
  | refl => exact hw
  | tail _ hmove ih => exact hdeed _ _ hmove ih

/-! ### Servers of the lists -/

/-- Every server that the daemon keeps is one of these: those that it ranked, found the best of a
sweep, proposes or is connected to. -/
structure World.Grounded (G : Server → Prop) (w : World P) : Prop where
  ranking : ∀ r ∈ w.state.lastRanking, Known (Fit G) r
  sweep : ∀ last, w.state.lastSweep = some last → last.1.Of G
  pending : ∀ p, w.state.pending = some p → Known (Fit G) p.1
  current : ∀ c, w.state.current = some c → ∃ r, Known G r ∧ c = .of r

theorem Deed.grounded {w w' : World P} (h : Deed G w w') (hw : w.Grounded G) : w'.Grounded G := by
  cases h with
  | noted summary h => exact ⟨hw.ranking, fun l hl => (by cases hl; exact h), hw.pending, hw.current⟩
  | ranked measured h => exact ⟨ranked_known h, hw.sweep, hw.pending, hw.current⟩
  | rated server mbps =>
    refine ⟨fun r hr => ?_, hw.sweep, hw.pending, hw.current⟩
    obtain ⟨stored, hstored, rfl⟩ := List.mem_map.mp hr
    obtain ⟨s, hs, hdescribes⟩ := hw.ranking stored hstored
    refine ⟨s, hs, ?_⟩
    split
    · exact ⟨hdescribes.name, hdescribes.countryCode, hdescribes.countryName, hdescribes.location,
        hdescribes.load, hdescribes.headroomMbps, hdescribes.entry⟩
    · exact hdescribes
  | up chosen _ _ _ hknown =>
    exact ⟨hw.ranking, hw.sweep, hw.pending, fun c hc => (by cases hc; exact ⟨chosen, hknown, rfl⟩)⟩
  | moved chosen _ _ _ _ hknown =>
    exact ⟨hw.ranking, hw.sweep, hw.pending, fun c hc => (by cases hc; exact ⟨chosen, hknown, rfl⟩)⟩
  | down => exact ⟨hw.ranking, hw.sweep, hw.pending, fun c hc => (by cases hc)⟩
  | reloaded =>
    exact ⟨fun r hr => hw.ranking r (List.mem_filter.mp hr).1, hw.sweep,
      fun p hp => hw.pending p (Option.filter_eq_some_iff.mp hp).1, hw.current⟩
  | proposed target reason hknown =>
    exact ⟨hw.ranking, hw.sweep, fun p hp => (by cases hp; exact hknown), hw.current⟩
  | settled => exact ⟨hw.ranking, hw.sweep, fun p hp => (by cases hp), hw.current⟩
  | _ => exact ⟨hw.ranking, hw.sweep, hw.pending, hw.current⟩

theorem Starts.grounded {w : World P} (h : Starts w) : w.Grounded G := by
  obtain ⟨_, _, _, _, _, hloaded⟩ := h.loads
  constructor <;> rw [hloaded]
  · intro r hr
    cases hr
  · intro l hl
    cases hl
  · intro p hp
    cases hp
  · intro c hc
    cases hc

/-! ### What is told -/

/-- What a report says of servers is true of these. -/
structure StatusReport.Truthful (G : Server → Prop) (s : StatusReport) : Prop where
  sweep : ∀ summary, s.lastSweep = some summary → summary.Of G
  pending : ∀ p, s.pendingSwitch = some p → Known (Fit G) p.target
  connected : s.connected = true → ∃ r, Known G r ∧ s.server = some r.name ∧
    s.location = some r.location ∧ s.countryCode = some r.countryCode ∧ s.entry = some r.entry

/-- A text that reports a connection or a move is of one of these servers. -/
def Request.Truthful (G : Server → Prop) (text : String) : Request → Prop
  | .connect .. => ∃ chosen, Known G chosen ∧ text = connectedText chosen
  | .switch _ | .approve => ∃ chosen, Known G chosen ∧ text = switchedText chosen
  | _ => True

/-- Every server in an answer is one of these; those that are ranked, found best or proposed were
reported healthy. -/
def Response.Truthful (G : Server → Prop) (r : Request) : Response → Prop
  | .status report => report.Truthful G
  | .ranking list => ∀ r ∈ list, Known (Fit G) r
  | .servers list => ∀ x ∈ list, ∃ s, G s ∧ x = s.summary
  | .tuned report => ∀ p, report.pending = some p → Known (Fit G) p.target
  | .speed report => ∀ name, report.server = some name → ∃ s, G s ∧ s.name = name
  | .ok text => r.Truthful G text
  | .error _ | .version _ | .killswitch _ => True

/-- What clients read of the world may be told. -/
def World.Standing (G : Server → Prop) (w : World P) : Prop := w.Lists G ∧ w.Grounded G

theorem Deeds.grounded {w w' : World P} (h : Deeds G w w') (hw : w.Grounded G) :
    w'.Grounded G := by
  induction h with
  | refl => exact hw
  | tail _ hdeed ih => exact hdeed.grounded ih

theorem standing_of_does {x : Daemon P α} (h : Within (Does G) x) :
    Yields (World.Standing G) (fun _ => True) x := fun w hw =>
  have hdeeds := h w hw.1
  ⟨⟨hdeeds.lists hw.1, hdeeds.grounded hw.2⟩, fun _ _ => trivial⟩

theorem self_standing : Yields (World.Standing G)
    (fun s : State P => ∃ w : World P, w.Standing G ∧ w.state = s) (self : Daemon P (State P)) :=
  Yields.read fun w hw => ⟨w, hw, rfl⟩

theorem pendingSwitch_standing : Yields (World.Standing G)
    (fun pending => ∀ p, pending = some p → Known (Fit G) p.target)
    (pendingSwitch : Daemon P (Option PendingSwitch)) := by
  refine Yields.bind self_standing ?_
  rintro s ⟨w, hw, rfl⟩
  cases hpending : w.state.pending with
  | none => exact Yields.pure fun p hp => (by cases hp)
  | some pending =>
    refine Yields.bind (standing_of_does (elapsed_does _)) fun age _ => Yields.pure fun p hp => ?_
    cases hp
    exact hw.2.pending _ hpending

theorem status_standing (about : About P) : Yields (World.Standing G) (StatusReport.Truthful G)
    (status about : Daemon P StatusReport) := by
  refine Yields.bind self_standing ?_
  rintro s ⟨w, hw, rfl⟩
  have hsweep : Yields (World.Standing G) (fun last => ∀ summary, last = some summary →
      summary.Of G) (agedSweep w.state.lastSweep : Daemon P (Option SweepSummary)) := by
    cases hlast : w.state.lastSweep with
    | none => exact Yields.pure fun _ h => (by cases h)
    | some last =>
      refine Yields.bind (standing_of_does (elapsed_does _)) fun age _ =>
        Yields.pure fun summary h => ?_
      cases h
      have hof := hw.2.sweep last hlast
      exact ⟨hof.reachable, hof.none, hof.allUnreachable, hof.best⟩
  have hage : Yields (World.Standing G) (fun _ => True)
      (baselineAge w.state.directMbps : Daemon P (Option Nat)) := by
    cases w.state.directMbps with
    | none => exact Yields.pure trivial
    | some direct => exact Yields.bind (standing_of_does (elapsed_does _)) fun _ _ => Yields.pure trivial
  refine Yields.bind hsweep fun lastSweep hlastSweep => ?_
  refine Yields.bind (Q := fun _ => True) (Yields.read fun _ _ => trivial) fun live _ => ?_
  refine Yields.bind (Q := fun _ => True) (Yields.read fun _ _ => trivial) fun wallClock _ => ?_
  refine Yields.bind pendingSwitch_standing fun pending hpending => ?_
  refine Yields.bind (standing_of_does now_does) fun t _ => Yields.bind hage fun age _ =>
    Yields.pure ?_
  cases hcurrent : w.state.current with
  | none => exact ⟨hlastSweep, hpending, fun h => (by cases h)⟩
  | some current =>
    obtain ⟨r, hr, rfl⟩ := hw.2.current current hcurrent
    exact ⟨hlastSweep, hpending, fun _ => ⟨r, hr, rfl, rfl, rfl, rfl⟩⟩

/-- The rates that are put into it leave a ranked server the one it was. -/
theorem Known.rated {r : RankedServer} (h : Known G r) (mbps : Option F64) (age : Option Nat) :
    Known G { r with mbps := mbps, mbpsAgeSecs := age } := by
  obtain ⟨s, hs, hr⟩ := h
  exact ⟨s, hs, hr.name, hr.countryCode, hr.countryName, hr.location, hr.load, hr.headroomMbps,
    hr.entry⟩

theorem lastRanking_standing (limit : Option Nat) : Yields (World.Standing G)
    (fun ranking => ∀ r ∈ ranking, Known (Fit G) r)
    (lastRanking limit : Daemon P (List RankedServer)) := by
  refine Yields.bind self_standing ?_
  rintro s ⟨w, hw, rfl⟩
  refine Yields.bind (standing_of_does now_does) fun t _ => Yields.pure fun r hr => ?_
  obtain ⟨stored, hstored, rfl⟩ := List.mem_map.mp (State.lastRankingAt_subset hr)
  have hknown := hw.2.ranking stored hstored
  split
  · exact hknown.rated _ _
  · exact hknown

theorem sweep_standing (country : Option String) : Yields (World.Standing G)
    (fun ranking => ∀ r ∈ ranking, Known (Fit G) r)
    (sweep country : Daemon P (List RankedServer)) := fun w hw =>
  ⟨(standing_of_does (sweep_does country) w hw).1, fun ranking h => by
    rcases hrun : sweep country w with ⟨e | ranking', v⟩
    · rw [hrun] at h
      cases h
    · rw [hrun] at h
      cases h
      exact (sweep_known hw.1 hrun).2⟩

theorem servers_standing (country : Option String) (limit : Option Nat) (all : Bool) :
    Yields (World.Standing G) (fun list => ∀ x ∈ list, ∃ s, G s ∧ x = s.summary)
    (servers country limit all : Daemon P (List ServerSummary)) := by
  have hlist : Yields (World.Standing G) (fun list => ∀ s ∈ list.servers, G s)
      (serverList : Daemon P ServerList) := fun w hw =>
    ⟨(standing_of_does serverList_does w hw).1, fun list h => by
      rcases hrun : serverList w with ⟨e | list', v⟩
      · rw [hrun] at h
        cases h
      · rw [hrun] at h
        cases h
        exact serverList_listed hw.1 hrun⟩
  refine Yields.bind (Q := fun _ => True) (Yields.read fun _ _ => trivial) fun s _ => ?_
  refine Yields.bind hlist fun list hservers => Yields.pure ?_
  have hshown : ∀ shown : Server → Bool, ∀ x ∈ ((list.servers.filter shown).map
      Server.summary).insertionSort fun a b => a.load < b.load ∨ (a.load = b.load ∧ a.name ≤ b.name),
      ∃ s, G s ∧ x = s.summary := by
    intro shown x hx
    rw [List.mem_insertionSort] at hx
    obtain ⟨s, hs, rfl⟩ := List.mem_map.mp hx
    exact ⟨s, hservers s (List.mem_filter.mp hs).1, rfl⟩
  cases limit with
  | none => exact hshown _
  | some n => exact fun x hx => hshown _ x (List.mem_of_mem_take hx)

/-! ### What operations that move the connection return -/

/-- A pass reports the proposal that it leaves. -/
theorem record_pending {decision : Tuner.Decision} {w w' : World P} {report : TuneReport}
    (h : record decision w = (.ok report, w')) :
    report.pending.map PendingSwitch.target = w'.state.pending.map Prod.fst := by
  cases decision <;> (cases h; rfl)

theorem tuneDegraded_pending {current : Connection} {currentRtt : Option F64} {w w' : World P}
    {report : TuneReport} (h : tuneDegraded current currentRtt w = (.ok report, w')) :
    report.pending.map PendingSwitch.target = w'.state.pending.map Prod.fst := by
  rcases hsweep : sweep none w with ⟨e | ranked, v⟩
  · rw [tuneDegraded, attempt_bind, hsweep] at h
    cases e with
    | allUnreachable probed => exact record_pending h
    | _ => cases h
  · obtain ⟨_, _, -, hrun⟩ := tuneDegraded_swept current currentRtt hsweep
    rw [hrun] at h
    obtain ⟨_, u, _, h⟩ := bind_ok h
    exact record_pending h

theorem tune_pending {w w' : World P} {report : TuneReport} (h : tune w = (.ok report, w')) :
    report.pending.map PendingSwitch.target = w'.state.pending.map Prod.fst := by
  have hrun := h
  rw [tune, self, read_bind] at h
  cases hcurrent : w.state.current with
  | none =>
    rw [hcurrent] at h
    exact record_pending h
  | some current =>
    rw [hcurrent] at h
    obtain ⟨rtt, v, hprobe, -⟩ := bind_ok h
    cases hfast : v.state.isFast rtt with
    | true =>
      obtain ⟨rttMs, rfl⟩ := Option.isSome_iff_exists.mp (Option.isSome_of_any hfast)
      rw [tune_fast hcurrent hprobe hfast] at hrun
      exact record_pending hrun
    | false =>
      rw [tune_slow hcurrent hprobe hfast] at hrun
      exact tuneDegraded_pending hrun

theorem autotune_standing : Yields (World.Standing G)
    (fun report => ∀ p, report.pending = some p → Known (Fit G) p.target)
    (autotune : Daemon P TuneReport) := by
  refine Yields.bind (standing_of_does now_does) fun t _ => ?_
  refine Yields.bind (standing_of_does (timed_does _)) fun _ _ w hw => ?_
  obtain ⟨hafter, -⟩ := standing_of_does tune_does w hw
  refine ⟨hafter, fun report hreport p hp => ?_⟩
  rcases hrun : tune w with ⟨e | report', w'⟩
  · rw [hrun] at hreport
    cases hreport
  · rw [hrun] at hreport hafter
    cases hreport
    have hpending := tune_pending hrun
    rw [hp] at hpending
    obtain ⟨q, hq, hsame⟩ := Option.map_eq_some_iff.mp hpending.symm
    rw [← hsame]
    exact hafter.2.pending q hq

/-- Candidates are settled on at the rate that was measured. -/
theorem tryCandidates_settled {allowed : RankedServer → Prop}
    (hrated : ∀ c mbps, allowed c → allowed (c.measuredAt mbps)) {target : F64}
    {request : ThroughputRequest} {first : Bool} {best : Option (RankedServer × F64)}
    {candidates : List RankedServer} {chosen : RankedServer} {w w' : World P}
    (hcandidates : ∀ c ∈ candidates, allowed c)
    (h : tryCandidates target request first best candidates w = (.ok (.settled chosen), w')) :
    allowed chosen := by
  induction candidates generalizing first best w with
  | nil => cases h
  | cons candidate rest ih =>
    obtain ⟨hcandidate, hrest⟩ := List.forall_mem_cons.mp hcandidates
    obtain ⟨trial, _, _, h⟩ := bind_ok h
    obtain ⟨_, _, _, h⟩ := bind_ok h
    obtain ⟨rate, _, _, h⟩ := bind_ok h
    cases rate with
    | none => exact ih hrest h
    | some mbps =>
      dsimp only at h
      split at h
      · cases h
        exact hrated _ _ hcandidate
      · exact ih hrest h

/-- The best ranked servers are tried, so that the one connected to is ranked. -/
theorem connectBest_ranked {measureFirst : Option Bool} {allowed : RankedServer → Prop}
    (hrated : ∀ c mbps, allowed c → allowed (c.measuredAt mbps)) {chosen : RankedServer}
    {w w' : World P} (hranked : ∀ ranked v, rankForConnect measureFirst w = (.ok ranked, v) →
      ∀ c ∈ ranked, allowed c)
    (h : connectBest measureFirst w = (.ok chosen, w')) : allowed chosen := by
  obtain ⟨ranked, v, hrank, h⟩ := bind_ok h
  have hallowed := hranked ranked v hrank
  rw [self, read_bind] at h
  cases ranked with
  | nil => cases h
  | cons first rest =>
    dsimp only at h
    split at h
    · obtain ⟨_, u, _, h⟩ := bind_ok h
      cases h
      exact hallowed _ List.mem_cons_self
    · have hshortlist : ∀ c ∈ (first :: rest).take (v.state.attempts measureFirst (first :: rest)),
          allowed c := fun c hc => hallowed c (List.mem_of_mem_take hc)
      generalize (first :: rest).take _ = shortlist at hshortlist h
      obtain ⟨tried, u, htried, h⟩ := bind_ok h
      cases tried with
      | settled settled =>
        cases h
        exact tryCandidates_settled hrated hshortlist htried
      | best best =>
        have hbest := tryCandidates_best hshortlist (fun b hb => by cases hb) htried
        cases best with
        | some best =>
          obtain ⟨_, x, _, h⟩ := bind_ok h
          cases h
          exact hrated _ _ (hbest best rfl)
        | none =>
          cases shortlist with
          | nil => cases h
          | cons candidate others =>
            obtain ⟨_, x, _, h⟩ := bind_ok h
            cases h
            exact hshortlist _ List.mem_cons_self

theorem connect_known {server : Option String} {measureFirst : Option Bool}
    {chosen : RankedServer} {w w' : World P} (hw : w.Lists G)
    (h : connect server measureFirst w = (.ok chosen, w')) : Known G chosen := by
  rw [connect, self, read_bind] at h
  cases hcurrent : w.state.current with
  | some current => rw [hcurrent] at h; cases h
  | none =>
    rw [hcurrent] at h
    cases server with
    | none =>
      exact connectBest_ranked (fun _ _ hc => hc.rated _ _)
        (fun _ _ hrank => rankForConnect_known hw hrank) h
    | some name =>
      obtain ⟨chosen', v, hprobe, h⟩ := bind_ok h
      obtain ⟨_, u, _, h⟩ := bind_ok h
      cases h
      exact probeNamed_known hw hprobe

theorem switch_known {name : String} {chosen : RankedServer} {w w' : World P} (hw : w.Lists G)
    (h : switch name w = (.ok chosen, w')) : Known G chosen := by
  obtain ⟨v, hprobe, -⟩ := switch_records h
  exact probeNamed_known hw hprobe

theorem approve_known {chosen : RankedServer} {w w' : World P} (hw : w.Lists G)
    (h : approve w = (.ok chosen, w')) : Known G chosen := by
  rw [approve, self, read_bind] at h
  cases hpending : w.state.pending with
  | none => rw [hpending] at h; cases h
  | some pending =>
    rw [hpending] at h
    obtain ⟨_, v, hsettled, h⟩ := bind_ok h
    have hv : v.Lists G := by
      cases hsettled
      exact Deed.settled.lists hw
    obtain ⟨moved, u, hswitch, h⟩ := bind_ok h
    obtain ⟨_, x, _, h⟩ := bind_ok h
    cases h
    exact switch_known hv hswitch

/-! ### Every answer -/

/-- A report of a measurement names the server that was connected, if any. -/
theorem speedtest_server {report : SpeedReport} {w w' : World P}
    (h : speedtest w = (.ok report, w')) : report.server = w.state.current.map Connection.server := by
  rw [speedtest, self, read_bind] at h
  obtain ⟨sample, v, _, h⟩ := bind_ok h
  cases hcurrent : w.state.current with
  | none =>
    rw [hcurrent] at h
    obtain ⟨_, u, _, h⟩ := bind_ok h
    cases h
    rfl
  | some current =>
    rw [hcurrent] at h
    obtain ⟨_, u, _, h⟩ := bind_ok h
    cases h
    rfl

theorem baseline_server {report : SpeedReport} {w w' : World P}
    (h : baseline w = (.ok report, w')) : report.server = w.state.current.map Connection.server := by
  rw [baseline, self, read_bind] at h
  cases hcurrent : w.state.current with
  | none =>
    rw [hcurrent] at h
    rw [speedtest_server h, hcurrent]
  | some current =>
    rw [hcurrent] at h
    obtain ⟨_, v₁, _, h⟩ := bind_ok h
    obtain ⟨_, v₂, _, h⟩ := bind_ok h
    obtain ⟨_, v₃, _, h⟩ := bind_ok h
    obtain ⟨_, v₄, _, h⟩ := bind_ok h
    obtain ⟨_, v₅, _, h⟩ := bind_ok h
    obtain ⟨_, v₆, _, h⟩ := bind_ok h
    obtain ⟨_, v₇, _, h⟩ := bind_ok h
    obtain ⟨_, v₈, _, h⟩ := bind_ok h
    cases h
    rfl

/-- The server of the connection is one of these. -/
theorem World.Grounded.server {w : World P} (hw : w.Grounded G) {name : String}
    (h : w.state.current.map Connection.server = some name) : ∃ s, G s ∧ s.name = name := by
  obtain ⟨c, hc, rfl⟩ := Option.map_eq_some_iff.mp h
  obtain ⟨r, ⟨s, hs, hdescribes⟩, rfl⟩ := hw.current c hc
  exact ⟨s, hs, hdescribes.name.symm⟩

/-- An answer is truthful where whatever the operation returns makes one. -/
theorem reply_truthful {about : About P} {x : Daemon P α} {f : α → Response} {r : Request}
    {w : World P} (h : ∀ a w', x w = (.ok a, w') → (f a).Truthful G r) :
    (reply about x f w).1.Truthful G r := by
  unfold reply
  rcases hrun : x w with ⟨e | a, w'⟩
  · trivial
  · exact h a w' hrun

theorem reply_standing {about : About P} {x : Daemon P α} {f : α → Response} {r : Request}
    {w : World P} (hx : Yields (World.Standing G) (fun a => (f a).Truthful G r) x)
    (hw : w.Standing G) : (reply about x f w).1.Truthful G r :=
  reply_truthful fun a _ hrun => (hx w hw).2 a (by rw [hrun])

theorem handle_truthful (about : About P) (r : Request) {w : World P} (hw : w.Standing G) :
    (handle about r w).1.Truthful G r := by
  cases r with
  | version => trivial
  | status => exact reply_standing (status_standing about) hw
  | connect server measure =>
    exact reply_truthful fun chosen w' h => ⟨chosen, connect_known hw.1 h, rfl⟩
  | switch server =>
    exact reply_truthful fun chosen w' h => ⟨chosen, switch_known hw.1 h, rfl⟩
  | approve => exact reply_truthful fun chosen w' h => ⟨chosen, approve_known hw.1 h, rfl⟩
  | test country => exact reply_standing (sweep_standing country) hw
  | lastRanking limit => exact reply_standing (lastRanking_standing _) hw
  | servers country limit all =>
    exact reply_standing (servers_standing country _ all) hw
  | autotune => exact reply_standing autotune_standing hw
  | speedtest =>
    exact reply_truthful fun a w' h name hname => hw.2.server ((speedtest_server h).symm.trans hname)
  | baseline confirm =>
    cases confirm with
    | false => trivial
    | true =>
      exact reply_truthful fun a w' h name hname => hw.2.server ((baseline_server h).symm.trans hname)
  | disconnect => exact reply_truthful fun _ _ _ => trivial
  | reload => exact reply_truthful fun _ _ _ => trivial
  | dismiss => exact reply_truthful fun _ _ _ => trivial
  | killswitch enable => exact reply_truthful fun _ _ _ => trivial

end Vpnmgr
