import Vpnmgr.Library.Strike
import Vpnmgr.Tunnel.Exemptions

/-! Withdrawing a bypass from a table that other programs changed since it was installed. A deletion
names a destination only, so it takes the first entry for the prefix, whoever added it. -/

namespace Vpnmgr

open Strike

/-- An entry of the main table, and whether the bypass added it. -/
structure TaggedRoute where
  route : TableRoute
  own : Bool
  deriving DecidableEq

/-- What another program does to the main table. -/
inductive Meddling where
  | add (at_ : Nat) (route : TableRoute)
  | delete (at_ : Nat)

def Meddling.run (table : List TaggedRoute) : Meddling → List TaggedRoute
  | add i route => table.insertIdx i ⟨route, false⟩
  | delete i => table.eraseIdx i

/-- A bypass from its installation to its withdrawal: the table it finds, its plan and how the
commands for each route fare, what other programs do to the table, and which deletions succeed. -/
structure Stay where
  initial : RouteTable
  plan : List (Route × InstallFaults)
  meddling : List Meddling
  deleted : Nat → Bool

namespace Stay

/-- The record and the table that installing the plan leaves. -/
def installed (s : Stay) : Bypass × RouteTable :=
  s.plan.foldl (fun at_ c => Bypass.installRoute c.2 at_ c.1) (Bypass.new, s.initial)

/-- The table after the installation, what was added at its end. -/
def tagged (s : Stay) : List TaggedRoute :=
  s.initial.map (⟨·, false⟩) ++ (s.installed.2.drop s.initial.length).map (⟨·, true⟩)

/-- The table that the withdrawal finds. -/
def before (s : Stay) : List TaggedRoute := s.meddling.foldl Meddling.run s.tagged

end Stay

/-- Withdraw recorded routes in turn, by their places in the record as far as each can be deleted. -/
def withdraw (deleted : Nat → Bool) (installed : List Route) (table : List TaggedRoute) :
    List TaggedRoute :=
  installed.zipIdx.foldl (fun t c =>
    if deleted c.2 then t.eraseP fun e => Cidr.parse c.1.destination = some e.route.network
    else t) table

namespace Stay

/-- The table that the withdrawal leaves. -/
def after (s : Stay) : List TaggedRoute := withdraw s.deleted s.installed.1.installed s.before

/-- What a withdrawal is to be: it deletes nothing but what the installation added, without other
programs and failures it leaves the first table, and repeating it does nothing. -/
structure Clean (s : Stay) : Prop where
  frame : (s.after.filter fun e => !e.own) = s.before.filter fun e => !e.own
  restores : s.meddling = [] → (∀ i, s.deleted i = true) → s.after.map TaggedRoute.route = s.initial
  again : ∀ deleted deleted' table table',
    (s.installed.1.remove deleted table).1.remove deleted' table' = (Bypass.new, table')

/-- The networks that the successful deletions name. -/
def struck (s : Stay) : List Cidr :=
  s.installed.1.installed.zipIdx.filterMap fun c =>
    if s.deleted c.2 then Cidr.parse c.1.destination else none

def network (e : TaggedRoute) : Cidr := e.route.network

/-- The first entries for each network, as many as successful deletions name it, were added by the
installation. -/
def OwnFirst (s : Stay) : Prop :=
  ∀ net, ∀ e ∈ (entries network net s.before).take (s.struck.count net), e.own = true

end Stay

/-! ### The functions of the bypass -/

/-- Where the commands fare alike for equal routes, the installation is the one of the plan. -/
theorem Stay.installed_eq_install (s : Stay) {f : InstallFaults} {routes : List Route}
    (h : s.plan = routes.map fun r => (r, f)) :
    s.installed = Bypass.new.install f routes s.initial := by
  rw [installed, h, List.foldl_map]
  rfl

/-- Without the tags, a withdrawal whose deletions fare alike for equal routes is `remove`. -/
theorem withdraw_eq_remove (b : Bypass) (deleted : Route → Bool) (table : List TaggedRoute) :
    (withdraw (fun i => b.installed[i]?.any deleted) b.installed table).map TaggedRoute.route =
      (b.remove deleted (table.map TaggedRoute.route)).2 := by
  have hfold : ∀ (l : List Route) (n : Nat) (flags : Nat → Bool) (t : List TaggedRoute),
      (∀ i r, l[i]? = some r → flags (n + i) = deleted r) →
      ((l.zipIdx n).foldl (fun t c => if flags c.2 then
          t.eraseP fun e => Cidr.parse c.1.destination = some e.route.network else t) t).map
        TaggedRoute.route =
      l.foldl (fun t r => if deleted r then
        t.eraseP fun e => Cidr.parse r.destination = some e.network else t)
        (t.map TaggedRoute.route) := by
    intro l
    induction l with
    | nil => intro _ _ _ _; rfl
    | cons r l ih =>
      intro n flags t h
      have hfirst : flags n = deleted r := by simpa using h 0 r rfl
      rw [List.zipIdx_cons, List.foldl_cons, List.foldl_cons, hfirst]
      rw [ih (n + 1) flags _ fun i r' hr' => by
        rw [← h (i + 1) r' (by simpa using hr'), Nat.add_assoc, Nat.add_comm 1]]
      congr 1
      cases deleted r with
      | true => rw [if_pos rfl, if_pos rfl, List.eraseP_map]; rfl
      | false => rfl
  exact hfold b.installed 0 (fun i => b.installed[i]?.any deleted) table fun i r hr => by simp [hr]

theorem withdraw_eq_strike (deleted : Nat → Bool) (installed : List Route)
    (table : List TaggedRoute) :
    withdraw deleted installed table = strike Stay.network
      (installed.zipIdx.filterMap fun c =>
        if deleted c.2 then Cidr.parse c.1.destination else none) table := by
  unfold withdraw
  induction installed.zipIdx generalizing table with
  | nil => rfl
  | cons c rest ih =>
    rw [List.foldl_cons, ih]
    cases hdeleted : deleted c.2 with
    | false => simp [hdeleted]
    | true =>
      cases hparse : Cidr.parse c.1.destination with
      | none =>
        have hkept : table.eraseP (fun _ => false) = table := List.eraseP_of_forall_not (by simp)
        simp [hdeleted, hparse, hkept]
      | some net =>
        simp only [List.filterMap_cons, hdeleted, if_true, hparse, strike_cons, Option.some.injEq]
        simp only [Stay.network, eq_comm]

/-! ### What the installation added -/

/-- The installation adds an entry for each route it records, at the end of the table. -/
theorem Stay.installs (s : Stay) : ∃ added, s.installed.2 = s.initial ++ added ∧
    (s.installed.1.installed.filterMap fun r => Cidr.parse r.destination) =
      added.map TableRoute.network := by
  unfold installed
  refine List.foldlRecOn s.plan _ (motive := fun at_ : Bypass × RouteTable =>
    ∃ added, at_.2 = s.initial ++ added ∧
      (at_.1.installed.filterMap fun r => Cidr.parse r.destination) =
        added.map TableRoute.network) ⟨[], by simp, rfl⟩ fun at_ h c _ => ?_
  obtain ⟨added, htable, hrecord⟩ := h
  rcases Bypass.installRoute_cases c.2 at_ c.1 with ⟨hkept, _⟩ | ⟨net, hparse, _, hrun⟩
  · rw [hkept]
    exact ⟨added, htable, hrecord⟩
  · rw [hrun]
    refine ⟨added ++ [⟨net, c.1.via⟩], by rw [htable, List.append_assoc], ?_⟩
    simp [List.filterMap_append, hrecord, hparse]

/-- Where nothing else happens to the table, each network has as many entries of the installation's
as the record names it. -/
theorem Stay.own_count {s : Stay} (hmeddling : s.meddling = []) (hall : ∀ i, s.deleted i = true)
    (net : Cidr) :
    (entries network net s.before).countP (fun e => !!e.own) = s.struck.count net := by
  obtain ⟨added, htable, hrecord⟩ := s.installs
  have hstruck : s.struck = added.map TableRoute.network := by
    have hplaces := congrArg (List.filterMap fun r : Route => Cidr.parse r.destination)
      (List.zipIdx_map_fst 0 s.installed.1.installed)
    rw [List.filterMap_map] at hplaces
    rw [← hrecord, struck, ← hplaces]
    simp only [hall, if_true]
    rfl
  have hothers : (entries network net (s.initial.map (⟨·, false⟩))).countP (fun e => !!e.own) = 0 := by
    apply List.countP_eq_zero.mpr
    intro e he
    obtain ⟨_, _, rfl⟩ := List.mem_map.mp (List.mem_filter.mp he).1
    exact Bool.false_ne_true
  have hown : (entries network net (added.map (⟨·, true⟩))).countP (fun e => !!e.own) =
      (added.map TableRoute.network).count net := by
    rw [List.countP_eq_length.mpr, entries, List.filter_map, List.length_map, List.count,
      List.countP_map, List.countP_eq_length_filter]
    · rfl
    · intro e he
      obtain ⟨_, _, rfl⟩ := List.mem_map.mp (List.mem_filter.mp he).1
      rfl
  rw [hstruck, before, hmeddling, List.foldl_nil, tagged, htable, List.drop_left, entries,
    List.filter_append, List.countP_append]
  exact (congrArg₂ (· + ·) hothers hown).trans (Nat.zero_add _)

/-- A withdrawal is clean exactly if what it takes first was added by the installation. -/
theorem Stay.clean_iff (s : Stay) : s.Clean ↔ s.OwnFirst := by
  have hafter : s.after = strike network s.struck s.before := withdraw_eq_strike _ _ _
  have hframe : ((s.after.filter fun e => !e.own) = s.before.filter fun e => !e.own) ↔
      s.OwnFirst := by
    rw [hafter, filter_strike_iff]
    simp [OwnFirst]
  constructor
  · exact fun h => hframe.mp h.frame
  · intro h
    refine ⟨hframe.mpr h, fun hmeddling hall => ?_, fun _ _ _ _ => rfl⟩
    have hleft : s.after = s.before.filter fun e => !e.own := by
      rw [hafter]
      exact strike_eq_filter (by simpa [OwnFirst] using h) fun net => own_count hmeddling hall net
    have hothers : ((s.initial.map (⟨·, false⟩)).filter fun e : TaggedRoute => !e.own) =
        s.initial.map (⟨·, false⟩) := by
      apply List.filter_eq_self.mpr
      intro e he
      obtain ⟨_, _, rfl⟩ := List.mem_map.mp he
      rfl
    have hown : (((s.installed.2.drop s.initial.length).map (⟨·, true⟩)).filter
        fun e : TaggedRoute => !e.own) = [] := by
      apply List.filter_eq_nil_iff.mpr
      intro e he
      obtain ⟨_, _, rfl⟩ := List.mem_map.mp he
      exact Bool.false_ne_true
    rw [hleft, before, hmeddling, List.foldl_nil, tagged, List.filter_append, hothers, hown,
      List.append_nil, List.map_map]
    exact List.map_id _

/-! ### Where the condition holds, and where not -/

/-- An installation whose queries are answered adds only networks that the table did not have. -/
theorem Stay.installs_new {s : Stay} (hanswered : ∀ c ∈ s.plan, c.2.answered c.1 = true) :
    ∃ added, s.installed.2 = s.initial ++ added ∧ ∀ e ∈ added, ∀ e' ∈ s.initial,
      e.network ≠ e'.network := by
  unfold installed
  refine List.foldlRecOn s.plan _ (motive := fun at_ : Bypass × RouteTable =>
    ∃ added, at_.2 = s.initial ++ added ∧ ∀ e ∈ added, ∀ e' ∈ s.initial, e.network ≠ e'.network)
    ⟨[], by simp, by simp⟩ fun at_ h c hc => ?_
  obtain ⟨added, htable, hnew⟩ := h
  rcases Bypass.installRoute_cases c.2 at_ c.1 with ⟨hkept, _⟩ | ⟨net, hparse, hadds, hrun⟩
  · rw [hkept]
    exact ⟨added, htable, hnew⟩
  · rw [hrun]
    refine ⟨added ++ [⟨net, c.1.via⟩], by rw [htable, List.append_assoc], fun e he e' he' => ?_⟩
    rcases List.mem_append.mp he with he | he
    · exact hnew e he e' he'
    · have habsent := hadds.2.2
      rw [Bypass.routeExists, hanswered c hc, Bool.true_and, htable, RouteTable.has_append,
        Bool.or_eq_false_iff, RouteTable.has, hparse] at habsent
      have hother := List.any_eq_false.mp habsent.1 e' he'
      rw [List.mem_singleton.mp he]
      simpa [eq_comm] using hother

/-- Where every query is answered and no other program changes the table, the withdrawal is clean,
whatever the additions and deletions that fail. -/
theorem Stay.clean_of_undisturbed {s : Stay} (hanswered : ∀ c ∈ s.plan, c.2.answered c.1 = true)
    (hmeddling : s.meddling = []) : s.Clean := by
  refine s.clean_iff.mpr fun net e he => ?_
  obtain ⟨added, htable, hnew⟩ := installs_new hanswered
  obtain ⟨added', htable', hrecord⟩ := s.installs
  obtain rfl : added = added' := List.append_cancel_left (htable.symm.trans htable')
  by_cases hnamed : net ∈ s.struck
  · have hadded : net ∈ added.map TableRoute.network := by
      rw [← hrecord]
      obtain ⟨c, hc, hnet⟩ := List.mem_filterMap.mp hnamed
      have hmem : c.1 ∈ s.installed.1.installed := List.fst_mem_of_mem_zipIdx hc
      apply List.mem_filterMap.mpr
      cases hdeleted : s.deleted c.2 with
      | true => exact ⟨c.1, hmem, by simpa [hdeleted] using hnet⟩
      | false => simp [hdeleted] at hnet
    obtain ⟨own, hown, rfl⟩ := List.mem_map.mp hadded
    obtain ⟨hbefore, hnet⟩ := List.mem_filter.mp (List.mem_of_mem_take he)
    rw [before, hmeddling, List.foldl_nil, tagged, htable, List.drop_left] at hbefore
    rcases List.mem_append.mp hbefore with hother | hmine
    · obtain ⟨route, hroute, rfl⟩ := List.mem_map.mp hother
      exact absurd (of_decide_eq_true hnet).symm (hnew own hown route hroute)
    · obtain ⟨_, _, rfl⟩ := List.mem_map.mp hmine
      rfl
  · rw [List.count_eq_zero.mpr hnamed] at he
    simp at he

/-- A stay of a bypass for one network, during which its entry gives way to another program's. -/
def Sample.replaced : Stay where
  initial := []
  plan := [(⟨"203.0.113.0/24", .gateway "192.0.2.1" "eth0"⟩, ⟨fun _ => true, fun _ => true⟩)]
  meddling := [.delete 0, .add 0 ⟨⟨.v4 0xcb007100, 24, by decide⟩, .device "tailscale0"⟩]
  deleted := fun _ => true

/-- The withdrawal deletes the entry that took the place of its own. -/
theorem replaced_entry_deleted : ¬∀ s : Stay, s.Clean := by
  intro hclean
  have hfirst := Sample.replaced.clean_iff.mp (hclean _) ⟨.v4 0xcb007100, 24, by decide⟩
    ⟨⟨⟨.v4 0xcb007100, 24, by decide⟩, .device "tailscale0"⟩, false⟩ (by decide)
  cases hfirst

end Vpnmgr
