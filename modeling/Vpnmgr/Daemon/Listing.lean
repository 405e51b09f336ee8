import Vpnmgr.Daemon.Steering

/-! The server list through a run: every time it is asked for and every reload that forgets it. A
caller gets the list that was fetched last, unless a reload has come since and the fetch after it
fails. -/

namespace Vpnmgr

open Ieee Stateful Stateful.Action

variable {P : Platform} {α : Type}

/-! ### One call -/

/-- Whether the list would be fetched if it were asked for now. -/
def World.isStale (w : World P) : Bool :=
  match w.state.servers with
  | none => true
  | some (_, at_) => decide (serverCacheTtl < (after now w).clock - at_)

/-- The answer to the fetch that asking for the list now would make. -/
def World.answer (w : World P) : Option Fetch :=
  if w.isStale then some (w.outside.fetch 0) else none

/-- The list in the cache, without its timestamp. -/
def World.cached (w : World P) : Option ServerList := w.state.servers.map Prod.fst

/-- The list that a caller gets with this answer to a fetch. -/
def Fetch.gives (cached : Option ServerList) : Fetch → Option ServerList
  | .noClient _ => none
  | .fetched list => some list
  | .failed _ => cached

/-- The list in the cache after a call that met this answer. -/
def Fetch.keep (cached : Option ServerList) : Option Fetch → Option ServerList
  | some (.fetched list) => some list
  | _ => cached

/-- The list that a caller gets now. -/
def World.atHand (w : World P) : Option ServerList :=
  if w.isStale then (w.outside.fetch 0).gives w.cached else w.cached

/-- Neither the list nor the answers to its fetches are touched. -/
structure Aside (w w' : World P) : Prop where
  servers : w'.state.servers = w.state.servers
  fetch : w'.outside.fetch = w.outside.fetch

instance : IsPreorder (World P) Aside where
  refl _ := ⟨rfl, rfl⟩
  trans _ _ _ h₁ h₂ := ⟨h₂.servers.trans h₁.servers, h₂.fetch.trans h₁.fetch⟩

theorem now_aside : Within Aside (now : Daemon P Instant) := fun _ => ⟨rfl, rfl⟩

theorem isStale_run (w : World P) :
    ∃ v, Vpnmgr.isStale w.state.servers w = (.ok w.isStale, v) ∧ Aside w v := by
  unfold World.isStale
  cases hservers : w.state.servers with
  | none => exact ⟨w, rfl, refl_of Aside w⟩
  | some cached => exact ⟨_, rfl, now_aside w⟩

theorem Aside.cached {w w' : World P} (h : Aside w w') : w'.cached = w.cached :=
  congrArg (Option.map Prod.fst) h.servers

/-- A refresh takes the answer to its fetch, and succeeds with a list for its caller. -/
theorem refresh_gives (w : World P) :
    (refresh w).1.isOk = ((w.outside.fetch 0).gives w.cached).isSome ∧
      (after refresh w).cached = Fetch.keep w.cached (some (w.outside.fetch 0)) ∧
      (after refresh w).outside.fetch = later w.outside.fetch := by
  have hnext : nextFetch w = (.ok (w.outside.fetch 0), after nextFetch w) := rfl
  rw [after, refresh, bind_run_ok hnext]
  cases w.outside.fetch 0 with
  | noClient reason => exact ⟨rfl, rfl, rfl⟩
  | fetched list => exact ⟨rfl, rfl, rfl⟩
  | failed reason =>
    dsimp only
    rw [self, read_bind]
    have hservers : (after nextFetch w).state.servers = w.state.servers := rfl
    cases hs : w.state.servers with
    | none =>
      rw [hservers, hs]
      exact ⟨by rw [Fetch.gives, World.cached, hs]; rfl, rfl, rfl⟩
    | some cached =>
      rw [hservers, hs]
      exact ⟨by rw [Fetch.gives, World.cached, hs]; rfl, rfl, rfl⟩

/-- A list for the caller is the one that stays in the cache. -/
theorem Fetch.keep_of_gives {cached : Option ServerList} {fetch : Fetch}
    (h : (fetch.gives cached).isSome = true) : Fetch.keep cached (some fetch) = fetch.gives cached := by
  cases fetch with
  | noClient reason => cases h
  | fetched list => rfl
  | failed reason => rfl

theorem cachedList_run (w : World P) :
    (cachedList w).1.toOption = w.cached ∧ after cachedList w = w := by
  have hcached : w.cached = w.state.servers.map Prod.fst := rfl
  rw [after, cachedList, self, read_bind, hcached]
  cases w.state.servers with
  | none => exact ⟨rfl, rfl⟩
  | some cached => exact ⟨rfl, rfl⟩

/-- A caller gets the list at hand, and the answer to the fetch settles what the cache holds next. -/
theorem serverList_gives (w : World P) :
    (serverList w).1.toOption = w.atHand ∧
      (after serverList w).cached = Fetch.keep w.cached w.answer ∧
      (after serverList w).outside.fetch =
        if w.isStale then later w.outside.fetch else w.outside.fetch := by
  obtain ⟨v, hstale, haside⟩ := isStale_run w
  have hrun : refreshIfStale w = (if w.isStale then refresh else pure ()) v := bind_run_ok hstale
  rw [World.atHand, World.answer, ← haside.cached, ← haside.fetch]
  cases hneeds : w.isStale with
  | false =>
    rw [hneeds] at hrun
    obtain ⟨hresult, hstays⟩ := cachedList_run v
    have hlist : serverList w = cachedList v := bind_run_ok hrun
    rw [after, hlist, hresult]
    rw [after] at hstays
    rw [hstays]
    exact ⟨rfl, rfl, rfl⟩
  | true =>
    rw [hneeds] at hrun
    obtain ⟨hok, hcached, hlater⟩ := refresh_gives v
    rcases hrefresh : refresh v with ⟨e | _, u⟩
    · rw [after, hrefresh] at hcached hlater
      rw [hrefresh] at hok
      have hnone := Option.not_isSome_iff_eq_none.mp (Bool.eq_false_iff.mp hok.symm)
      have hlist : serverList w = (.error e, u) := bind_run_error (hrun.trans hrefresh)
      rw [after, hlist]
      exact ⟨hnone.symm, hcached, hlater⟩
    · rw [after, hrefresh] at hcached hlater
      rw [hrefresh] at hok
      obtain ⟨hresult, hstays⟩ := cachedList_run u
      have hlist : serverList w = cachedList u := bind_run_ok (hrun.trans hrefresh)
      rw [after] at hstays
      rw [after, hlist, hresult, hstays, hcached]
      exact ⟨Fetch.keep_of_gives hok.symm, rfl, hlater⟩

/-- The HTTP client can always be built. -/
def World.HasClient (w : World P) : Prop := ∀ n reason, w.outside.fetch n ≠ .noClient reason

theorem Aside.hasClient {w w' : World P} (h : Aside w w') (hw : w.HasClient) : w'.HasClient :=
  fun n reason => by
    rw [h.fetch]
    exact hw n reason

/-- With a client, the caller gets what is in the cache after the call: the list just fetched, or else
the one that was there before. -/
theorem serverList_answers {w : World P} (hclient : w.HasClient) :
    (serverList w).1.toOption = Fetch.keep w.cached w.answer ∧
      (after serverList w).cached = Fetch.keep w.cached w.answer ∧
      (after serverList w).HasClient := by
  obtain ⟨hresult, hcached, hlater⟩ := serverList_gives w
  refine ⟨hresult.trans ?_, hcached, fun n reason => ?_⟩
  · rw [World.atHand, World.answer]
    cases w.isStale with
    | false => rfl
    | true =>
      cases hfetch : w.outside.fetch 0 with
      | noClient reason => exact absurd hfetch (hclient 0 reason)
      | _ => rfl
  · rw [hlater]
    split
    · exact hclient (n + 1) reason
    · exact hclient n reason

/-- A reload forgets the list, or it fails and leaves it. -/
theorem reload_forgets (w : World P) :
    (after reload w).state.servers = (if (reload w).1.isOk then none else w.state.servers) ∧
      (after reload w).outside.fetch = w.outside.fetch := by
  have haside : Within Aside (loadDisk : Daemon P (Config × ClientConfig)) := by
    refine Within.bind (fun _ => ⟨rfl, rfl⟩) fun disk => Within.bind (Within.lift _) fun config => ?_
    exact Within.bind (Within.lift _) fun client => Within.pure _
  rw [after, reload]
  rcases hload : loadDisk w with ⟨e | loaded, v⟩
  · rw [bind_run_error hload]
    exact ⟨(haside.run hload).servers, (haside.run hload).fetch⟩
  · rw [bind_run_ok hload]
    exact ⟨rfl, (haside.run hload).fetch⟩

/-! ### Every call of a run -/

/-- One use of the list: a call, with the answer to the fetch if it made one and with what its caller
got, or a reload that forgets the list. -/
inductive ListUse where
  | listed (answer : Option Fetch) (result : Except Error ServerList)
  | forgotten

/-- How the list is used on the way from one world to another, the latest use first. Between two uses
anything may happen that touches neither the list nor the answers to its fetches. -/
inductive Uses : World P → List ListUse → World P → Prop
  | here (w : World P) : Uses w [] w
  | listed {w v : World P} {uses : List ListUse} (h : Uses w uses v) :
      Uses w (.listed v.answer (serverList v).1 :: uses) (after serverList v)
  | forgotten {w v : World P} {uses : List ListUse} (h : Uses w uses v)
      (hreload : (reload v).1 = .ok ()) : Uses w (.forgotten :: uses) (after reload v)
  | aside {w v u : World P} {uses : List ListUse} (h : Uses w uses v) (haside : Aside v u) :
      Uses w uses u

/-- The list that was fetched last. -/
def fetchedLast : List ListUse → Option ServerList
  | [] => none
  | .listed answer _ :: earlier => Fetch.keep (fetchedLast earlier) answer
  | .forgotten :: earlier => fetchedLast earlier

/-- Every caller got the list that was fetched last, and failed only where none had been. -/
def AllServed : List ListUse → Prop
  | [] => True
  | .listed answer result :: earlier =>
    result.toOption = Fetch.keep (fetchedLast earlier) answer ∧ AllServed earlier
  | .forgotten :: earlier => AllServed earlier

/-- The list that was fetched last, unless a reload has forgotten it since. -/
def remembered : List ListUse → Option ServerList
  | [] => none
  | .listed answer _ :: earlier => Fetch.keep (remembered earlier) answer
  | .forgotten :: _ => none

/-- No fetch failed with the list forgotten, once there had been one. -/
def Refetched : List ListUse → Prop
  | [] => True
  | .listed (some (.failed _)) _ :: earlier =>
    (remembered earlier = none → fetchedLast earlier = none) ∧ Refetched earlier
  | _ :: earlier => Refetched earlier

theorem fetchedLast_of_remembered {uses : List ListUse} {list : ServerList}
    (h : remembered uses = some list) : fetchedLast uses = some list := by
  induction uses with
  | nil => cases h
  | cons use earlier ih =>
    cases use with
    | forgotten => cases h
    | listed answer result =>
      rcases answer with _ | answer
      · exact ih h
      · cases answer with
        | fetched => exact h
        | _ => exact ih h

/-- What is remembered is what was fetched last, unless it is nothing although there was a list. -/
theorem remembered_eq_iff (uses : List ListUse) :
    remembered uses = fetchedLast uses ↔ (remembered uses = none → fetchedLast uses = none) := by
  constructor
  · intro heq hnone
    rw [← heq, hnone]
  · intro h
    cases hremembered : remembered uses with
    | none => exact (h hremembered).symm
    | some list => exact (fetchedLast_of_remembered hremembered).symm

/-- The cache holds what the uses so far remember. -/
theorem Uses.cached {start w : World P} {uses : List ListUse} (h : Uses start uses w)
    (hempty : start.cached = none) (hclient : start.HasClient) :
    w.cached = remembered uses ∧ w.HasClient := by
  induction h with
  | here => exact ⟨hempty, hclient⟩
  | listed h ih =>
    obtain ⟨hcached, hv⟩ := ih
    obtain ⟨_, hkept, hlater⟩ := serverList_answers hv
    rw [hkept, hcached]
    exact ⟨rfl, hlater⟩
  | forgotten h hreload ih =>
    rename_i v uses
    obtain ⟨hservers, hfetch⟩ := reload_forgets v
    rw [hreload] at hservers
    refine ⟨congrArg (Option.map Prod.fst) hservers, fun n reason => ?_⟩
    rw [hfetch]
    exact ih.2 n reason
  | aside h haside ih =>
    obtain ⟨hcached, hv⟩ := ih
    exact ⟨haside.cached.trans hcached, haside.hasClient hv⟩

/-- A call that makes no fetch finds a list in the cache. -/
theorem cached_of_answer {w : World P} (h : w.answer = none) : w.cached ≠ none := by
  intro hnone
  rw [World.answer, World.isStale, Option.map_eq_none_iff.mp hnone] at h
  cases h

theorem World.HasClient.answer {w : World P} (h : w.HasClient) (reason : String) :
    w.answer ≠ some (.noClient reason) := by
  intro hanswer
  rw [World.answer] at hanswer
  split at hanswer
  · exact h 0 reason (Option.some.inj hanswer)
  · cases hanswer

/-- In a run from an empty cache, the callers get the list that was fetched last exactly when no fetch
fails after a reload has forgotten one. -/
theorem Uses.served_iff {start w : World P} {uses : List ListUse} (h : Uses start uses w)
    (hempty : start.cached = none) (hclient : start.HasClient) : AllServed uses ↔ Refetched uses := by
  induction h with
  | here => exact Iff.rfl
  | listed h ih =>
    rename_i v uses
    obtain ⟨hcached, hv⟩ := h.cached hempty hclient
    obtain ⟨hresult, _, _⟩ := serverList_answers hv
    rw [AllServed, hresult, hcached, ih]
    cases hanswer : v.answer with
    | none =>
      have hsome := cached_of_answer hanswer
      rw [hcached] at hsome
      exact and_iff_right ((remembered_eq_iff uses).mpr fun hnone => absurd hnone hsome)
    | some answer =>
      cases answer with
      | fetched list => exact and_iff_right rfl
      | failed reason => exact and_congr_left' (remembered_eq_iff uses)
      | noClient reason => exact absurd hanswer (hv.answer reason)
  | forgotten h hreload ih => exact ih
  | aside h haside ih => exact ih

/-! ### Whole operations -/

theorem Uses.trans {w v u : World P} {first then_ : List ListUse} (h₁ : Uses w first v)
    (h₂ : Uses v then_ u) : Uses w (then_ ++ first) u := by
  induction h₂ with
  | here => exact h₁
  | listed _ ih => exact .listed ih
  | forgotten _ hreload ih => exact .forgotten ih hreload
  | aside _ haside ih => exact .aside ih haside

/-- The way from one world to the other uses the list somehow, or not at all. -/
def Consults (w w' : World P) : Prop := ∃ uses, Uses w uses w'

instance : IsPreorder (World P) Consults where
  refl w := ⟨[], .here w⟩
  trans _ _ _ := fun ⟨_, h₁⟩ ⟨_, h₂⟩ => ⟨_, h₁.trans h₂⟩

theorem Aside.consults {w w' : World P} (h : Aside w w') : Consults w w' := ⟨[], .aside (.here w) h⟩

theorem consults_of_aside {x : Daemon P α} (h : Within Aside x) : Within Consults x :=
  h.mono fun _ _ => Aside.consults

theorem Steers.aside {w w' : World P} (h : Steers w w') : Aside w w' := by
  constructor
  · rw [h.state]
  · rw [h.outside]

theorem consults_of_steers {x : Daemon P α} (h : Within Steers x) : Within Consults x :=
  h.mono fun _ _ h => h.aside.consults

theorem modify_aside {f : State P → State P} (h : ∀ s, (f s).servers = s.servers) :
    Within Aside (modify f : Daemon P Unit) := Within.update fun w => ⟨h w.state, rfl⟩

theorem now_consults : Within Consults (now : Daemon P Instant) := consults_of_aside now_aside

theorem modify_consults {f : State P → State P} (h : ∀ s, (f s).servers = s.servers) :
    Within Consults (modify f : Daemon P Unit) := consults_of_aside (modify_aside h)

theorem nextNetwork_consults : Within Consults (nextNetwork : Daemon P Network) :=
  consults_of_aside fun _ => ⟨rfl, rfl⟩

theorem serverList_consults : Within Consults (serverList : Daemon P ServerList) :=
  fun w => ⟨_, .listed (.here w)⟩

theorem reload_consults : Within Consults (reload : Daemon P Unit) := by
  intro w
  obtain ⟨hservers, hfetch⟩ := reload_forgets w
  cases hreload : (reload w).1 with
  | ok => exact ⟨_, .forgotten (.here w) hreload⟩
  | error e =>
    rw [hreload] at hservers
    exact Aside.consults ⟨hservers, hfetch⟩

theorem sampling_consults : Sampling (Consults : World P → World P → Prop) where
  probeNamed := probeNamed_within serverList_consults now_consults nextNetwork_consults
  nextDownload := consults_of_aside fun _ => ⟨rfl, rfl⟩
  recordThroughput _ _ := Within.bind now_consults fun _ => modify_consults fun _ => rfl
  recordDirect _ := Within.bind now_consults fun _ => modify_consults fun _ => rfl

theorem sweep_consults (country : Option String) :
    Within Consults (sweep country : Daemon P (List RankedServer)) :=
  sweep_within serverList_consults now_consults nextNetwork_consults
    (fun _ => modify_consults fun _ => rfl) (fun _ => modify_consults fun _ => rfl) country

theorem connect_consults (server : Option String) (measureFirst : Option Bool) :
    Within Consults (connect server measureFirst : Daemon P RankedServer) :=
  connect_within sampling_consults (consults_of_aside fun _ => ⟨rfl, rfl⟩)
    (fun _ => consults_of_steers (moveTo_steers _)) (sweep_consults none)
    (fun _ w _ => (establish_steers _ w).aside.consults) server measureFirst

theorem baseline_consults : Within Consults (baseline : Daemon P SpeedReport) :=
  baseline_within sampling_consults (consults_of_aside fun _ => ⟨rfl, rfl⟩)
    (fun _ => consults_of_steers (moveTo_steers _)) (sweep_consults none)
    (fun _ w _ => (establish_steers _ w).aside.consults) (consults_of_steers disconnect_steers)

theorem switch_consults (name : String) :
    Within Consults (switch name : Daemon P RankedServer) :=
  switch_within sampling_consults (fun _ =>
    Within.bind (consults_of_steers (retarget_steers _)) fun _ => modify_consults fun _ => rfl) name

theorem pendingSwitch_consults :
    Within Consults (pendingSwitch : Daemon P (Option PendingSwitch)) := by
  refine Within.bind (Within.read _) fun s => ?_
  cases s.pending with
  | none => exact Within.pure _
  | some pending =>
    exact Within.bind (Within.bind now_consults fun _ => Within.pure _) fun _ => Within.pure _

theorem record_consults (decision : Tuner.Decision) :
    Within Consults (record decision : Daemon P TuneReport) := by
  refine Within.bind ?_ fun _ => Within.bind (modify_consults fun _ => rfl) fun _ =>
    Within.bind pendingSwitch_consults fun _ => Within.pure _
  cases decision with
  | propose target reason =>
    refine Within.bind now_consults fun t => Within.bind (modify_consults fun _ => rfl) fun _ => ?_
    exact consults_of_aside fun _ => ⟨rfl, rfl⟩
  | _ => exact modify_consults fun _ => rfl

theorem autotune_consults : Within Consults (autotune : Daemon P TuneReport) := by
  refine Within.bind now_consults fun t => Within.bind (modify_consults fun _ => rfl) fun _ => ?_
  exact tune_within switch_consults
    (probeCurrent_within serverList_consults nextNetwork_consults) (sweep_consults none)
    (assess_within now_consults) record_consults

theorem scheduledPass_consults : Within Consults (scheduledPass : Daemon P (Option TuneReport)) := by
  refine Within.bind now_consults fun t => Within.bind (Within.read _) fun s => ?_
  exact Within.ite (Within.bind autotune_consults fun _ => Within.pure _) (Within.pure _)

theorem approve_consults : Within Consults (approve : Daemon P RankedServer) := by
  refine Within.bind (Within.read _) fun s => ?_
  cases s.pending with
  | none => exact Within.fail _
  | some pending =>
    refine Within.bind (modify_consults fun _ => rfl) fun _ => ?_
    refine Within.bind (switch_consults _) fun moved => ?_
    exact Within.bind (modify_consults fun _ => rfl) fun _ => Within.pure _

theorem dismiss_consults : Within Consults (dismiss : Daemon P String) := by
  refine Within.bind (Within.read _) fun s => ?_
  cases s.pending with
  | none => exact Within.fail _
  | some pending =>
    refine Within.bind (modify_consults fun _ => rfl) fun _ => ?_
    refine Within.bind (Within.bind (Within.read _) fun s => ?_) fun _ =>
      Within.bind (modify_consults fun _ => rfl) fun _ => Within.pure _
    cases s.current with
    | none => exact Within.pure _
    | some current => exact Within.bind now_consults fun t => modify_consults fun _ => rfl

theorem killswitch_consults (enable : Option Bool) :
    Within Consults (killswitch enable : Daemon P KillswitchReport) := by
  refine Within.bind ?_ fun _ =>
    Within.bind (Within.read _) fun m => Within.bind (Within.read _) fun s => Within.pure _
  have hdraw : ∀ {β : Type} {x : Daemon P β}, Within Aside x → Within Consults x := consults_of_aside
  match enable with
  | none => exact Within.pure _
  | some true =>
    refine Within.bind (Within.read _) fun s => Within.bind (hdraw fun _ => ⟨rfl, rfl⟩) fun fault => ?_
    exact Within.bind (hdraw fun _ => ⟨rfl, rfl⟩) fun _ => modify_consults fun _ => rfl
  | some false =>
    refine Within.bind (hdraw fun _ => ⟨rfl, rfl⟩) fun fault => ?_
    exact Within.bind (hdraw fun _ => ⟨rfl, rfl⟩) fun _ => modify_consults fun _ => rfl

theorem step_consults (w : World P) (op : Op) : Consults w (step w op) := by
  cases op with
  | connect server measure => exact connect_consults _ _ w
  | disconnect => exact consults_of_steers disconnect_steers w
  | switch server => exact switch_consults _ w
  | test country => exact sweep_consults _ w
  | servers country limit all =>
    exact Within.bind (Within.read _) (fun _ =>
      Within.bind serverList_consults fun _ => Within.pure _) w
  | reload => exact reload_consults w
  | autotune => exact autotune_consults w
  | approve => exact approve_consults w
  | dismiss => exact dismiss_consults w
  | speedtest => exact sampling_consults.speedtest w
  | baseline confirm =>
    cases confirm with
    | false => exact refl_of Consults w
    | true => exact baseline_consults w
  | killswitch enable => exact killswitch_consults _ w
  | scheduledPass => exact scheduledPass_consults w

theorem run_consults {start w : World P} (h : Reaches step (fun _ _ => True) start w) :
    Consults start w :=
  h.keeps (fun v op _ hv => trans_of Consults hv (step_consults v op)) (refl_of Consults start)

/-- Every run of the daemon uses the list somehow, and however it does, its callers get the list that
was fetched last exactly when no fetch fails after a reload has forgotten one. -/
theorem callers_served_iff {start w : World P} (hs : Starts start) (hclient : start.HasClient)
    (hrun : Reaches step (fun _ _ => True) start w) :
    (∃ uses, Uses start uses w) ∧ ∀ uses, Uses start uses w → (AllServed uses ↔ Refetched uses) := by
  refine ⟨run_consults hrun, fun uses huses => huses.served_iff ?_ hclient⟩
  obtain ⟨disk, config, client, _, _, hloaded⟩ := hs.loads
  rw [World.cached, hloaded]
  rfl

theorem Sample.idle_hasClient : Sample.idle.HasClient := fun _ _ h => by cases h

theorem listed_served : (∃ uses, Uses Sample.idle uses (step Sample.idle (.servers none none false))) ∧
    ∀ uses, Uses Sample.idle uses (step Sample.idle (.servers none none false)) →
      (AllServed uses ↔ Refetched uses) :=
  callers_served_iff Sample.idle_starts Sample.idle_hasClient (.next .here trivial)

/-- An idle daemon whose first fetch succeeds and whose later ones fail. -/
def Sample.outage : World (.linux Sample.log) :=
  { Sample.idle with outside := { Sample.idle.outside with
      fetch := fun n => if n = 0 then .fetched ⟨[]⟩ else .failed "timed out" } }

theorem Sample.outage_starts : Starts Sample.outage := world_starts config_valid rfl _ _

theorem Sample.outage_hasClient : Sample.outage.HasClient := by
  intro n reason h
  change (if n = 0 then Fetch.fetched ⟨[]⟩ else .failed "timed out") = _ at h
  split at h <;> cases h

theorem servers_after (country : Option String) (limit : Option Nat) (all : Bool) (w : World P) :
    after (servers country limit all) w = after serverList w := bind_pure_snd _ _ w

/-- Listing the servers, reloading, and listing them again with the fetch failing: the second listing
fails, although the first had the list. -/
theorem reload_loses_list :
    ¬∀ (start w : World (.linux Sample.log)) (uses : List ListUse), Starts start →
      start.HasClient → Reaches step (fun _ _ => True) start w → Uses start uses w →
      AllServed uses := by
  intro hserved
  have hrun : Reaches step (fun _ _ => True) Sample.outage
      (step (step (step Sample.outage (.servers none none false)) .reload)
        (.servers none none false)) :=
    .next (.next (.next .here trivial) trivial) trivial
  have hreload : (reload (after serverList Sample.outage)).1 = .ok () := by decide +kernel
  have hagain := Uses.listed (Uses.forgotten (Uses.listed (.here Sample.outage)) hreload)
  rw [step, step, step, servers_after, servers_after] at hrun
  have hlost := (hserved _ _ _ Sample.outage_starts Sample.outage_hasClient hrun hagain).1
  exact absurd (congrArg Option.isSome hlost) (by decide +kernel)

end Vpnmgr
