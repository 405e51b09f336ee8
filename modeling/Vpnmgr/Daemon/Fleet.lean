import Vpnmgr.Daemon.Requests
import Vpnmgr.Daemon.Frame
import Vpnmgr.Probe.Concurrent

/-! The two ways a country narrows the fleet: a listing and a sweep of one list agree on the servers
they take, and the listing of everything on those of the country it is asked for. -/

namespace Vpnmgr

open Ieee Text Stateful Stateful.Action

variable {P : Platform}

/-! ### One country, spelled in several ways -/

theorem toList_lower (s : String) : (lower s).toList = (trimChars s.toList).map Char.toLower := by
  simp [lower, toAsciiLowercase, trim]

theorem lower_lower (s : String) : lower (lower s) = lower s := by
  rw [← String.toList_inj, toList_lower, toList_lower, trimChars_map_toLower, trimChars_trimChars,
    map_toLower_toLower]

theorem lower_toAsciiLowercase (s : String) : lower (toAsciiLowercase s) = lower s := by
  rw [← String.toList_inj, toList_lower, toList_lower, toAsciiLowercase, String.toList_ofList,
    trimChars_map_toLower, map_toLower_toLower]

theorem toAsciiLowercase_lower (s : String) : toAsciiLowercase (lower s) = lower s := by
  rw [← String.toList_inj, toAsciiLowercase, String.toList_ofList, toList_lower,
    map_toLower_toLower]

/-- A text in lower case is the trimmed one only where there was nothing to trim. -/
theorem toAsciiLowercase_eq_lower {s : String} : toAsciiLowercase s = lower s ↔ trim s = s := by
  constructor
  · intro h
    have hlength := congrArg (·.toList.length) h
    simp only [toList_lower, toAsciiLowercase, String.toList_ofList, List.length_map] at hlength
    rw [trim, (trimChars_within s.toList).eq_of_length hlength.symm, String.ofList_toList]
  · intro h
    rw [lower, h]

/-- Whether a server is of the country that a whitelist of that country alone lets pass. A blank
country lets every one pass. -/
def Server.inCountry (country : Option String) (s : Server) : Bool :=
  country.all fun c => (normalised [c]).isEmpty || (normalised [c]).contains (lower s.countryCode)

theorem normalised_singleton (c : String) :
    normalised [c] = if lower c = "" then [] else [lower c] := by
  by_cases h : lower c = "" <;> simp [normalised, h]

theorem normalised_lower (c : String) : normalised [lower c] = normalised [c] := by
  rw [normalised_singleton, normalised_singleton, lower_lower]

theorem Server.inCountry_some {c : String} {s : Server} :
    s.inCountry (some c) = true ↔ lower c = "" ∨ lower s.countryCode = lower c := by
  rw [inCountry, Option.all_some, normalised_singleton]
  by_cases h : lower c = "" <;> simp [h]

/-! ### What each of them takes -/

/-- A listing takes servers by the same rules as a sweep, however the country is spelled. -/
theorem ruleset_lower (s : State P) (country : Option String) :
    Ruleset.new (s.sweepFilters (country.map lower)) = Ruleset.new (s.sweepFilters country) := by
  cases country with
  | none => rfl
  | some c => simp [State.sweepFilters, Ruleset.new, normalised_lower]

/-- The servers of a list that a listing shows. -/
def State.shown (s : State P) (country : Option String) (all : Bool) (list : ServerList) :
    List Server :=
  if all then
    list.servers.filter fun x => (country.map lower).all (eqIgnoreAsciiCase x.countryCode ·)
  else ((s.sweepFilters country).apply list).accepted

/-- A listing without a limit returns what it shows, in the order of the loads. -/
theorem servers_run {w v : World P} {list : ServerList} (hlist : serverList w = (.ok list, v))
    (country : Option String) (all : Bool) : ∃ out, servers country none all w = (.ok out, v) ∧
      out.Perm ((w.state.shown country all list).map Server.summary) := by
  refine ⟨_, (read_bind _ _ _).trans (bind_run_ok hlist), ?_⟩
  refine (List.perm_insertionSort _ _).trans (List.Perm.of_eq (congrArg _ ?_))
  cases all with
  | true => rfl
  | false =>
    refine List.filter_congr fun x _ => ?_
    rw [ruleset_lower, Server.rejection, Ruleset.accepts]
    cases x.isHealthy <;> rfl

theorem swept_servers (s : State P) (net : Network) (country : Option String) (list : ServerList) :
    (s.swept net country list).map Measured.server = s.shown country false list :=
  regroup_server _ _ _ _

/-- What the rules of a sweep accept is of its country. -/
theorem inCountry_of_shown {s : State P} {country : Option String} {list : ServerList} {x : Server}
    (h : x ∈ s.shown country false list) : x ∈ list.servers ∧ x.inCountry country = true := by
  rw [State.shown, if_neg Bool.false_ne_true] at h
  obtain ⟨hmem, _, haccepts⟩ := Filters.mem_accepted.mp h
  refine ⟨hmem, Option.all_eq_true _ _ |>.mpr fun c hc => ?_⟩
  rw [hc] at haccepts
  have hwhite : (Ruleset.new (s.sweepFilters (some c))).countryWhite = normalised [c] := by
    rw [Ruleset.new, State.sweepFilters]
  by_contra hout
  rw [← hwhite, Bool.or_eq_true, not_or, List.isEmpty_iff] at hout
  rw [Ruleset.accepts, Ruleset.judge, if_pos hout] at haccepts
  split_ifs at haccepts <;> cases haccepts

/-! ### The two views of one fleet -/

/-- What a listing, a listing of everything and a sweep of one list have in common. -/
structure SameFleet (s : State P) (country : Option String) (list : ServerList)
    (listed everything : List ServerSummary) : Prop where
  swept : ∀ net, (listed.map ServerSummary.name).Perm
    ((s.swept net country list).map fun m => m.server.name)
  subset : ∀ name ∈ listed.map ServerSummary.name, name ∈ everything.map ServerSummary.name
  country : everything.Perm
    ((list.servers.filter (·.inCountry country)).map Server.summary)

/-- The country is spelled so that comparing it literally is as good: it is not blank and the servers
of the list write it without whitespace around it, or it is blank and so is every server's. -/
def Literal (country : Option String) (list : ServerList) : Prop :=
  ∀ c ∈ country, if lower c = "" then ∀ x ∈ list.servers, x.countryCode = ""
    else ∀ x ∈ list.servers, lower x.countryCode = lower c → trim x.countryCode = x.countryCode

theorem literal_iff {country : Option String} {list : ServerList} : Literal country list ↔
    ∀ x ∈ list.servers, (country.map lower).all (eqIgnoreAsciiCase x.countryCode ·) = true ↔
      x.inCountry country = true := by
  cases country with
  | none => exact iff_of_true (by rintro _ ⟨⟩) fun x _ => iff_of_true rfl rfl
  | some c =>
    simp only [Literal, Option.mem_some_iff, forall_eq', Option.map_some, Option.all_some,
      eqIgnoreAsciiCase, toAsciiLowercase_lower, beq_iff_eq, Server.inCountry_some]
    by_cases hblank : lower c = ""
    · rw [if_pos hblank]
      refine forall₂_congr fun x _ => ?_
      simp only [hblank, true_or, iff_true]
      rw [← String.toList_inj, ← String.toList_inj, toAsciiLowercase]
      simp
    · rw [if_neg hblank]
      refine forall₂_congr fun x _ => ?_
      simp only [hblank, false_or]
      constructor
      · intro htrimmed
        refine ⟨fun h => ?_, fun h => ?_⟩
        · rw [← lower_toAsciiLowercase, h, lower_lower]
        · rw [← h]
          exact toAsciiLowercase_eq_lower.mpr (htrimmed h)
      · intro h heq
        rw [← toAsciiLowercase_eq_lower, h.mpr heq, heq]

/-- Without limits a listing takes what a sweep would probe, and a listing of everything takes that
and the rest of the country: exactly where the country can be compared literally. -/
theorem sameFleet_iff {w v : World P} {list : ServerList} (hlist : serverList w = (.ok list, v))
    (country : Option String) : ∃ listed everything,
      servers country none false w = (.ok listed, v) ∧
      servers country none true w = (.ok everything, v) ∧
      (∀ net, (listed.map ServerSummary.name).Perm
        ((w.state.swept net country list).map fun m => m.server.name)) ∧
      (SameFleet w.state country list listed everything ↔ Literal country list) := by
  obtain ⟨listed, hlisted, hshown⟩ := servers_run hlist country false
  obtain ⟨everything, heverything, hall⟩ := servers_run hlist country true
  have hswept : ∀ net, (listed.map ServerSummary.name).Perm
      ((w.state.swept net country list).map fun m => m.server.name) := by
    intro net
    have hnames := hshown.map ServerSummary.name
    rw [← swept_servers w.state net, List.map_map, List.map_map] at hnames
    exact hnames
  have hliterally : w.state.shown country true list = list.servers.filter fun x =>
      (country.map lower).all (eqIgnoreAsciiCase x.countryCode ·) := by
    rw [State.shown, if_pos rfl]
  refine ⟨listed, everything, hlisted, heverything, hswept, fun h => ?_, fun h => ?_⟩
  · -- a summary keeps the country code, which is all that either comparison looks at
    rw [literal_iff]
    intro x hx
    have hsame := (hall.symm.trans h.country).mem_iff (a := x.summary)
    rw [hliterally, List.mem_map, List.mem_map] at hsame
    constructor
    · intro hliteral
      obtain ⟨y, hy, hsummary⟩ := hsame.mp ⟨x, List.mem_filter.mpr ⟨hx, hliteral⟩, rfl⟩
      have hcode : y.countryCode = x.countryCode := congrArg ServerSummary.countryCode hsummary
      have hin := (List.mem_filter.mp hy).2
      rwa [Server.inCountry, hcode] at hin
    · intro hin
      obtain ⟨y, hy, hsummary⟩ := hsame.mpr ⟨x, List.mem_filter.mpr ⟨hx, hin⟩, rfl⟩
      have hcode : y.countryCode = x.countryCode := congrArg ServerSummary.countryCode hsummary
      have hliteral := (List.mem_filter.mp hy).2
      rwa [hcode] at hliteral
  · have hsame : w.state.shown country true list = list.servers.filter (·.inCountry country) := by
      rw [hliterally]
      rw [literal_iff] at h
      exact List.filter_congr fun x hx => Bool.eq_iff_iff.mpr (h x hx)
    rw [hsame] at hall
    refine ⟨hswept, fun name hname => ?_, hall⟩
    obtain ⟨summary, hsummary, rfl⟩ := List.mem_map.mp hname
    obtain ⟨x, hx, rfl⟩ := List.mem_map.mp (hshown.mem_iff.mp hsummary)
    have hin := List.mem_filter.mpr (inCountry_of_shown hx)
    exact List.mem_map_of_mem (hall.mem_iff.mpr (List.mem_map_of_mem hin))

theorem pair_fleet : ∃ list v listed everything,
    serverList (Sample.pair Sample.linuxFaults) = (.ok list, v) ∧
    servers (some " NL ") none false (Sample.pair Sample.linuxFaults) = (.ok listed, v) ∧
    servers (some " NL ") none true (Sample.pair Sample.linuxFaults) = (.ok everything, v) ∧
    (SameFleet (Sample.pair Sample.linuxFaults).state (some " NL ") list listed everything ↔
      Literal (some " NL ") list) := by
  obtain ⟨list, hlist⟩ := run_ok (x := serverList) (s := Sample.pair Sample.linuxFaults)
    (by decide +kernel)
  obtain ⟨listed, everything, hlisted, heverything, _, hsame⟩ := sameFleet_iff hlist (some " NL ")
  exact ⟨list, _, listed, everything, hlist, hlisted, heverything, hsame⟩

/-- A blank country lists every server that the filters let pass, and of everything nothing. -/
theorem blank_country_splits : ¬∀ (w v : World (.linux Sample.log)) (country : Option String)
    (listed everything : List ServerSummary), servers country none false w = (.ok listed, v) →
    servers country none true w = (.ok everything, v) →
      ∀ name ∈ listed.map ServerSummary.name, name ∈ everything.map ServerSummary.name := by
  intro hall
  obtain ⟨list, hlist⟩ := run_ok (x := serverList) (s := Sample.pair Sample.linuxFaults)
    (by decide +kernel)
  obtain ⟨listed, hlisted, _⟩ := servers_run hlist (some " ") false
  obtain ⟨everything, heverything, _⟩ := servers_run hlist (some " ") true
  have hfirst : ((servers (some " ") none false (Sample.pair Sample.linuxFaults)).1.toOption.map
      fun l => l.map ServerSummary.name) = some ["Achernar", "Bellatrix"] := by decide +kernel
  have hnone : ((servers (some " ") none true (Sample.pair Sample.linuxFaults)).1.toOption.map
      fun l => l.map ServerSummary.name) = some [] := by decide +kernel
  rw [hlisted] at hfirst
  rw [heverything] at hnone
  have hlist : listed.map ServerSummary.name = ["Achernar", "Bellatrix"] := Option.some.inj hfirst
  have hempty : everything.map ServerSummary.name = [] := Option.some.inj hnone
  have hin := hall _ _ (some " ") listed everything hlisted heverything "Achernar"
  rw [hlist, hempty] at hin
  exact absurd (hin List.mem_cons_self) List.not_mem_nil

end Vpnmgr
