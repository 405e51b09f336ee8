import Vpnmgr.Core.Airvpn
import Mathlib.Algebra.BigOperators.Group.List.Lemmas
import Mathlib.Data.String.Basic

/-! What the filters do to a whole list: every server in one bucket, and what becomes of the buckets
as the lists of the filters are spelled another way, get longer or the load limit falls. -/

namespace Vpnmgr

open Text

/-- One round of the loop over the servers. -/
def Selection.push (rules : Ruleset) (sel : Selection) (s : Server) : Selection :=
  match s.rejection rules with
  | some reason => { sel with rejected := sel.rejected ++ [(s, reason)] }
  | none => { sel with accepted := sel.accepted ++ [s] }

theorem Selection.foldl_push (rules : Ruleset) (servers : List Server) (sel : Selection) :
    servers.foldl (Selection.push rules) sel =
      ⟨sel.accepted ++ servers.filter fun s => (s.rejection rules).isNone,
        sel.rejected ++ servers.filterMap fun s => (s.rejection rules).map (s, ·)⟩ := by
  induction servers generalizing sel with
  | nil => simp
  | cons s servers ih =>
    rw [List.foldl_cons, ih, Selection.push]
    cases hs : s.rejection rules with
    | none => simp [hs]
    | some reason => simp [hs]

/-- The buckets are what the loop has put in them after the last server. -/
theorem Filters.apply_eq_foldl (f : Filters) (list : ServerList) :
    f.apply list = list.servers.foldl (Selection.push (Ruleset.new f)) ⟨[], []⟩ := by
  rw [Selection.foldl_push, List.nil_append, List.nil_append, Filters.apply]

/-- Whether a server is healthy and the rules pass it. -/
def Filters.eligible (f : Filters) (s : Server) : Bool :=
  s.isHealthy && (Ruleset.new f).accepts s.name s.countryCode s.load

theorem Filters.isNone_rejection (f : Filters) (s : Server) :
    (s.rejection (Ruleset.new f)).isNone = f.eligible s := by
  rw [Server.rejection, Filters.eligible]
  by_cases hs : s.isHealthy = true
  · rw [if_pos hs, hs, Bool.true_and, Ruleset.accepts]
  · rw [if_neg hs, Bool.eq_false_of_not_eq_true hs, Bool.false_and, Option.isNone_some]

theorem Filters.apply_accepted (f : Filters) (list : ServerList) :
    (f.apply list).accepted = list.servers.filter f.eligible :=
  List.filter_congr fun s _ => f.isNone_rejection s

theorem Filters.apply_rejected (f : Filters) (list : ServerList) :
    (f.apply list).rejected.map Prod.fst = list.servers.filter fun s => !f.eligible s := by
  rw [Filters.apply]
  induction list.servers with
  | nil => rfl
  | cons s servers ih =>
    have hs := f.isNone_rejection s
    cases hreason : s.rejection (Ruleset.new f) with
    | none =>
      rw [hreason, Option.isNone_none] at hs
      rw [List.filterMap_cons_none (by rw [hreason, Option.map_none]), ih,
        List.filter_cons_of_neg (by simp [← hs])]
    | some reason =>
      rw [hreason, Option.isNone_some] at hs
      rw [List.filterMap_cons_some (by rw [hreason, Option.map_some]), List.map_cons, ih,
        List.filter_cons_of_pos (by simp [← hs])]

theorem lower_ne_empty {s : String} : lower s ≠ "" ↔ trim s ≠ "" := by
  have hempty (cs : List Char) : String.ofList cs = "" ↔ cs = [] := by
    rw [← String.toList_inj, String.toList_ofList]
    rfl
  rw [lower, toAsciiLowercase, not_iff_not, hempty, List.map_eq_nil_iff, ← String.toList_inj]
  rfl

theorem mem_normalised {values : List String} {entry : String} :
    entry ∈ normalised values ↔ (∃ v ∈ values, lower v = entry) ∧ entry ≠ "" := by
  rw [normalised, List.mem_filter, List.mem_map, decide_eq_true_iff]

theorem normalised_subset {values values' : List String} (h : values ⊆ values') :
    normalised values ⊆ normalised values' := by
  intro entry hentry
  obtain ⟨⟨v, hv, rfl⟩, hne⟩ := mem_normalised.mp hentry
  exact mem_normalised.mpr ⟨⟨v, h hv, rfl⟩, hne⟩

/-- Every entry of either list is in the other, but for the case of ASCII letters and the spaces
around it. -/
def SameEntries (values values' : List String) : Prop :=
  (∀ v ∈ values, ∃ v' ∈ values', eqIgnoreAsciiCase (trim v) (trim v') = true) ∧
    ∀ v' ∈ values', ∃ v ∈ values, eqIgnoreAsciiCase (trim v) (trim v') = true

instance (values values' : List String) : Decidable (SameEntries values values') :=
  inferInstanceAs (Decidable (_ ∧ _))

theorem SameEntries.mem_normalised {values values' : List String} (h : SameEntries values values')
    (entry : String) : entry ∈ normalised values ↔ entry ∈ normalised values' := by
  rw [Vpnmgr.mem_normalised, Vpnmgr.mem_normalised]
  refine and_congr_left fun _ => ⟨?_, ?_⟩
  · rintro ⟨v, hv, rfl⟩
    obtain ⟨v', hv', hsame⟩ := h.1 v hv
    exact ⟨v', hv', (eq_of_beq hsame).symm⟩
  · rintro ⟨v', hv', rfl⟩
    obtain ⟨v, hv, hsame⟩ := h.2 v' hv'
    exact ⟨v, hv, eq_of_beq hsame⟩

/-- The same limit, and lists with the same entries. -/
structure Filters.Respelled (f f' : Filters) : Prop where
  countryWhitelist : SameEntries f.countryWhitelist f'.countryWhitelist
  countryBlacklist : SameEntries f.countryBlacklist f'.countryBlacklist
  serverWhitelist : SameEntries f.serverWhitelist f'.serverWhitelist
  serverBlacklist : SameEntries f.serverBlacklist f'.serverBlacklist
  maxLoad : f'.maxLoad = f.maxLoad

/-- The rules ask of their lists only what is in them. -/
theorem Ruleset.judge_congr {r r' : Ruleset}
    (hcountryWhite : ∀ entry, entry ∈ r.countryWhite ↔ entry ∈ r'.countryWhite)
    (hcountryBlack : ∀ entry, entry ∈ r.countryBlack ↔ entry ∈ r'.countryBlack)
    (hserverWhite : ∀ entry, entry ∈ r.serverWhite ↔ entry ∈ r'.serverWhite)
    (hserverBlack : ∀ entry, entry ∈ r.serverBlack ↔ entry ∈ r'.serverBlack)
    (hmax : r'.maxLoad = r.maxLoad) : r.judge = r'.judge := by
  have hempty {l l' : List String} (h : ∀ entry, entry ∈ l ↔ entry ∈ l') : l = [] ↔ l' = [] := by
    rw [List.eq_nil_iff_forall_not_mem, List.eq_nil_iff_forall_not_mem]
    exact forall_congr' fun entry => not_congr (h entry)
  funext name country load
  simp only [Ruleset.judge, List.contains_iff_mem, ne_eq, hempty hcountryWhite, hempty hserverWhite,
    hcountryWhite, hcountryBlack, hserverWhite, hserverBlack, hmax]

theorem Filters.Respelled.apply_eq {f f' : Filters} (h : f.Respelled f') (list : ServerList) :
    f'.apply list = f.apply list := by
  have hjudge : (Ruleset.new f).judge = (Ruleset.new f').judge :=
    Ruleset.judge_congr h.countryWhitelist.mem_normalised h.countryBlacklist.mem_normalised
      h.serverWhitelist.mem_normalised h.serverBlacklist.mem_normalised h.maxLoad
  have hsame : (Server.rejection (Ruleset.new f')) = Server.rejection (Ruleset.new f) := by
    funext s
    rw [Server.rejection, Server.rejection, hjudge]
  rw [Filters.apply, Filters.apply, hsame]

theorem Ruleset.accepts_iff {r : Ruleset} {name country : String} {load : Nat} :
    r.accepts name country load = true ↔
      lower name ∉ r.serverBlack ∧ lower country ∉ r.countryBlack ∧
        (r.serverWhite = [] ∨ lower name ∈ r.serverWhite) ∧
        (r.countryWhite = [] ∨ lower country ∈ r.countryWhite) ∧ load ≤ r.maxLoad := by
  rw [Ruleset.accepts, Ruleset.judge]
  grind

/-- The same whitelists, longer blacklists and a lower limit. -/
structure Filters.Narrows (f f' : Filters) : Prop where
  countryWhitelist : f'.countryWhitelist = f.countryWhitelist
  serverWhitelist : f'.serverWhitelist = f.serverWhitelist
  countryBlacklist : f.countryBlacklist ⊆ f'.countryBlacklist
  serverBlacklist : f.serverBlacklist ⊆ f'.serverBlacklist
  maxLoad : f'.maxLoad ≤ f.maxLoad

/-- The same list, or a longer one where the first has an entry that is not blank. -/
def Grown (values values' : List String) : Prop :=
  values' = values ∨ values ⊆ values' ∧ ∃ v ∈ values, trim v ≠ ""

/-- The same blacklists and limit, and longer whitelists, of those that name something. -/
structure Filters.Widens (f f' : Filters) : Prop where
  countryWhitelist : Grown f.countryWhitelist f'.countryWhitelist
  serverWhitelist : Grown f.serverWhitelist f'.serverWhitelist
  countryBlacklist : f'.countryBlacklist = f.countryBlacklist
  serverBlacklist : f'.serverBlacklist = f.serverBlacklist
  maxLoad : f'.maxLoad = f.maxLoad

/-- What a whitelist lets through, a longer one does. The first is not taken for no whitelist. -/
theorem Grown.passes {values values' : List String} (h : Grown values values') {entry : String}
    (hentry : normalised values = [] ∨ entry ∈ normalised values) :
    normalised values' = [] ∨ entry ∈ normalised values' := by
  rcases h with rfl | ⟨hsub, v, hv, hne⟩
  · exact hentry
  · have hmem : lower v ∈ normalised values :=
      mem_normalised.mpr ⟨⟨v, hv, rfl⟩, lower_ne_empty.mpr hne⟩
    rcases hentry with hempty | hentry
    · rw [hempty] at hmem
      cases hmem
    · exact .inr (normalised_subset hsub hentry)

theorem Filters.Narrows.accepts {f f' : Filters} (h : f.Narrows f') {name country : String}
    {load : Nat} (haccepts : (Ruleset.new f').accepts name country load = true) :
    (Ruleset.new f).accepts name country load = true := by
  obtain ⟨hserver, hcountry, hserverWhite, hcountryWhite, hload⟩ := Ruleset.accepts_iff.mp haccepts
  simp only [Ruleset.new, h.countryWhitelist, h.serverWhitelist] at hserverWhite hcountryWhite
  exact Ruleset.accepts_iff.mpr ⟨fun hmem => hserver (normalised_subset h.serverBlacklist hmem),
    fun hmem => hcountry (normalised_subset h.countryBlacklist hmem), hserverWhite, hcountryWhite,
    Nat.le_trans hload h.maxLoad⟩

theorem Filters.Widens.accepts {f f' : Filters} (h : f.Widens f') {name country : String}
    {load : Nat} (haccepts : (Ruleset.new f).accepts name country load = true) :
    (Ruleset.new f').accepts name country load = true := by
  obtain ⟨hserver, hcountry, hserverWhite, hcountryWhite, hload⟩ := Ruleset.accepts_iff.mp haccepts
  refine Ruleset.accepts_iff.mpr ⟨?_, ?_, h.serverWhitelist.passes hserverWhite,
    h.countryWhitelist.passes hcountryWhite, ?_⟩
  · simpa only [Ruleset.new, h.serverBlacklist] using hserver
  · simpa only [Ruleset.new, h.countryBlacklist] using hcountry
  · simpa only [Ruleset.new, h.maxLoad] using hload

/-- Filters whose rules pass no more servers accept no more of any list. -/
theorem Filters.accepted_sublist {f f' : Filters}
    (h : ∀ name country load, (Ruleset.new f).accepts name country load = true →
      (Ruleset.new f').accepts name country load = true) (list : ServerList) :
    (f.apply list).accepted.Sublist (f'.apply list).accepted := by
  rw [Filters.apply_accepted, Filters.apply_accepted]
  refine List.monotone_filter_right _ fun s hs => ?_
  rw [Filters.eligible, Bool.and_eq_true] at hs ⊢
  exact ⟨hs.1, h _ _ _ hs.2⟩

/-- The order of the summary: the more servers the earlier, and then by label. -/
def Commoner (a b : String × Nat) : Prop := b.2 < a.2 ∨ (b.2 = a.2 ∧ a.1 ≤ b.1)

instance : DecidableRel Commoner := fun a b =>
  inferInstanceAs (Decidable (b.2 < a.2 ∨ (b.2 = a.2 ∧ a.1 ≤ b.1)))

instance : Std.Total Commoner where
  total a b := by
    rcases Nat.lt_trichotomy b.2 a.2 with h | h | h
    · exact .inl (.inl h)
    · exact (le_total a.1 b.1).imp (fun hle => .inr ⟨h, hle⟩) fun hle => .inr ⟨h.symm, hle⟩
    · exact .inr (.inl h)

instance : IsTrans (String × Nat) Commoner where
  trans a b c := by
    rintro (hab | ⟨hab, hle⟩) (hbc | ⟨hbc, hle'⟩)
    · exact .inl (Nat.lt_trans hbc hab)
    · exact .inl (hbc ▸ hab)
    · exact .inl (hab ▸ hbc)
    · exact .inr ⟨hbc.trans hab, hle.trans hle'⟩

instance : Std.Antisymm Commoner where
  antisymm a b := by
    rintro (hab | ⟨hab, hle⟩) (hba | ⟨hba, hle'⟩)
    · exact absurd hab (Nat.lt_asymm hba)
    · exact absurd hba (Nat.ne_of_gt hab)
    · exact absurd hab (Nat.ne_of_gt hba)
    · exact Prod.ext (le_antisymm hle hle') hba

namespace Selection

variable {sel : Selection}

/-- The labels and how often each was given come out of the map in any order, and sort to the
summary. -/
theorem rejectionSummary_of_counts {counts : List (String × Nat)} (hnodup : counts.Nodup)
    (hcounts : ∀ label n, (label, n) ∈ counts ↔
      label ∈ sel.rejected.map (·.2.label) ∧ n = (sel.rejected.map (·.2.label)).count label) :
    counts.insertionSort Commoner = sel.rejectionSummary := by
  set labels := sel.rejected.map (·.2.label)
  have hperm : counts.Perm (labels.dedup.map fun label => (label, labels.count label)) := by
    refine (List.perm_ext_iff_of_nodup hnodup ?_).mpr fun ⟨label, n⟩ => ?_
    · exact (List.nodup_dedup labels).map fun a b hab => congrArg Prod.fst hab
    · refine (hcounts label n).trans ⟨?_, fun hmem => ?_⟩
      · rintro ⟨hmem, rfl⟩
        exact List.mem_map.mpr ⟨label, List.mem_dedup.mpr hmem, rfl⟩
      · obtain ⟨_, hlabel, heq⟩ := List.mem_map.mp hmem
        cases heq
        exact ⟨List.mem_dedup.mp hlabel, rfl⟩
  refine List.Perm.eq_of_pairwise ?_ (List.pairwise_insertionSort Commoner counts)
    (List.pairwise_insertionSort Commoner _) ?_
  · exact fun a b _ _ hab hba => antisymm hab hba
  · exact (List.perm_insertionSort _ _).trans (hperm.trans (List.perm_insertionSort _ _).symm)

/-- Every rejected server is counted, and counted once. -/
theorem rejectionSummary_sum : (sel.rejectionSummary.map Prod.snd).sum = sel.rejected.length := by
  rw [rejectionSummary, ((List.perm_insertionSort _ _).map Prod.snd).sum_eq, List.map_map]
  have hcount := List.sum_map_count_dedup_eq_length (sel.rejected.map (·.2.label))
  rw [List.length_map] at hcount
  exact hcount

theorem rejectionSummary_sorted : sel.rejectionSummary.Pairwise fun a b => b.2 ≤ a.2 := by
  refine (List.pairwise_insertionSort Commoner _).imp fun h => ?_
  rcases h with h | h
  · exact Nat.le_of_lt h
  · exact Nat.le_of_eq h.1

end Selection

/-- The filters part a list in two, each in its order: what is healthy and passed by the rules, and
the rest. Neither changes with the spelling of the entries, a longer blacklist or a lower limit lets
nothing more through, a longer whitelist nothing less, and the summary counts the rest. -/
theorem Filters.apply_partitions (f : Filters) (list : ServerList) :
    (f.apply list).accepted = list.servers.filter f.eligible ∧
      (f.apply list).rejected.map Prod.fst = list.servers.filter (fun s => !f.eligible s) ∧
      ((f.apply list).accepted ++ (f.apply list).rejected.map Prod.fst).Perm list.servers ∧
      (∀ f', f.Respelled f' → f'.apply list = f.apply list) ∧
      (∀ f', f.Narrows f' → (f'.apply list).accepted.Sublist (f.apply list).accepted) ∧
      (∀ f', f.Widens f' → (f.apply list).accepted.Sublist (f'.apply list).accepted) ∧
      ((f.apply list).rejectionSummary.map Prod.snd).sum = (f.apply list).rejected.length ∧
      (f.apply list).rejectionSummary.Pairwise (fun a b => b.2 ≤ a.2) := by
  refine ⟨f.apply_accepted list, f.apply_rejected list, ?_, fun f' h => h.apply_eq list,
    fun f' h => Filters.accepted_sublist (fun _ _ _ => h.accepts) list,
    fun f' h => Filters.accepted_sublist (fun _ _ _ => h.accepts) list,
    Selection.rejectionSummary_sum, Selection.rejectionSummary_sorted⟩
  rw [f.apply_accepted, f.apply_rejected]
  exact List.filter_append_perm _ _

/-- A server whose name begins with a letter outside ASCII. -/
def Sample.elan : Server where
  name := "Élan"
  countryName := "France"
  countryCode := "fr"
  location := "Paris"
  bw := 100
  bwMax := 1000
  users := 5
  load := 10
  health := .ok
  warning := none
  wgIpv4 := 0xc0000201
  wgIpv4Alt := none

theorem Filters.apply_partitions_elan :
    let list : ServerList := ⟨[Sample.elan]⟩
    (({} : Filters).apply list).accepted = [Sample.elan] ∧
      (({ countryWhitelist := [" FR "] } : Filters).apply list).accepted =
        (({ countryWhitelist := ["fr", "Fr"] } : Filters).apply list).accepted ∧
      (({ countryWhitelist := ["fr"], maxLoad := 5 } : Filters).apply list).accepted.Sublist
        (({ countryWhitelist := ["fr"] } : Filters).apply list).accepted ∧
      (({ countryWhitelist := ["fr"] } : Filters).apply list).accepted.Sublist
        (({ countryWhitelist := ["fr", "se"] } : Filters).apply list).accepted := by
  intro list
  refine ⟨?_, ?_, ?_, ?_⟩
  · rw [(Filters.apply_partitions _ _).1]
    decide +kernel
  · exact congrArg Selection.accepted <| (Filters.apply_partitions _ _).2.2.2.1 _
      ⟨by decide +kernel, by decide, by decide, by decide, rfl⟩
  · exact (Filters.apply_partitions _ _).2.2.2.2.1 _ ⟨rfl, rfl, by decide, by decide, by decide⟩
  · exact (Filters.apply_partitions _ _).2.2.2.2.2.1 _
      ⟨.inr ⟨by simp, "fr", by simp, by decide +kernel⟩, .inl rfl, rfl, rfl, rfl⟩

/-- Only the case of ASCII letters is ignored: an accented capital is told from its small letter. -/
theorem accented_case_differs :
    (({ serverWhitelist := ["Élan"] } : Filters).apply ⟨[Sample.elan]⟩).accepted ≠
      (({ serverWhitelist := ["élan"] } : Filters).apply ⟨[Sample.elan]⟩).accepted := by
  decide +kernel

end Vpnmgr
