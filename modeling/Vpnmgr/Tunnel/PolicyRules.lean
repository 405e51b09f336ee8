import Vpnmgr.Core.Address
import Vpnmgr.Library.Words
import Vpnmgr.Tunnel.Linux

/-! Pruning the policy routing rules of the tunnel. Copies are counted by what `ip rule show` prints
and deleted by what `ip rule del` matches, and the two need not agree on the rules of others. -/

namespace Vpnmgr

open Text

/-- A policy routing rule: what it selects and what it looks up, and in words what it may have
besides. -/
structure PolicyRule where
  pref : Nat
  invert : Bool := false
  source : Option String := none
  destination : Option String := none
  tos : Option String := none
  fwmark : Option (Nat × Nat) := none
  selectors : List String := []
  table : Option Nat := none
  suppressPrefixlength : Option Nat := none
  rest : List String := []
  deriving DecidableEq

def fullMask : Nat := 0xffffffff

def mainTable : Nat := 254

/-- A table as `ip` shows it, three of them by name. -/
def tableText (table : Nat) : String :=
  if table = 255 then "local" else if table = mainTable then "main"
  else if table = 253 then "default" else toString table

namespace PolicyRule

/-- What a line of `ip rule show` is made of. -/
def pieces (r : PolicyRule) : List String :=
  [toString r.pref, ":\t"] ++ (if r.invert then ["not "] else []) ++
  ["from " ++ r.source.getD "all" ++ " "] ++
  (r.destination.map fun d => "to " ++ d ++ " ").toList ++
  (r.tos.map fun t => "tos " ++ t ++ " ").toList ++
  (r.fwmark.map fun m => "fwmark 0x" ++ hexText m.1 ++
    (if m.2 = fullMask then "" else "/0x" ++ hexText m.2) ++ " ").toList ++
  r.selectors ++
  (r.table.map fun t => "lookup " ++ tableText t ++ " ").toList ++
  (r.suppressPrefixlength.map fun n => "suppress_prefixlength " ++ toString n ++ " ").toList ++
  r.rest

/-- The line that `ip rule show` prints for a rule. -/
def line (r : PolicyRule) : String := String.join r.pieces

end PolicyRule

/-- An argument of `ip rule del`. -/
inductive RuleArg where
  | not
  | fwmark (mark : Nat)
  | table (id : Nat)
  | suppressPrefixlength (n : Nat)

/-- Whether a rule is as an argument says. A mark without a mask means all of its bits. -/
def RuleArg.agrees (r : PolicyRule) : RuleArg → Bool
  | not => r.invert
  | fwmark mark => r.fwmark == some (mark, fullMask)
  | table id => r.table == some id
  | suppressPrefixlength n => r.suppressPrefixlength == some n

/-- Whether a rule is as all of the arguments say. What they leave out is not compared. -/
def PolicyRule.fits (args : List RuleArg) (r : PolicyRule) : Bool := args.all (·.agrees r)

/-- `ip rule del`: the first rule that fits the arguments goes, and without one the command fails. -/
def ruleDel (args : List RuleArg) (rules : List PolicyRule) : Option (List PolicyRule) :=
  if rules.any (·.fits args) then some (rules.eraseP (·.fits args)) else none

/-- How many policy rules are printed on a line that satisfies `counts`. -/
def countRules (counts : String → Bool) (rules : List PolicyRule) : Nat :=
  (rules.map PolicyRule.line).countP counts

theorem ruleDel_eq_some {args : List RuleArg} {rules rest : List PolicyRule}
    (h : ruleDel args rules = some rest) :
    ∃ before r after, rules = before ++ r :: after ∧ rest = before ++ after ∧ r.fits args = true := by
  unfold ruleDel at h
  split at h
  · next hany =>
    obtain ⟨r, hr, hfits⟩ := List.any_eq_true.mp hany
    obtain ⟨a, before, after, _, ha, hrules, herase⟩ := List.exists_of_eraseP hr hfits
    cases h
    exact ⟨before, a, after, hrules, herase, ha⟩
  · cases h

theorem ruleDel_length {args : List RuleArg} {rules rest : List PolicyRule}
    (h : ruleDel args rules = some rest) : rest.length < rules.length := by
  obtain ⟨before, r, after, rfl, rfl, _⟩ := ruleDel_eq_some h
  simp

/-- Delete copies of one rule until a single instance remains. -/
def pruneRule (counts : String → Bool) (args : List RuleArg) (rules : List PolicyRule) :
    List PolicyRule :=
  if 1 < countRules counts rules then
    match _h : ruleDel args rules with
    | some rest => pruneRule counts args rest
    | none => rules
  else rules
termination_by rules.length
decreasing_by exact ruleDel_length _h

inductive Family where
  | v4
  | v6
  deriving DecidableEq

/-- How a copy of the rule that looks up the tunnel's table is told by its line. -/
def showsLookup (fwmark : Nat) (line : String) : Bool :=
  hasText line "fwmark" && hasText line ("lookup " ++ toString fwmark)

def showsSuppress (line : String) : Bool := hasText line "suppress_prefixlength 0"

def lookupArgs (fwmark : Nat) : List RuleArg := [.not, .fwmark fwmark, .table fwmark]

def suppressArgs : List RuleArg := [.table mainTable, .suppressPrefixlength 0]

/-- Collapse duplicated policy routing rules of each family back down to one of each. -/
def pruneDuplicatePolicyRules (fwmark : Nat) (tables : Family → List PolicyRule) :
    Family → List PolicyRule := fun family =>
  pruneRule showsSuppress suppressArgs
    (pruneRule (showsLookup fwmark) (lookupArgs fwmark) (tables family))

/-! ### The loop -/

variable {counts : String → Bool} {args : List RuleArg} {rules : List PolicyRule}

theorem countRules_eq (counts : String → Bool) (rules : List PolicyRule) :
    countRules counts rules = rules.countP fun r => counts r.line := List.countP_map

/-- One deletion takes a rule that fits, and nothing else. -/
theorem ruleDel_filter {rest : List PolicyRule} (h : ruleDel args rules = some rest)
    {p : PolicyRule → Bool} (hp : ∀ r ∈ rules, r.fits args = true → p r = false) :
    rest.filter p = rules.filter p := by
  obtain ⟨before, r, after, rfl, rfl, hr⟩ := ruleDel_eq_some h
  simp [hp r (by simp) hr]

theorem ruleDel_sublist {rest : List PolicyRule} (h : ruleDel args rules = some rest) :
    rest.Sublist rules := by
  obtain ⟨before, r, after, rfl, rfl, _⟩ := ruleDel_eq_some h
  exact (List.sublist_cons_self r after).append_left before

theorem pruneRule_filter {p : PolicyRule → Bool}
    (hp : ∀ r ∈ rules, r.fits args = true → p r = false) :
    (pruneRule counts args rules).filter p = rules.filter p := by
  fun_induction pruneRule counts args rules with
  | case1 rules _ rest h ih =>
    rw [ih fun r hr => hp r ((ruleDel_sublist h).subset hr), ruleDel_filter h hp]
  | case2 => rfl
  | case3 => rfl

theorem pruneRule_sublist (counts : String → Bool) (args : List RuleArg) (rules : List PolicyRule) :
    (pruneRule counts args rules).Sublist rules := by
  fun_induction pruneRule counts args rules with
  | case1 rules _ rest h ih => exact ih.trans (ruleDel_sublist h)
  | case2 => exact List.Sublist.refl _
  | case3 => exact List.Sublist.refl _

/-- The loop ends when at most one rule is counted, or when none is left that fits. -/
theorem pruneRule_stops (counts : String → Bool) (args : List RuleArg) (rules : List PolicyRule) :
    countRules counts (pruneRule counts args rules) ≤ 1 ∨
      ∀ r ∈ pruneRule counts args rules, r.fits args = false := by
  fun_induction pruneRule counts args rules with
  | case1 rules _ rest h ih => exact ih
  | case2 rules _ h =>
    right
    unfold ruleDel at h
    split at h
    · cases h
    · next hany => simpa using hany
  | case3 rules h => exact .inl (by omega)

/-- Where the rules that fit are those of a kind, and the lines that count are theirs, the loop leaves
one of the kind. -/
theorem pruneRule_one {kind : PolicyRule → Bool} (hfits : ∀ r ∈ rules, r.fits args = kind r)
    (hcounts : ∀ r ∈ rules, counts r.line = kind r) (hsome : ∃ r ∈ rules, kind r = true) :
    (pruneRule counts args rules).countP kind = 1 := by
  have hcount : ∀ {rules : List PolicyRule}, (∀ r ∈ rules, counts r.line = kind r) →
      countRules counts rules = rules.countP kind := by
    intro rules h
    rw [countRules_eq]
    exact List.countP_congr fun r hr => by rw [h r hr]
  fun_induction pruneRule counts args rules with
  | case1 rules hmany rest h ih =>
    have hsub := (ruleDel_sublist h).subset
    obtain ⟨before, r, after, rfl, rfl, hr⟩ := ruleDel_eq_some h
    rw [hfits r (by simp)] at hr
    rw [hcount hcounts] at hmany
    refine ih (fun r' hr' => hfits r' (hsub hr')) (fun r' hr' => hcounts r' (hsub hr')) ?_
    have hleft : 0 < (before ++ after).countP kind := by
      simp only [List.countP_append, List.countP_cons, hr, if_true] at hmany ⊢
      omega
    exact List.countP_pos_iff.mp hleft
  | case2 rules _ h =>
    obtain ⟨r, hr, hkind⟩ := hsome
    unfold ruleDel at h
    rw [if_pos (List.any_eq_true.mpr ⟨r, hr, (hfits r hr).trans hkind⟩)] at h
    cases h
  | case3 rules h =>
    rw [hcount hcounts] at h
    have hpos : 0 < rules.countP kind := List.countP_pos_iff.mpr hsome
    omega

/-! ### The tunnel's own rules -/

/-- A rule that looks up the tunnel's table for whatever lacks the mark, and says nothing else. -/
def PolicyRule.isLookup (fwmark : Nat) (r : PolicyRule) : Bool :=
  r == { pref := r.pref, invert := true, fwmark := some (fwmark, fullMask), table := some fwmark }

/-- A rule that looks up the main table without its default route, and says nothing else. -/
def PolicyRule.isSuppress (r : PolicyRule) : Bool :=
  r == { pref := r.pref, table := some mainTable, suppressPrefixlength := some 0 }

namespace PolicyRule

variable {fwmark : Nat} {r : PolicyRule}

theorem isLookup_fits (h : r.isLookup fwmark = true) : r.fits (lookupArgs fwmark) = true := by
  rw [eq_of_beq h]
  simp [fits, lookupArgs, RuleArg.agrees]

theorem isSuppress_fits (h : r.isSuppress = true) : r.fits suppressArgs = true := by
  rw [eq_of_beq h]
  simp [fits, suppressArgs, RuleArg.agrees]

/-- A rule that fits the arguments of the lookup is counted, if its table is shown by number. -/
theorem fits_showsLookup (htext : tableText fwmark = toString fwmark)
    (h : r.fits (lookupArgs fwmark) = true) : showsLookup fwmark r.line = true := by
  simp only [fits, lookupArgs, List.all_cons, List.all_nil, RuleArg.agrees, Bool.and_true,
    Bool.and_eq_true, beq_iff_eq] at h
  obtain ⟨_, hmark, htable⟩ := h
  rw [showsLookup, Bool.and_eq_true]
  constructor
  · apply hasText_join ("fwmark 0x" ++ hexText fwmark ++ "" ++ " ")
    · simp [pieces, hmark]
    · exact hasText_append (hasText_append (hasText_append (by decide) _) _) _
  · apply hasText_join ("lookup " ++ toString fwmark ++ " ")
    · simp [pieces, htable, htext]
    · exact hasText_append (hasText_self _) _

theorem fits_showsSuppress (h : r.fits suppressArgs = true) : showsSuppress r.line = true := by
  simp only [fits, suppressArgs, List.all_cons, List.all_nil, RuleArg.agrees, Bool.and_true,
    Bool.and_eq_true, beq_iff_eq] at h
  apply hasText_join ("suppress_prefixlength " ++ toString 0 ++ " ")
  · simp [pieces, h.2]
  · exact hasText_append (by decide) _

theorem not_mem_toString {c : Char} (hc : c.isDigit = false) (n : Nat) : c ∉ (toString n).toList := by
  intro h
  rw [show (toString n).toList = Nat.toDigits 10 n from Nat.toList_repr] at h
  rw [Nat.isDigit_of_mem_toDigits (by decide) (by decide) h] at hc
  cases hc

/-- The line of a lookup has no underscore in it, so it is no line of the other rule. -/
theorem isLookup_not_showsSuppress (htext : tableText fwmark = toString fwmark)
    (h : r.isLookup fwmark = true) : showsSuppress r.line = false := by
  refine not_hasText_join (c := '_') (by decide) ?_
  have hhex : '_' ∉ (hexText fwmark).toList := by
    rw [hexText, String.toList_ofList]
    exact fun hmem => absurd (IpAddr.mem_toDigits hmem).1 (by decide)
  have hpref := not_mem_toString (c := '_') (by decide) r.pref
  have htable := not_mem_toString (c := '_') (by decide) fwmark
  have hpieces : r.pieces = [toString r.pref, ":\t", "not ", "from all ",
      "fwmark 0x" ++ hexText fwmark ++ "" ++ " ", "lookup " ++ toString fwmark ++ " "] := by
    rw [eq_of_beq h, ← htext]
    rfl
  rw [hpieces]
  simp only [List.forall_mem_cons, String.toList_append, List.mem_append, not_or]
  exact ⟨hpref, by decide, by decide, by decide, ⟨⟨⟨by decide, hhex⟩, by decide⟩, by decide⟩,
    ⟨⟨by decide, htable⟩, by decide⟩, fun _ hnil => absurd hnil List.not_mem_nil⟩

theorem isSuppress_not_showsLookup (h : r.isSuppress = true) :
    showsLookup fwmark r.line = false := by
  have hpref := not_mem_toString (c := 'w') (by decide) r.pref
  have hpieces : r.pieces = [toString r.pref, ":\t", "from all ", "lookup main ",
      "suppress_prefixlength 0 "] := by
    rw [eq_of_beq h]
    rfl
  have hmark : hasText r.line "fwmark" = false := by
    refine not_hasText_join (c := 'w') (by decide) ?_
    rw [hpieces]
    simp only [List.forall_mem_cons]
    exact ⟨hpref, by decide, by decide, by decide, by decide,
      fun _ hnil => absurd hnil List.not_mem_nil⟩
  rw [showsLookup, hmark, Bool.false_and]

/-- What is deleted for one kind of the tunnel's rules is none of the other kind. -/
theorem fits_suppress_not_isLookup (h : r.fits suppressArgs = true) : r.isLookup fwmark = false := by
  rw [← Bool.not_eq_true]
  intro hlookup
  rw [eq_of_beq hlookup] at h
  simp [fits, suppressArgs, RuleArg.agrees] at h

theorem fits_lookup_not_isSuppress (h : r.fits (lookupArgs fwmark) = true) :
    r.isSuppress = false := by
  rw [← Bool.not_eq_true]
  intro hsuppress
  rw [eq_of_beq hsuppress] at h
  simp [fits, lookupArgs, RuleArg.agrees] at h

end PolicyRule

/-- What pruning is to make of the rules of a family: one rule of each kind, and all others. -/
structure Pruned (fwmark : Nat) (rules after : List PolicyRule) : Prop where
  lookup : after.countP (·.isLookup fwmark) = 1
  suppress : after.countP (·.isSuppress) = 1
  others : (after.filter fun r => !r.isLookup fwmark && !r.isSuppress) =
    rules.filter fun r => !r.isLookup fwmark && !r.isSuppress

/-- Where a rule of a kind is left beside another that counts as one, the loop did not end. -/
theorem pruneRule_apart (kind : PolicyRule → Bool)
    (hkind : ∀ r, kind r = true → r.fits args = true ∧ counts r.line = true)
    {own r : PolicyRule} (hown : own ∈ pruneRule counts args rules) (hownKind : kind own = true)
    (hr : r ∈ pruneRule counts args rules) (hcounts : counts r.line = true) : kind r = true := by
  by_contra hnot
  rcases pruneRule_stops counts args rules with hone | hnone
  · rw [countRules_eq, List.countP_eq_countP_filter_add _ _ kind] at hone
    have hfirst : 0 < ((pruneRule counts args rules).filter kind).countP fun r => counts r.line :=
      List.countP_pos_iff.mpr ⟨own, List.mem_filter.mpr ⟨hown, hownKind⟩, (hkind own hownKind).2⟩
    have hsecond : 0 < ((pruneRule counts args rules).filter fun r => !kind r).countP
        fun r => counts r.line :=
      List.countP_pos_iff.mpr ⟨r, List.mem_filter.mpr ⟨hr, by simpa using hnot⟩, hcounts⟩
    omega
  · have hfits := (hkind own hownKind).1
    rw [hnone own hown] at hfits
    cases hfits

section Families

variable {fwmark : Nat} (htext : tableText fwmark = toString fwmark)
include htext

/-- Each line that counts as one of the tunnel's is a line of one of the tunnel's rules. -/
def OwnLines (fwmark : Nat) (rules : List PolicyRule) : Prop :=
  ∀ r ∈ rules, (showsLookup fwmark r.line = true → r.isLookup fwmark = true) ∧
    (showsSuppress r.line = true → r.isSuppress = true)

theorem ownLines_of_pruned (h : Pruned fwmark rules (pruneRule showsSuppress suppressArgs
    (pruneRule (showsLookup fwmark) (lookupArgs fwmark) rules))) : OwnLines fwmark rules := by
  have hend := pruneRule_sublist showsSuppress suppressArgs
    (pruneRule (showsLookup fwmark) (lookupArgs fwmark) rules)
  have hother {r : PolicyRule} (hr : r ∈ rules) (h1 : r.isLookup fwmark = false)
      (h2 : r.isSuppress = false) : r ∈ pruneRule showsSuppress suppressArgs
        (pruneRule (showsLookup fwmark) (lookupArgs fwmark) rules) := by
    have hkept : r ∈ rules.filter fun r => !r.isLookup fwmark && !r.isSuppress :=
      List.mem_filter.mpr ⟨hr, by simp [h1, h2]⟩
    rw [← h.others] at hkept
    exact (List.mem_filter.mp hkept).1
  obtain ⟨own, hown, hlookup⟩ := List.countP_pos_iff.mp (h.lookup ▸ Nat.one_pos)
  obtain ⟨own', hown', hsuppress⟩ := List.countP_pos_iff.mp (h.suppress ▸ Nat.one_pos)
  intro r hr
  constructor
  · intro hshows
    by_contra hnot
    rw [Bool.not_eq_true] at hnot
    have hsuppress : r.isSuppress = false := by
      rw [← Bool.not_eq_true]
      intro hsuppress
      rw [PolicyRule.isSuppress_not_showsLookup hsuppress] at hshows
      cases hshows
    have hkind := pruneRule_apart (·.isLookup fwmark)
      (fun r h => ⟨r.isLookup_fits h, r.fits_showsLookup htext (r.isLookup_fits h)⟩)
      (hend.subset hown) hlookup (hend.subset (hother hr hnot hsuppress)) hshows
    rw [hnot] at hkind
    cases hkind
  · intro hshows
    by_contra hnot
    rw [Bool.not_eq_true] at hnot
    have hlookup : r.isLookup fwmark = false := by
      rw [← Bool.not_eq_true]
      intro hlookup
      rw [PolicyRule.isLookup_not_showsSuppress htext hlookup] at hshows
      cases hshows
    have hkind := pruneRule_apart PolicyRule.isSuppress
      (fun r h => ⟨r.isSuppress_fits h, r.fits_showsSuppress (r.isSuppress_fits h)⟩)
      hown' hsuppress (hother hr hlookup hnot) hshows
    rw [hnot] at hkind
    cases hkind

theorem pruned_of_ownLines (hlookup : ∃ r ∈ rules, r.isLookup fwmark = true)
    (hsuppress : ∃ r ∈ rules, r.isSuppress = true) (h : OwnLines fwmark rules) :
    Pruned fwmark rules (pruneRule showsSuppress suppressArgs
      (pruneRule (showsLookup fwmark) (lookupArgs fwmark) rules)) := by
  have hfirst : ∀ r ∈ rules, r.fits (lookupArgs fwmark) = r.isLookup fwmark := fun r hr =>
    Bool.eq_iff_iff.mpr ⟨fun hfits => (h r hr).1 (r.fits_showsLookup htext hfits), r.isLookup_fits⟩
  have hsecond : ∀ r ∈ rules, r.fits suppressArgs = r.isSuppress := fun r hr =>
    Bool.eq_iff_iff.mpr ⟨fun hfits => (h r hr).2 (r.fits_showsSuppress hfits), r.isSuppress_fits⟩
  have hfirstLines : ∀ r ∈ rules, showsLookup fwmark r.line = r.isLookup fwmark := fun r hr =>
    Bool.eq_iff_iff.mpr ⟨(h r hr).1, fun hown => r.fits_showsLookup htext (r.isLookup_fits hown)⟩
  have hsecondLines : ∀ r ∈ rules, showsSuppress r.line = r.isSuppress := fun r hr =>
    Bool.eq_iff_iff.mpr ⟨(h r hr).2, fun hown => r.fits_showsSuppress (r.isSuppress_fits hown)⟩
  have hmid := pruneRule_sublist (showsLookup fwmark) (lookupArgs fwmark) rules
  have hsuppressKept : (pruneRule (showsLookup fwmark) (lookupArgs fwmark) rules).filter
      PolicyRule.isSuppress = rules.filter PolicyRule.isSuppress :=
    pruneRule_filter fun r _ hfits => r.fits_lookup_not_isSuppress hfits
  have hlookupKept : (pruneRule showsSuppress suppressArgs
      (pruneRule (showsLookup fwmark) (lookupArgs fwmark) rules)).filter (·.isLookup fwmark) =
      (pruneRule (showsLookup fwmark) (lookupArgs fwmark) rules).filter (·.isLookup fwmark) :=
    pruneRule_filter fun r _ hfits => r.fits_suppress_not_isLookup hfits
  refine ⟨?_, ?_, ?_⟩
  · rw [List.countP_eq_length_filter, hlookupKept, ← List.countP_eq_length_filter]
    exact pruneRule_one hfirst hfirstLines hlookup
  · refine pruneRule_one (fun r hr => hsecond r (hmid.subset hr))
      (fun r hr => hsecondLines r (hmid.subset hr)) ?_
    obtain ⟨r, hr, hown⟩ := hsuppress
    have hkept := List.mem_filter.mpr ⟨hr, hown⟩
    rw [← hsuppressKept] at hkept
    exact ⟨r, (List.mem_filter.mp hkept).1, hown⟩
  · have hothers1 : ∀ r ∈ rules, r.fits (lookupArgs fwmark) = true →
        (!r.isLookup fwmark && !r.isSuppress) = false := by
      intro r hr hfits
      rw [hfirst r hr] at hfits
      simp [hfits]
    have hothers2 : ∀ r ∈ pruneRule (showsLookup fwmark) (lookupArgs fwmark) rules,
        r.fits suppressArgs = true → (!r.isLookup fwmark && !r.isSuppress) = false := by
      intro r hr hfits
      rw [hsecond r (hmid.subset hr)] at hfits
      simp [hfits]
    rw [pruneRule_filter hothers2, pruneRule_filter hothers1]

end Families

/-- Of rules with the tunnel's own, pruning makes what it is to make exactly if each line that counts
as one of the tunnel's is a line of one of the tunnel's rules. -/
theorem pruned_iff (fwmark : Nat) (tables : Family → List PolicyRule) (family : Family)
    (htext : tableText fwmark = toString fwmark)
    (hlookup : ∃ r ∈ tables family, r.isLookup fwmark = true)
    (hsuppress : ∃ r ∈ tables family, r.isSuppress = true) :
    Pruned fwmark (tables family) (pruneDuplicatePolicyRules fwmark tables family) ↔
      OwnLines fwmark (tables family) :=
  ⟨ownLines_of_pruned htext, pruned_of_ownLines htext hlookup hsuppress⟩

/-- The rules that setting up the routes of a tunnel adds. -/
def Sample.ownRules : List PolicyRule :=
  [{ pref := 5204, table := some mainTable, suppressPrefixlength := some 0 },
    { pref := 5205, invert := true, fwmark := some (defaultFwmark, fullMask),
      table := some defaultFwmark }]

/-- A rule of someone else, which sends what has another mark into the tunnel too. -/
def Sample.markedRule : PolicyRule :=
  { pref := 5300, fwmark := some (1, fullMask), table := some defaultFwmark }

theorem copies_pruned : Pruned defaultFwmark (Sample.ownRules ++ Sample.ownRules)
    (pruneDuplicatePolicyRules defaultFwmark (fun _ => Sample.ownRules ++ Sample.ownRules) .v4) :=
  (pruned_iff defaultFwmark (fun _ => Sample.ownRules ++ Sample.ownRules) .v4 (by decide)
    ⟨_, .tail _ (.head _), by decide⟩ ⟨_, .head _, by decide⟩).mpr
    (by unfold OwnLines; decide +kernel)

/-- With such a rule the tunnel's own is deleted, and the other is what is left of the count. -/
theorem marked_rule_displaces : ¬∀ (fwmark : Nat) (tables : Family → List PolicyRule)
    (family : Family), tableText fwmark = toString fwmark →
    (∃ r ∈ tables family, r.isLookup fwmark = true) →
    (∃ r ∈ tables family, r.isSuppress = true) →
    Pruned fwmark (tables family) (pruneDuplicatePolicyRules fwmark tables family) := by
  intro hall
  have htext : tableText defaultFwmark = toString defaultFwmark := by decide
  have hlookup : ∃ r ∈ Sample.ownRules ++ [Sample.markedRule], r.isLookup defaultFwmark = true :=
    ⟨_, .tail _ (.head _), by decide⟩
  have hsuppress : ∃ r ∈ Sample.ownRules ++ [Sample.markedRule], r.isSuppress = true :=
    ⟨_, .head _, by decide⟩
  have hpruned := hall defaultFwmark (fun _ => Sample.ownRules ++ [Sample.markedRule]) .v4 htext
    hlookup hsuppress
  have hown := ((pruned_iff _ (fun _ => Sample.ownRules ++ [Sample.markedRule]) .v4 htext hlookup
    hsuppress).mp hpruned Sample.markedRule (by decide)).1 (by decide +kernel)
  exact absurd hown (by decide)

end Vpnmgr
