import Mathlib.Logic.Function.Basic
import Vpnmgr.Tunnel.Killswitch

/-! The output chain of the kill switch tried rule by rule, the ranges it lets out, and what the
commands of its script make of the tables of the firewall. -/

namespace Vpnmgr

open Text

/-- One rule of the output chain. -/
inductive ChainRule where
  | accept (m : NftMatch)
  | counterDrop
  deriving DecidableEq

inductive Verdict where
  | accept
  | drop
  deriving DecidableEq, Repr

def ChainRule.text : ChainRule → String
  | accept m => "    " ++ m.text ++ " accept\n"
  | counterDrop => "    counter drop\n"

/-- Rules are tried in order until one decides, and the policy of the chain accepts what none does.
With the verdict comes how often the packet was counted. -/
def evaluate (p : Packet) : List ChainRule → Verdict × Nat
  | [] => (.accept, 0)
  | .accept m :: rules => if m.hits p then (.accept, 0) else evaluate p rules
  | .counterDrop :: _ => (.drop, 1)

/-! ### Tables of the firewall -/

/-- The tables of the `inet` family by their names, and in a table the rules of its chains. -/
abbrev NftTables := String → Option (String → List ChainRule)

/-- A command of a script: name a table, delete one, or add rules to the chain of one. -/
inductive NftCommand where
  | table (name : String)
  | deleteTable (name : String)
  | define (name chain : String) (rules : List ChainRule)

namespace NftCommand

def text : NftCommand → String
  | table name => "table inet " ++ name ++ " \x7b\x7d\n"
  | deleteTable name => "delete table inet " ++ name ++ "\n"
  | define name chain rules => "table inet " ++ name ++ " \x7b\n  chain " ++ chain ++
      " \x7b\n    type filter hook output priority filter; policy accept;\n" ++
      String.join (rules.map ChainRule.text) ++ "  \x7d\n\x7d\n"

/-- Naming a table creates it if it is missing, and deleting a missing one fails. Defining a chain
adds to the rules it has. -/
def run (tables : NftTables) : NftCommand → Option NftTables
  | table name => some (Function.update tables name ((tables name).getD (fun _ => [])))
  | deleteTable name =>
    if (tables name).isSome then some (Function.update tables name none) else none
  | define name chain rules =>
    let chains := (tables name).getD fun _ => []
    some (Function.update tables name (some (Function.update chains chain (chains chain ++ rules))))

end NftCommand

namespace Killswitch

def table : String := "vpnmgr"

/-- The chain that the script defines: the accepting rules, and then the drop. -/
def chain (k : Killswitch) : List ChainRule := k.rules.map .accept ++ [.counterDrop]

/-- The commands of the script, applied as one transaction. -/
def commands (k : Killswitch) : List NftCommand :=
  [.table table, .deleteTable table, .define table "output" k.chain]

end Killswitch

/-! ### What is let out -/

/-- Link-local and multicast addresses of both families, and the broadcast address. -/
def linkRanges : List Cidr :=
  [.linkLocalV4, .multicastV4, .host (.v4 0xffffffff), .linkLocalV6, .multicastV6]

/-- The private ranges of both families. -/
def privateRanges : List Cidr :=
  [⟨.v4 0x0a000000, 8, by decide⟩, ⟨.v4 0xac100000, 12, by decide⟩, ⟨.v4 0xc0a80000, 16, by decide⟩,
    ⟨.v6 0xfc000000000000000000000000000000, 7, by decide⟩]

namespace Killswitch

/-- What the kill switch is to let out. -/
def Allows (k : Killswitch) (p : Packet) : Prop :=
  p.oif = "lo" ∨ p.oif = k.interface ∨ p.mark = some k.fwmark ∨
    (∃ c ∈ linkRanges, c.contains p.dst = true) ∨
    (p.udpDport = some 67 ∨ p.udpDport = some 68) ∨
    (k.allowLan = true ∧ ∃ c ∈ privateRanges, c.contains p.dst = true) ∨
    ∃ d ∈ k.bypass, ∃ c, Cidr.parse d = some c ∧ c.addr.isIpv4 = p.dst.isIpv4 ∧
      c.contains p.dst = true

/-- The rules that every ruleset has, and those for private ranges. -/
def standing (k : Killswitch) : List NftMatch :=
  [.oifname "lo", .oifname k.interface, .metaMark k.fwmark, .ipDaddr linkV4, .ip6Daddr linkV6,
    .udpDport [67, 68]] ++ if k.allowLan then [.ipDaddr lanV4, .ip6Daddr lanV6] else []

/-- The rules for the destinations of a bypass, at most one of each family. -/
def exempting (k : Killswitch) : List NftMatch :=
  let (v4, v6) := k.bypass.partition fun d => !hasChar d ':'
  (if v4 ≠ [] then [.ipDaddr v4] else []) ++ (if v6 ≠ [] then [.ip6Daddr v6] else [])

theorem rules_eq (k : Killswitch) : k.rules = k.standing ++ k.exempting := rfl

end Killswitch

/-- The destinations that a match lists. -/
def NftMatch.listed : NftMatch → List String
  | ipDaddr set => set
  | ip6Daddr set => set
  | _ => []

/-- Whether a match is one for IPv4 destinations. -/
def NftMatch.isV4 : NftMatch → Bool
  | ipDaddr _ => true
  | _ => false

theorem any_covers {texts : List String} {ranges : List Cidr}
    (h : texts.filterMap Cidr.parse = ranges) (ip : IpAddr) :
    texts.any (covers · ip) = true ↔ ∃ c ∈ ranges, c.contains ip = true := by
  subst h
  rw [List.any_eq_true]
  constructor
  · rintro ⟨d, hd, hcovers⟩
    obtain ⟨c, hc, hip⟩ := covers_eq_true.mp hcovers
    exact ⟨c, List.mem_filterMap.mpr ⟨d, hd, hc⟩, hip⟩
  · rintro ⟨c, hc, hip⟩
    obtain ⟨d, hd, hparse⟩ := List.mem_filterMap.mp hc
    exact ⟨d, hd, covers_eq_true.mpr ⟨c, hparse, hip⟩⟩

theorem linkRanges_eq : (linkV4 ++ linkV6).filterMap Cidr.parse = linkRanges := by decide

theorem privateRanges_eq : (lanV4 ++ lanV6).filterMap Cidr.parse = privateRanges := by decide

/-- Accepting rules before a counting drop: the packet is accepted if a rule matches it, and else it
is dropped and counted. -/
theorem evaluate_accepts (p : Packet) (rules : List NftMatch) :
    evaluate p (rules.map .accept ++ [.counterDrop]) =
      if rules.any (·.hits p) then (.accept, 0) else (.drop, 1) := by
  induction rules with
  | nil => rfl
  | cons m rules ih =>
    rw [List.map_cons, List.cons_append, evaluate, ih, List.any_cons]
    cases m.hits p <;> rfl

namespace Killswitch

theorem accepts_iff_allows (k : Killswitch) (p : Packet) : k.accepts p = true ↔ k.Allows p := by
  have hadmits : k.admits p.dst = true ↔ (∃ c ∈ linkRanges, c.contains p.dst = true) ∨
      (k.allowLan = true ∧ ∃ c ∈ privateRanges, c.contains p.dst = true) ∨
      ∃ d ∈ k.bypass, ∃ c, Cidr.parse d = some c ∧ c.addr.isIpv4 = p.dst.isIpv4 ∧
        c.contains p.dst = true := by
    have hlan : (if k.allowLan then lanV4 ++ lanV6 else []).any (covers · p.dst) = true ↔
        k.allowLan = true ∧ ∃ c ∈ privateRanges, c.contains p.dst = true := by
      rw [← any_covers privateRanges_eq]
      cases k.allowLan <;> simp
    have hbypass : k.bypass.any (covers · p.dst) = true ↔ ∃ d ∈ k.bypass, ∃ c,
        Cidr.parse d = some c ∧ c.addr.isIpv4 = p.dst.isIpv4 ∧ c.contains p.dst = true := by
      rw [List.any_eq_true]
      refine exists_congr fun d => and_congr_right fun _ => ?_
      rw [covers_eq_true]
      refine exists_congr fun c => and_congr_right fun _ => ?_
      exact ⟨fun h => ⟨(Cidr.contains_family h).symm, h⟩, fun h => h.2⟩
    rw [admits, List.any_append, List.any_append, Bool.or_eq_true, Bool.or_eq_true,
      any_covers linkRanges_eq, hlan, hbypass, or_assoc]
  have hports : p.udpDport.any [67, 68].contains = true ↔
      p.udpDport = some 67 ∨ p.udpDport = some 68 := by
    cases p.udpDport <;> simp
  rw [accepts_iff, hadmits, hports, Allows]
  exact or_congr_right (or_congr_right (or_congr_right or_left_comm))

theorem evaluate_chain (k : Killswitch) (p : Packet) :
    ((evaluate p k.chain).1 = .accept ↔ k.Allows p) ∧
      (¬k.Allows p → evaluate p k.chain = (.drop, 1)) := by
  rw [← accepts_iff_allows, chain, evaluate_accepts, accepts]
  by_cases h : (k.rules.any (·.hits p)) = true
  · rw [if_pos h]
    exact ⟨iff_of_true rfl h, fun hnot => absurd h hnot⟩
  · rw [if_neg h]
    exact ⟨iff_of_false (fun heq => by cases heq) h, fun _ => rfl⟩

/-- A destination of the bypass is listed by the rule of its own family and by no other. -/
theorem listed_once (k : Killswitch) {d : String} (hd : d ∈ k.bypass) :
    (k.exempting.countP fun m => d ∈ m.listed) = 1 ∧
      ∀ m ∈ k.exempting, d ∈ m.listed → m.isV4 = !hasChar d ':' := by
  have hsets : k.exempting =
      (if k.bypass.filter (fun d => !hasChar d ':') ≠ [] then
        [.ipDaddr (k.bypass.filter fun d => !hasChar d ':')] else []) ++
      (if k.bypass.filter (fun d => hasChar d ':') ≠ [] then
        [.ip6Daddr (k.bypass.filter fun d => hasChar d ':')] else []) := by
    have hnot : (not ∘ fun d => !hasChar d ':') = fun d => hasChar d ':' := by
      funext d
      simp
    rw [exempting, List.partition_eq_filter_filter, hnot]
  have hlisted : ∀ (m : List String → NftMatch) (set : List String), (m set).listed = set →
      (if set ≠ [] then [m set] else []).countP (fun m => d ∈ m.listed) =
        if d ∈ set then 1 else 0 := by
    intro m set hm
    by_cases hset : set = []
    · simp [hset]
    · simp [hset, hm, List.countP_cons]
  have hrule : ∀ (m : List String → NftMatch) (set : List String),
      ∀ r ∈ (if set ≠ [] then [m set] else []), r = m set := by
    intro m set r hr
    by_cases hset : set = []
    · simp [hset] at hr
    · simpa [hset] using hr
  rw [hsets]
  constructor
  · rw [List.countP_append, hlisted .ipDaddr _ rfl, hlisted .ip6Daddr _ rfl]
    cases hcolon : hasChar d ':' <;> simp [hd, hcolon]
  · intro m hm hmem
    rcases List.mem_append.mp hm with hm | hm
    · rw [hrule .ipDaddr _ m hm] at hmem ⊢
      exact (List.mem_filter.mp hmem).2.symm
    · rw [hrule .ip6Daddr _ m hm] at hmem ⊢
      rw [(List.mem_filter.mp hmem).2]
      rfl

/-! ### The script -/

theorem script_eq (k : Killswitch) : String.join (k.commands.map NftCommand.text) = k.script := by
  have hhead : (NftCommand.table table).text ++ ((NftCommand.deleteTable table).text ++
      ("table inet " ++ table ++ " \x7b\n  chain " ++ "output" ++
        " \x7b\n    type filter hook output priority filter; policy accept;\n")) =
      "table inet vpnmgr \x7b\x7d\ndelete table inet vpnmgr\ntable inet vpnmgr \x7b\n" ++
        "  chain output \x7b\n    type filter hook output priority filter; policy accept;\n" := by
    decide +kernel
  have htail : ChainRule.counterDrop.text ++ "  \x7d\n\x7d\n" =
      "    counter drop\n  \x7d\n\x7d\n" := by decide +kernel
  have hrules : String.join (k.chain.map ChainRule.text) =
      String.join (k.rules.map fun m => "    " ++ m.text ++ " accept\n") ++
        ChainRule.counterDrop.text := by
    rw [chain, List.map_append, String.join_append, List.map_map]
    simp only [List.map_cons, List.map_nil, String.join_cons, String.join_nil, String.append_empty]
    rfl
  have hjoin : String.join (k.commands.map NftCommand.text) = (NftCommand.table table).text ++
      ((NftCommand.deleteTable table).text ++ (NftCommand.define table "output" k.chain).text) := by
    simp only [commands, List.map_cons, List.map_nil, String.join_cons, String.join_nil,
      String.append_empty]
  have hassoc (t d h r c e : String) :
      t ++ (d ++ (h ++ (r ++ c) ++ e)) = t ++ (d ++ h) ++ r ++ (c ++ e) := by
    simp only [String.append_assoc]
  have hdefine : (NftCommand.define table "output" k.chain).text =
      "table inet " ++ table ++ " \x7b\n  chain " ++ "output" ++
        " \x7b\n    type filter hook output priority filter; policy accept;\n" ++
      String.join (k.chain.map ChainRule.text) ++ "  \x7d\n\x7d\n" := rfl
  have hall := hassoc (NftCommand.table table).text (NftCommand.deleteTable table).text
    ("table inet " ++ table ++ " \x7b\n  chain " ++ "output" ++
        " \x7b\n    type filter hook output priority filter; policy accept;\n")
    (String.join (k.rules.map fun m => "    " ++ m.text ++ " accept\n"))
    ChainRule.counterDrop.text "  \x7d\n\x7d\n"
  rw [← hrules, ← hdefine, ← hjoin] at hall
  refine hall.trans ?_
  exact congrArg₂ (· ++ ·) (congrArg₂ (· ++ ·) hhead rfl) htail

/-- Whatever tables there are, the commands succeed, replace the own table, and leave the others. -/
theorem commands_run (k : Killswitch) (tables : NftTables) :
    k.commands.foldlM NftCommand.run tables =
      some (Function.update tables table (some (Function.update (fun _ => []) "output" k.chain))) := by
  simp [commands, NftCommand.run, Function.update_idem]

/-- The chain lets out just what it is to let out, and drops and counts every other packet. Its last
rules are for the bypass, and each destination of that is in one of them, its own family's. The
script is that of commands which replace the table, whatever it was, and leave the others. -/
theorem chain_exact (k : Killswitch) :
    (∀ p, ((evaluate p k.chain).1 = .accept ↔ k.Allows p) ∧
      (¬k.Allows p → evaluate p k.chain = (.drop, 1))) ∧
    k.rules = k.standing ++ k.exempting ∧
    (∀ d ∈ k.bypass, (k.exempting.countP fun m => d ∈ m.listed) = 1 ∧
      ∀ m ∈ k.exempting, d ∈ m.listed → ∀ c, Cidr.parse d = some c → m.isV4 = c.addr.isIpv4) ∧
    String.join (k.commands.map NftCommand.text) = k.script ∧
    ∀ tables, k.commands.foldlM NftCommand.run tables =
      some (Function.update tables table (some (Function.update (fun _ => []) "output" k.chain))) := by
  refine ⟨k.evaluate_chain, k.rules_eq, fun d hd => ?_, k.script_eq, k.commands_run⟩
  obtain ⟨honce, hfamily⟩ := k.listed_once hd
  refine ⟨honce, fun m hm hmem c hc => ?_⟩
  have hv4 := Cidr.parse_isIpv4 hc
  rw [hfamily m hm hmem]
  cases hcolon : hasChar d ':' <;> simp_all

/-- Engaging a kill switch where another is engaged leaves what it leaves where none is. -/
theorem engage_replaces (k k' : Killswitch) (tables : NftTables) :
    (k'.commands ++ k.commands).foldlM NftCommand.run tables =
      k.commands.foldlM NftCommand.run tables := by
  rw [List.foldlM_append, commands_run k', commands_run k tables]
  refine (commands_run k _).trans ?_
  rw [Function.update_idem]

end Killswitch

end Vpnmgr
