import Vpnmgr.Tunnel.Bypass

/-! The Linux kill switch: the ruleset of its output chain, the script that installs it, and which
packets the chain accepts. -/

namespace Vpnmgr

open Text

/-- A packet about to leave the machine. -/
structure Packet where
  oif : String
  mark : Option Nat
  dst : IpAddr
  udpDport : Option Nat
  deriving DecidableEq

/-- What an accepting rule of the chain matches. -/
inductive NftMatch where
  | oifname (name : String)
  | metaMark (mark : Nat)
  | ipDaddr (set : List String)
  | ip6Daddr (set : List String)
  | udpDport (ports : List Nat)
  deriving DecidableEq

namespace NftMatch

/-- The match as it stands in the script. -/
def text : NftMatch → String
  | oifname name => "oifname \"" ++ name ++ "\""
  | metaMark mark => s!"meta mark {mark}"
  | ipDaddr set => "ip daddr \x7b " ++ ", ".intercalate set ++ " \x7d"
  | ip6Daddr set => "ip6 daddr \x7b " ++ ", ".intercalate set ++ " \x7d"
  | udpDport ports => "udp dport \x7b " ++ ", ".intercalate (ports.map toString) ++ " \x7d"

def hits (p : Packet) : NftMatch → Bool
  | oifname name => p.oif == name
  | metaMark mark => p.mark == some mark
  | ipDaddr set => p.dst.isIpv4 && set.any (covers · p.dst)
  | ip6Daddr set => !p.dst.isIpv4 && set.any (covers · p.dst)
  | udpDport ports => p.udpDport.any ports.contains

end NftMatch

def lanV4 : List String := ["10.0.0.0/8", "172.16.0.0/12", "192.168.0.0/16"]

def lanV6 : List String := ["fc00::/7"]

/-- Ranges the link needs regardless of policy. -/
def linkV4 : List String := ["169.254.0.0/16", "224.0.0.0/4", "255.255.255.255"]

def linkV6 : List String := ["fe80::/10", "ff00::/8"]

/-- Controls the table that enforces the kill switch. -/
structure Killswitch where
  interface : String
  fwmark : Nat
  allowLan : Bool
  bypass : List String
  deriving DecidableEq

namespace Killswitch

def new (interface : String) (fwmark : Nat) (allowLan : Bool) : Killswitch :=
  { interface, fwmark, allowLan, bypass := [] }

/-- Permit traffic to destinations that bypass the tunnel by design. -/
def allowing (k : Killswitch) (destinations : List String) : Killswitch :=
  { k with bypass := destinations }

/-- The accepting rules of the chain, in order. -/
def rules (k : Killswitch) : List NftMatch :=
  [.oifname "lo", .oifname k.interface, .metaMark k.fwmark, .ipDaddr linkV4, .ip6Daddr linkV6,
    .udpDport [67, 68]] ++
  (if k.allowLan then [.ipDaddr lanV4, .ip6Daddr lanV6] else []) ++
  let (v4, v6) := k.bypass.partition fun d => !hasChar d ':'
  (if v4 ≠ [] then [.ipDaddr v4] else []) ++ (if v6 ≠ [] then [.ip6Daddr v6] else [])

/-- The nftables script: replace the table by one whose chain accepts by the rules and drops the
rest. -/
def script (k : Killswitch) : String :=
  "table inet vpnmgr \x7b\x7d\ndelete table inet vpnmgr\ntable inet vpnmgr \x7b\n" ++
    "  chain output \x7b\n    type filter hook output priority filter; policy accept;\n" ++
    String.join (k.rules.map fun m => "    " ++ m.text ++ " accept\n") ++
    "    counter drop\n  \x7d\n\x7d\n"

/-- Whether the chain lets a packet out. -/
def accepts (k : Killswitch) (p : Packet) : Bool := k.rules.any (·.hits p)

/-- The destination addresses the chain lets out on their own account. -/
def admits (k : Killswitch) (ip : IpAddr) : Bool :=
  (linkV4 ++ linkV6 ++ (if k.allowLan then lanV4 ++ lanV6 else []) ++ k.bypass).any (covers · ip)

/-- Whether every packet to the destination is let out. -/
def LetsOut (k : Killswitch) (destination : String) : Prop :=
  ∀ p : Packet, covers destination p.dst = true → k.accepts p = true

theorem hits_ipDaddr {set : List String} (hset : ∀ d ∈ set, hasChar d ':' = false) (p : Packet) :
    (NftMatch.ipDaddr set).hits p = set.any (covers · p.dst) := by
  rw [Bool.eq_iff_iff]
  simp only [NftMatch.hits, Bool.and_eq_true, List.any_eq_true, and_iff_right_iff_imp]
  rintro ⟨d, hd, hc⟩
  rw [covers_family hc, hset d hd]
  rfl

theorem hits_ip6Daddr {set : List String} (hset : ∀ d ∈ set, hasChar d ':' = true) (p : Packet) :
    (NftMatch.ip6Daddr set).hits p = set.any (covers · p.dst) := by
  rw [Bool.eq_iff_iff]
  simp only [NftMatch.hits, Bool.and_eq_true, List.any_eq_true, and_iff_right_iff_imp]
  rintro ⟨d, hd, hc⟩
  rw [covers_family hc, hset d hd]
  rfl

/-- A rule left out because its set is empty would have matched nothing. -/
theorem any_hits_optional (m : List String → NftMatch) (set : List String) (p : Packet)
    (hm : (m set).hits p = set.any (covers · p.dst)) :
    (if set ≠ [] then [m set] else []).any (·.hits p) = set.any (covers · p.dst) := by
  by_cases hset : set = []
  · simp [hset]
  · rw [if_pos hset, List.any_cons, List.any_nil, Bool.or_false, hm]

/-- The chain accepts what leaves by the loopback or the tunnel, what carries the mark, address
configuration, and what is addressed to a range that it admits. -/
theorem accepts_iff (k : Killswitch) (p : Packet) :
    k.accepts p = true ↔ p.oif = "lo" ∨ p.oif = k.interface ∨ p.mark = some k.fwmark ∨
      p.udpDport.any [67, 68].contains = true ∨ k.admits p.dst = true := by
  have hsplit : ∀ set : List String, set.any (covers · p.dst) =
      ((set.filter fun d => !hasChar d ':').any (covers · p.dst) ||
        (set.filter fun d => hasChar d ':').any (covers · p.dst)) := by
    intro set
    rw [Bool.eq_iff_iff]
    simp only [List.any_eq_true, Bool.or_eq_true, List.mem_filter]
    constructor
    · rintro ⟨d, hd, hc⟩
      cases hcolon : hasChar d ':' with
      | false => exact .inl ⟨d, ⟨hd, by simp [hcolon]⟩, hc⟩
      | true => exact .inr ⟨d, ⟨hd, hcolon⟩, hc⟩
    · rintro (⟨d, ⟨hd, _⟩, hc⟩ | ⟨d, ⟨hd, _⟩, hc⟩) <;> exact ⟨d, hd, hc⟩
  have hlink4 := hits_ipDaddr (by decide : ∀ d ∈ linkV4, hasChar d ':' = false) p
  have hlink6 := hits_ip6Daddr (by decide : ∀ d ∈ linkV6, hasChar d ':' = true) p
  have hlan : (if k.allowLan then [NftMatch.ipDaddr lanV4, .ip6Daddr lanV6] else []).any
      (·.hits p) = (if k.allowLan then lanV4 ++ lanV6 else []).any (covers · p.dst) := by
    have h4 := hits_ipDaddr (by decide : ∀ d ∈ lanV4, hasChar d ':' = false) p
    have h6 := hits_ip6Daddr (by decide : ∀ d ∈ lanV6, hasChar d ':' = true) p
    cases k.allowLan with
    | false => rfl
    | true =>
      simp only [if_true, List.any_cons, List.any_nil, Bool.or_false, List.any_append, h4, h6]
  have hv4 := any_hits_optional .ipDaddr (k.bypass.filter fun d => !hasChar d ':') p
    (hits_ipDaddr (fun d hd => by simpa using (List.mem_filter.mp hd).2) p)
  have hv6 := any_hits_optional .ip6Daddr (k.bypass.filter fun d => hasChar d ':') p
    (hits_ip6Daddr (fun d hd => by simpa using (List.mem_filter.mp hd).2) p)
  simp only [accepts, rules, admits, List.partition_eq_filter_filter, List.any_append,
    List.any_cons, List.any_nil, Bool.or_false, hlan, hlink4, hlink6]
  have hnot : (not ∘ fun d => !hasChar d ':') = fun d => hasChar d ':' := by
    funext d; simp
  rw [hnot, hv4, hv6, hsplit k.bypass]
  simp only [NftMatch.hits, Bool.or_eq_true, beq_iff_eq]
  tauto

/-- A destination is let out exactly when every address it covers is admitted. -/
theorem letsOut_iff {k : Killswitch} {d : String} :
    k.LetsOut d ↔ ∀ ip, covers d ip = true → k.admits ip = true := by
  constructor
  · intro h ip hip
    let oif := if k.interface = "eth0" then "eth1" else "eth0"
    have hoif : oif ≠ "lo" ∧ oif ≠ k.interface := by
      by_cases hk : k.interface = "eth0"
      · simp [oif, hk]
      · simp only [oif, if_neg hk]
        exact ⟨by decide, Ne.symm hk⟩
    have hp := (accepts_iff k ⟨oif, none, ip, none⟩).mp (h _ hip)
    simpa [hoif.1, hoif.2] using hp
  · intro h p hp
    exact (accepts_iff k p).mpr (.inr (.inr (.inr (.inr (h _ hp)))))

end Killswitch

end Vpnmgr
