import Vpnmgr.Core.Config
import Vpnmgr.Library.Blocks

/-! How much of the address space prefixes cover: each is a block of the addresses of its family,
and a list of them covers a family exactly if its outermost blocks have all of the addresses. -/

namespace Vpnmgr

open Blocks

/-- The block of the numbers of the addresses that a prefix covers. -/
def blockOf {w : Nat} (net : BitVec w) (n : Nat) (fits : n ≤ w) : Block w where
  len := n
  index := net.toNat / 2 ^ (w - n)
  fits := fits
  bound := by
    rw [Nat.div_lt_iff_lt_mul (Nat.two_pow_pos _), ← Nat.pow_add, Nat.add_sub_cancel' fits]
    exact net.isLt

theorem blockOf_has {w n : Nat} {net a : BitVec w} {fits : n ≤ w} :
    (blockOf net n fits).Has a.toNat ↔ (net >>> (w - n) == a >>> (w - n)) = true := by
  rw [beq_iff_eq, ← BitVec.toNat_inj, BitVec.toNat_ushiftRight, BitVec.toNat_ushiftRight,
    Nat.shiftRight_eq_div_pow, Nat.shiftRight_eq_div_pow]
  exact eq_comm

namespace Cidr

def blockV4 (c : Cidr) : Option (Block 32) :=
  match c with
  | ⟨.v4 net, n, fits⟩ => some (blockOf net n fits)
  | ⟨.v6 _, _, _⟩ => none

def blockV6 (c : Cidr) : Option (Block 128) :=
  match c with
  | ⟨.v4 _, _, _⟩ => none
  | ⟨.v6 net, n, fits⟩ => some (blockOf net n fits)

theorem contains_v4 {c : Cidr} {a : BitVec 32} : c.contains (.v4 a) = true ↔
    ∃ b, c.blockV4 = some b ∧ b.Has a.toNat := by
  obtain ⟨addr, n, fits⟩ := c
  cases addr with
  | v4 net =>
    constructor
    · exact fun h => ⟨_, rfl, blockOf_has.mpr h⟩
    · rintro ⟨b, ⟨⟩, hhas⟩
      exact blockOf_has.mp hhas
  | v6 net => exact iff_of_false (fun h => by cases h) (by rintro ⟨b, ⟨⟩, _⟩)

theorem contains_v6 {c : Cidr} {a : BitVec 128} : c.contains (.v6 a) = true ↔
    ∃ b, c.blockV6 = some b ∧ b.Has a.toNat := by
  obtain ⟨addr, n, fits⟩ := c
  cases addr with
  | v4 net => exact iff_of_false (fun h => by cases h) (by rintro ⟨b, ⟨⟩, _⟩)
  | v6 net =>
    constructor
    · exact fun h => ⟨_, rfl, blockOf_has.mpr h⟩
    · rintro ⟨b, ⟨⟩, hhas⟩
      exact blockOf_has.mp hhas

/-- A default route contains every address of its family. -/
theorem contains_default {c : Cidr} (h : c.isDefaultRoute = true) {ip : IpAddr}
    (hfamily : c.addr.isIpv4 = ip.isIpv4) : c.contains ip = true := by
  obtain ⟨addr, n, fits⟩ := c
  obtain rfl : n = 0 := eq_of_beq h
  cases addr with
  | v4 net =>
    cases ip with
    | v4 a => simp [contains, BitVec.ushiftRight_eq_zero]
    | v6 a => cases hfamily
  | v6 net =>
    cases ip with
    | v4 a => cases hfamily
    | v6 a => simp [contains, BitVec.ushiftRight_eq_zero]

section Family

variable {w : Nat} {addr : BitVec w → IpAddr} {block : Cidr → Option (Block w)}
  (hcontains : ∀ {c a}, c.contains (addr a) = true ↔ ∃ b, block c = some b ∧ b.Has a.toNat)

include hcontains

/-- Prefixes leave an address of a family out exactly if the outermost of them have fewer addresses
than there are. -/
theorem uncovered_iff (cs : List Cidr) : (∃ a, ∀ c ∈ cs, c.contains (addr a) = false) ↔
    extent (cs.filterMap block) < 2 ^ w := by
  rw [← exists_uncovered_iff]
  constructor
  · rintro ⟨a, hout⟩
    refine ⟨a.toNat, a.isLt, fun b hb hhas => ?_⟩
    obtain ⟨c, hc, hblock⟩ := List.mem_filterMap.mp hb
    have hcovered := hcontains.mpr ⟨b, hblock, hhas⟩
    rw [hout c hc] at hcovered
    cases hcovered
  · rintro ⟨x, hlt, hout⟩
    refine ⟨BitVec.ofNat w x, fun c hc => ?_⟩
    rw [← Bool.not_eq_true, hcontains]
    rintro ⟨b, hblock, hhas⟩
    rw [BitVec.toNat_ofNat, Nat.mod_eq_of_lt hlt] at hhas
    exact hout b (List.mem_filterMap.mpr ⟨c, hc, hblock⟩) hhas

theorem covered_iff (cs : List Cidr) : (∀ a, ∃ c ∈ cs, c.contains (addr a) = true) ↔
    2 ^ w ≤ extent (cs.filterMap block) := by
  rw [← Nat.not_lt, ← uncovered_iff hcontains]
  simp

end Family

end Cidr

/-- Whether one of the networks a client may send to has the address in it. -/
def ClientConfig.Carries (client : ClientConfig) (ip : IpAddr) : Prop :=
  ∃ c ∈ client.allowedIps, c.contains ip = true

end Vpnmgr
