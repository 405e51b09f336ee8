import Vpnmgr.Library.Prefix
import Vpnmgr.Tunnel.Bypass

/-! Which addresses a prefix contains, by the masks that the daemon computes and bit by bit, and which
private ranges are left to the tunnel. -/

namespace Vpnmgr

open Text Prefix

/-! ### Prefixes bit by bit -/

namespace IpAddr

/-- Addresses of one family that agree on their first `n` bits. -/
def Agree (n : Nat) : IpAddr → IpAddr → Prop
  | v4 a, v4 b => Prefix.Agree n a b
  | v6 a, v6 b => Prefix.Agree n a b
  | _, _ => False

instance (n : Nat) (a b : IpAddr) : Decidable (Agree n a b) := by
  cases a <;> cases b <;> unfold Agree <;> infer_instance

end IpAddr

theorem Cidr.contains_iff (c : Cidr) (ip : IpAddr) :
    c.contains ip = true ↔ IpAddr.Agree c.prefixLen c.addr ip := by
  obtain ⟨addr, n, fits⟩ := c
  cases addr with
  | v4 net =>
    cases ip with
    | v4 a => exact beq_iff_eq.trans (agree_iff_shift fits net a).symm
    | v6 a => simp [contains, IpAddr.Agree]
  | v6 net =>
    cases ip with
    | v4 a => simp [contains, IpAddr.Agree]
    | v6 a => exact beq_iff_eq.trans (agree_iff_shift fits net a).symm

/-! ### The masks -/

/-- Whether words of so many bits are equal under the mask of a prefix, unless its shift overflows. -/
def sameUnderMask {w : Nat} (n : Nat) (net addr : BitVec w) : Option Bool :=
  (mask w n).map fun m => net &&& m == addr &&& m

/-- `cidr_contains` with its shift checked: no answer where the shift overflows. -/
def cidrContainsMasked (cidr : String) (addr : IpAddr) : Option Bool :=
  match splitOnce '/' cidr.toList with
  | none => some false
  | some (network, p) =>
    match parseUnsigned 32 p with
    | .error _ => some false
    | .ok n =>
      match IpAddr.parseChars network, addr with
      | some (.v4 net), .v4 addr => if n ≤ 32 then sameUnderMask n net addr else some false
      | some (.v6 net), .v6 addr => if n ≤ 128 then sameUnderMask n net addr else some false
      | _, _ => some false

/-- A text names a network and a prefix length that its family admits, and the address agrees with
the network on so many bits. -/
def InRange (cidr : String) (addr : IpAddr) : Prop :=
  ∃ network p net n, splitOnce '/' cidr.toList = some (network, p) ∧
    IpAddr.parseChars network = some net ∧ parseUnsigned 32 p = .ok n ∧ n ≤ net.width ∧
    IpAddr.Agree n net addr

theorem sameUnderMask_eq {w n : Nat} (hn : n ≤ w) (net addr : BitVec w) :
    sameUnderMask n net addr = some (decide (Prefix.Agree n net addr)) := by
  obtain ⟨m, hm, hbits⟩ := mask_isSome hn
  rw [sameUnderMask, hm, Option.map_some, Option.some.injEq, Bool.eq_iff_iff, beq_iff_eq,
    and_mask_eq_iff hn hbits, decide_eq_true_iff]

/-! ### Numbers as `u32` reads them -/

theorem foldlM_pushDigit_ok {bits n m : Nat} {cs : List Char} (hn : n < 2 ^ bits) :
    cs.foldlM (pushDigit bits) n = .ok m ↔ cs.all Char.isDigit = true ∧
      cs.foldl (fun n c => 10 * n + (c.toNat - '0'.toNat)) n = m ∧ m < 2 ^ bits := by
  have hgrows : ∀ (cs : List Char) (k : Nat),
      k ≤ cs.foldl (fun n c => 10 * n + (c.toNat - '0'.toNat)) k := by
    intro cs
    induction cs with
    | nil => exact fun k => le_refl k
    | cons c cs ih =>
      intro k
      have hnext : k ≤ 10 * k + (c.toNat - '0'.toNat) := by omega
      exact Nat.le_trans hnext (ih _)
  induction cs generalizing n with
  | nil =>
    rw [List.foldlM_nil, List.foldl_nil]
    constructor
    · intro h
      cases h
      exact ⟨rfl, rfl, hn⟩
    · rintro ⟨_, rfl, _⟩
      rfl
  | cons c cs ih =>
    rw [List.foldlM_cons, List.foldl_cons, List.all_cons, Bool.and_eq_true]
    by_cases hdigit : c.isDigit = true
    · by_cases hlt : 10 * n + (c.toNat - '0'.toNat) < 2 ^ bits
      · have hpush : pushDigit bits n c = .ok (10 * n + (c.toNat - '0'.toNat)) := by
          rw [pushDigit, if_pos hdigit, if_pos hlt]
        rw [hpush, and_iff_right hdigit]
        exact ih hlt
      · have hpush : pushDigit bits n c = .error .posOverflow := by
          rw [pushDigit, if_pos hdigit, if_neg hlt]
        rw [hpush]
        refine iff_of_false (fun h => by cases h) ?_
        rintro ⟨_, rfl, hm⟩
        exact hlt (Nat.lt_of_le_of_lt (hgrows cs _) hm)
    · have hpush : pushDigit bits n c = .error .invalidDigit := by rw [pushDigit, if_neg hdigit]
      rw [hpush]
      exact iff_of_false (fun h => by cases h) fun h => hdigit h.1.1

/-- A number that fits is read as its decimal digits are, after a plus sign or none. -/
theorem parseUnsigned_eq_ok {bits n : Nat} {cs : List Char} : parseUnsigned bits cs = .ok n ↔
    IpAddr.decimalDigits (if cs.head? = some '+' then cs.tail else cs) = some n ∧ n < 2 ^ bits := by
  unfold parseUnsigned IpAddr.decimalDigits
  by_cases hempty : cs = []
  · subst hempty
    simp
  by_cases hsign : cs = ['+'] ∨ cs = ['-']
  · rcases hsign with rfl | rfl <;> simp
  have hrest : (if cs.head? = some '+' then cs.tail else cs) ≠ [] := by
    split
    · next hplus =>
      intro htail
      cases cs with
      | nil => exact hempty rfl
      | cons c cs =>
        simp only [List.head?_cons, Option.some.injEq] at hplus
        simp only [List.tail_cons] at htail
        exact hsign (.inl (by rw [hplus, htail]))
    · exact hempty
  rw [if_neg hempty, if_neg hsign]
  generalize (if cs.head? = some '+' then cs.tail else cs) = rest at hrest ⊢
  rw [foldlM_pushDigit_ok (Nat.two_pow_pos bits)]
  by_cases hall : rest.all Char.isDigit = true
  · rw [if_pos ⟨hrest, hall⟩, and_iff_right hall, Option.some.injEq]
  · rw [if_neg fun h => hall h.2]
    exact iff_of_false (fun h => hall h.1) fun h => by cases h.1

/-! ### Containment -/

theorem inRange_split {cidr : String} {network p : List Char}
    (hsplit : splitOnce '/' cidr.toList = some (network, p)) (addr : IpAddr) :
    InRange cidr addr ↔ ∃ net n, IpAddr.parseChars network = some net ∧
      parseUnsigned 32 p = .ok n ∧ n ≤ net.width ∧ IpAddr.Agree n net addr := by
  constructor
  · rintro ⟨_, _, net, n, hparts, h⟩
    rw [hsplit] at hparts
    cases hparts
    exact ⟨net, n, h⟩
  · rintro ⟨net, n, h⟩
    exact ⟨network, p, net, n, hsplit, h⟩

theorem cidrContains_iff (cidr : String) (addr : IpAddr) :
    cidrContains cidr addr = true ↔ InRange cidr addr := by
  unfold cidrContains
  cases hsplit : splitOnce '/' cidr.toList with
  | none => simp [InRange, hsplit]
  | some parts =>
    obtain ⟨network, p⟩ := parts
    rw [inRange_split hsplit]
    have hbound : ∀ {net : IpAddr} {n : Nat}, n ≤ net.width → n < 2 ^ 32 := by
      intro net n hn
      cases net with
      | v4 a => exact Nat.lt_of_le_of_lt hn (show 32 < 2 ^ 32 by decide)
      | v6 a => exact Nat.lt_of_le_of_lt hn (show 128 < 2 ^ 32 by decide)
    simp only [parseUnsigned_eq_ok]
    cases IpAddr.parseChars network with
    | none => simp
    | some net =>
      cases IpAddr.decimalDigits (if p.head? = some '+' then p.tail else p) with
      | none => simp
      | some n =>
        by_cases hfits : n ≤ net.width
        · have hlt := hbound hfits
          simp [hfits, Cidr.contains_iff, -Nat.reducePow, hlt]
        · simp [hfits]

/-- Under the guards of the two arms no shift overflows, and the masks compare the first bits. -/
theorem sameUnderMask_arms (n : Nat) (net addr : IpAddr) :
    (match some net, addr with
      | some (.v4 net), .v4 addr => if n ≤ 32 then sameUnderMask n net addr else some false
      | some (.v6 net), .v6 addr => if n ≤ 128 then sameUnderMask n net addr else some false
      | _, _ => some false) = some (decide (n ≤ net.width ∧ IpAddr.Agree n net addr)) := by
  have harm {w : Nat} (a b : BitVec w) : (if n ≤ w then sameUnderMask n a b else some false) =
      some (decide (n ≤ w ∧ Prefix.Agree n a b)) := by
    by_cases hn : n ≤ w
    · rw [if_pos hn, sameUnderMask_eq hn, Option.some.injEq]
      exact decide_eq_decide.mpr (and_iff_right hn).symm
    · rw [if_neg hn, decide_eq_false fun h => hn h.1]
  have hnone {p : Prop} [Decidable p] (h : ¬p) : some false = some (decide p) := by
    rw [decide_eq_false h]
  cases net with
  | v4 net =>
    cases addr with
    | v4 a => exact harm net a
    | v6 a => exact hnone fun h => h.2
  | v6 net =>
    cases addr with
    | v4 a => exact hnone fun h => h.2
    | v6 a => exact harm net a

/-- The masks answer, and say what the bits say. -/
theorem cidrContainsMasked_iff (cidr : String) (addr : IpAddr) :
    ∃ b, cidrContainsMasked cidr addr = some b ∧ (b = true ↔ InRange cidr addr) := by
  unfold cidrContainsMasked
  cases hsplit : splitOnce '/' cidr.toList with
  | none => exact ⟨false, rfl, by simp [InRange, hsplit]⟩
  | some parts =>
    obtain ⟨network, p⟩ := parts
    rw [inRange_split hsplit]
    dsimp only
    cases parseUnsigned 32 p with
    | error e => exact ⟨false, rfl, by simp⟩
    | ok n =>
      dsimp only
      cases IpAddr.parseChars network with
      | none => exact ⟨false, rfl, by simp⟩
      | some net => exact ⟨_, sameUnderMask_arms n net addr, by simp⟩

/-- The shifts of the masks never overflow, and the masks contain what prefixes do. -/
theorem cidrContainsMasked_eq (cidr : String) (addr : IpAddr) :
    cidrContainsMasked cidr addr = some (cidrContains cidr addr) := by
  obtain ⟨b, hb, hiff⟩ := cidrContainsMasked_iff cidr addr
  rw [← cidrContains_iff] at hiff
  rw [hb, Bool.eq_iff_iff.mpr hiff]

theorem mem_lanRanges {tunnel : List IpAddr} {range : String} : range ∈ lanRanges tunnel ↔
    range ∈ privateV4 ++ privateV6 ∧ ∀ addr ∈ tunnel, ¬InRange range addr := by
  simp only [lanRanges, List.mem_filter, Bool.not_eq_true', List.any_eq_false, cidrContains_iff]

/-- A text contains an address exactly when it names a range that has the address in it, no shift
overflows, and the ranges kept out of the tunnel are the private ones without an address of it. -/
theorem lan_spares_tunnel :
    (∀ (cidr : String) (addr : IpAddr), ∃ b, cidrContainsMasked cidr addr = some b ∧
      (b = true ↔ InRange cidr addr)) ∧
    ∀ (tunnel : List IpAddr) (range : String), range ∈ lanRanges tunnel ↔
      range ∈ privateV4 ++ privateV6 ∧ ∀ addr ∈ tunnel, cidrContainsMasked range addr = some false ∧
        ¬InRange range addr := by
  refine ⟨cidrContainsMasked_iff, fun tunnel range => ?_⟩
  rw [mem_lanRanges]
  refine and_congr_right fun _ => forall_congr' fun addr => forall_congr' fun _ => ?_
  rw [cidrContainsMasked_eq, Option.some.injEq, ← cidrContains_iff, Bool.not_eq_true, and_self]

/-- A nameserver in 10.0.0.0/8 keeps that range in the tunnel, and the others go around it. -/
example : lanRanges [.v4 0x0a800001] = ["172.16.0.0/12", "192.168.0.0/16", "fc00::/7"] := by
  decide

end Vpnmgr
