import Vpnmgr.Library.Text
import Mathlib.Data.Nat.Digits.Defs

/-! Internet addresses, socket addresses and prefixes: their text as the standard library reads it,
and which addresses a prefix covers. -/

namespace Vpnmgr

open Text

/-- An address of either family, as the bits of its number. -/
inductive IpAddr where
  | v4 (bits : BitVec 32)
  | v6 (bits : BitVec 128)
  deriving DecidableEq, Repr

instance : Inhabited IpAddr := ⟨.v4 0⟩

namespace IpAddr

def isIpv4 : IpAddr → Bool
  | v4 _ => true
  | v6 _ => false

/-- The number of bits of an address of this family. -/
def width : IpAddr → Nat
  | v4 _ => 32
  | v6 _ => 128

/-- The number of a non-empty row of decimal digits. -/
def decimalDigits (cs : List Char) : Option Nat :=
  if cs ≠ [] ∧ cs.all Char.isDigit then
    some (cs.foldl (fun n c => 10 * n + (c.toNat - '0'.toNat)) 0)
  else none

/-- One of the four numbers of an IPv4 address: no leading zero, at most 255. -/
def octet (cs : List Char) : Option (BitVec 8) :=
  match decimalDigits cs with
  | some n => if n ≤ 255 ∧ (cs.head? ≠ some '0' ∨ cs.length = 1) then some n else none
  | none => none

/-- `Ipv4Addr::from_str`. -/
def parseV4 (cs : List Char) : Option (BitVec 32) :=
  match (split '.' cs).map octet with
  | [some a, some b, some c, some d] => some (a ++ b ++ c ++ d)
  | _ => none

def hexDigit (c : Char) : Option Nat :=
  if c.isDigit then some (c.toNat - '0'.toNat)
  else if 'a' ≤ c ∧ c ≤ 'f' then some (c.toNat - 'a'.toNat + 10)
  else if 'A' ≤ c ∧ c ≤ 'F' then some (c.toNat - 'A'.toNat + 10)
  else none

/-- One group of an IPv6 address: one to four hexadecimal digits. -/
def hexGroup (cs : List Char) : Option (BitVec 16) :=
  if cs = [] ∨ 4 < cs.length then none
  else (cs.mapM hexDigit).map fun ds => BitVec.ofNat 16 (ds.foldl (fun n d => 16 * n + d) 0)

/-- The groups between colons. The last piece may be an IPv4 address, which stands for two. -/
def groups : List (List Char) → Option (List (BitVec 16))
  | [] => some []
  | [last] =>
    match hexGroup last with
    | some g => some [g]
    | none => (parseV4 last).map fun a => [a.extractLsb' 16 16, a.extractLsb' 0 16]
  | piece :: pieces => do return (← hexGroup piece) :: (← groups pieces)

/-- The groups of a text that may be empty, as each side of a `::` may be. -/
def groupsOf (cs : List Char) : Option (List (BitVec 16)) :=
  if cs = [] then some [] else groups (split ':' cs)

/-- The address of eight groups. -/
def ofGroups (gs : List (BitVec 16)) : BitVec 128 :=
  BitVec.ofNat 128 (gs.foldl (fun n g => 65536 * n + g.toNat) 0)

/-- `Ipv6Addr::from_str`. A `::` stands for one zero group or more, and no IPv4 address may come
before it. -/
def parseV6 (cs : List Char) : Option (BitVec 128) :=
  match splitTwice ':' cs with
  | some (before, after) =>
    match groupsOf before, groupsOf after with
    | some front, some back =>
      if front.length + back.length ≤ 7 ∧ '.' ∉ before then
        some (ofGroups (front ++ List.replicate (8 - front.length - back.length) 0 ++ back))
      else none
    | _, _ => none
  | none =>
    match groups (split ':' cs) with
    | some gs => if gs.length = 8 then some (ofGroups gs) else none
    | none => none

/-- `IpAddr::from_str`, on characters. -/
def parseChars (cs : List Char) : Option IpAddr :=
  match parseV4 cs with
  | some a => some (v4 a)
  | none => (parseV6 cs).map v6

/-- `IpAddr::from_str`. -/
def parse (s : String) : Option IpAddr := parseChars s.toList

theorem decimalDigits_isDigit {cs : List Char} {n : Nat} (h : decimalDigits cs = some n) :
    ∀ c ∈ cs, c.isDigit = true := by
  unfold decimalDigits at h
  split at h
  · next hcs => exact fun c hc => List.all_eq_true.mp hcs.2 c hc
  · cases h

theorem octet_isDigit {cs : List Char} {b : BitVec 8} (h : octet cs = some b) :
    ∀ c ∈ cs, c.isDigit = true := by
  unfold octet at h
  split at h
  · next n hn => exact decimalDigits_isDigit hn
  · cases h

theorem parseV4_no_colon {cs : List Char} {a : BitVec 32} (h : parseV4 cs = some a) :
    ':' ∉ cs := by
  intro hmem
  obtain ⟨piece, hpiece, hin⟩ := mem_split (c := '.') hmem (by decide)
  have hoctet : ∃ b, octet piece = some b := by
    have hmap : octet piece ∈ (split '.' cs).map octet := List.mem_map_of_mem hpiece
    unfold parseV4 at h
    split at h
    · next a b c d heq =>
      rw [heq] at hmap
      simp only [List.mem_cons, List.not_mem_nil, or_false] at hmap
      rcases hmap with hm | hm | hm | hm <;> exact ⟨_, hm⟩
    · cases h
  obtain ⟨b, hb⟩ := hoctet
  exact absurd (octet_isDigit hb ':' hin) (by decide)

theorem groups_single_length {cs : List Char} {gs : List (BitVec 16)}
    (h : groups [cs] = some gs) : gs.length ≤ 2 := by
  rw [groups] at h
  split at h
  · cases h; simp
  · obtain ⟨a, _, rfl⟩ := Option.map_eq_some_iff.mp h
    simp

theorem parseV6_colon {cs : List Char} {a : BitVec 128} (h : parseV6 cs = some a) :
    ':' ∈ cs := by
  by_contra hmem
  rw [parseV6, splitTwice_of_not_mem hmem, split_of_not_mem hmem] at h
  simp only at h
  split at h
  · next gs hgs =>
    have hle := groups_single_length hgs
    rw [if_neg (by omega)] at h
    cases h
  · cases h

/-- The text of an address has a colon exactly when the address is of the sixth version. -/
theorem parseChars_isIpv4 {cs : List Char} {ip : IpAddr} (h : parseChars cs = some ip) :
    ip.isIpv4 = true ↔ ':' ∉ cs := by
  unfold parseChars at h
  split at h
  · next a ha =>
    cases h
    exact ⟨fun _ => parseV4_no_colon ha, fun _ => rfl⟩
  · obtain ⟨a, ha, rfl⟩ := Option.map_eq_some_iff.mp h
    simp [isIpv4, parseV6_colon ha]

end IpAddr

/-- An address and a port. -/
structure SocketAddr where
  ip : IpAddr
  port : UInt16
  deriving DecidableEq, Repr, Inhabited

/-- An address with a prefix length that its family admits. -/
structure Cidr where
  addr : IpAddr
  prefixLen : Nat
  fits : prefixLen ≤ addr.width
  deriving DecidableEq, Repr

namespace Cidr

/-- `u8::from_str`: an optional plus sign and decimal digits, at most 255. -/
def parseU8 (cs : List Char) : Option Nat :=
  match IpAddr.decimalDigits (if cs.head? = some '+' then cs.tail else cs) with
  | some n => if n ≤ 255 then some n else none
  | none => none

/-- The whole address space, `0.0.0.0/0` and `::/0`. -/
def everywhere : List Cidr := [⟨.v4 0#32, 0, Nat.zero_le _⟩, ⟨.v6 0#128, 0, Nat.zero_le _⟩]

/-- The address alone, as a prefix of full length. -/
def host (addr : IpAddr) : Cidr := ⟨addr, addr.width, le_refl _⟩

/-- The ranges of link-local and of multicast addresses. -/
def linkLocalV4 : Cidr := ⟨.v4 0xa9fe0000, 16, by decide⟩

def linkLocalV6 : Cidr := ⟨.v6 0xfe800000000000000000000000000000, 10, by decide⟩

def multicastV4 : Cidr := ⟨.v4 0xe0000000, 4, by decide⟩

def multicastV6 : Cidr := ⟨.v6 0xff000000000000000000000000000000, 8, by decide⟩

/-- `Cidr::from_str`. -/
def parse (s : String) : Option Cidr :=
  let cs := trimChars s.toList
  match splitOnce '/' cs with
  | none => (IpAddr.parseChars (trimChars cs)).map host
  | some (a, p) =>
    match IpAddr.parseChars (trimChars a), parseU8 (trimChars p) with
    | some addr, some n => if h : n ≤ addr.width then some ⟨addr, n, h⟩ else none
    | _, _ => none

/-- Whether `ip` is of the family of the prefix and agrees with it on its first bits. -/
def contains (c : Cidr) : IpAddr → Bool
  | .v4 a =>
    match c.addr with
    | .v4 net => net >>> (32 - c.prefixLen) == a >>> (32 - c.prefixLen)
    | .v6 _ => false
  | .v6 a =>
    match c.addr with
    | .v4 _ => false
    | .v6 net => net >>> (128 - c.prefixLen) == a >>> (128 - c.prefixLen)

def isDefaultRoute (c : Cidr) : Bool := c.prefixLen == 0

theorem parseU8_no_colon {cs : List Char} {n : Nat} (h : parseU8 cs = some n) : ':' ∉ cs := by
  unfold parseU8 at h
  split at h
  · next m hm =>
    have hdigit := IpAddr.decimalDigits_isDigit hm
    intro hmem
    refine absurd (hdigit ':' ?_) (by decide)
    split
    · next hplus =>
      cases cs with
      | nil => cases hmem
      | cons c cs =>
        simp only [List.head?_cons, Option.some.injEq] at hplus
        subst hplus
        simpa using hmem
    · exact hmem
  · cases h

theorem mem_trimChars_colon {cs : List Char} : ':' ∈ trimChars cs ↔ ':' ∈ cs :=
  ⟨mem_trimChars, fun h => mem_trimChars_of_not_whitespace h (by decide)⟩

/-- The text of a prefix has a colon exactly when its address is of the sixth version. -/
theorem parse_isIpv4 {s : String} {c : Cidr} (h : parse s = some c) :
    c.addr.isIpv4 = true ↔ hasChar s ':' = false := by
  have hchar : hasChar s ':' = false ↔ ':' ∉ trimChars s.toList := by
    rw [mem_trimChars_colon, hasChar, Bool.eq_false_iff, ne_eq, List.contains_iff_mem]
  rw [hchar]
  simp only [parse] at h
  split at h
  · obtain ⟨a, ha, rfl⟩ := Option.map_eq_some_iff.mp h
    rw [← mem_trimChars_colon]
    exact IpAddr.parseChars_isIpv4 ha
  · next a p hsplit =>
    split at h
    · next addr n haddr hn =>
      split at h
      · cases h
        have hp : ':' ∉ p := fun hmem => parseU8_no_colon hn (mem_trimChars_colon.mpr hmem)
        rw [IpAddr.parseChars_isIpv4 haddr, mem_trimChars_colon, splitOnce_eq_some hsplit]
        simp [hp]
      · cases h
    · cases h

theorem contains_family {c : Cidr} {ip : IpAddr} (h : c.contains ip = true) :
    ip.isIpv4 = c.addr.isIpv4 := by
  obtain ⟨addr, _, _⟩ := c
  cases ip <;> cases addr <;> simp_all [contains, IpAddr.isIpv4]

end Cidr

end Vpnmgr
