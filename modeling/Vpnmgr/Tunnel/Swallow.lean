import Vpnmgr.Core.Extent
import Vpnmgr.Tunnel.Exemptions
import Vpnmgr.Tunnel.KillswitchWindows
import Vpnmgr.Tunnel.Mirror

/-! When mirrored routes swallow the tunnel: destinations that cover an address space between them, in
the main table or together with what the kill switch lets out anyway. Which do is told by counting the
addresses of the outermost prefixes. -/

namespace Vpnmgr

open Text Blocks

/-- The blocks of the IPv4 prefixes among texts. -/
def blocksV4 (texts : List String) : List (Block 32) :=
  texts.filterMap fun d => (Cidr.parse d).bind Cidr.blockV4

def blocksV6 (texts : List String) : List (Block 128) :=
  texts.filterMap fun d => (Cidr.parse d).bind Cidr.blockV6

/-- The prefixes among texts cover what the texts cover. -/
theorem uncovered_texts {ip : IpAddr} {texts : List String} :
    (∀ d ∈ texts, covers d ip = false) ↔ ∀ c ∈ texts.filterMap Cidr.parse, c.contains ip = false := by
  constructor
  · intro hout c hc
    obtain ⟨d, hd, hparse⟩ := List.mem_filterMap.mp hc
    rw [← Bool.not_eq_true]
    intro hin
    have hcovered := covers_eq_true.mpr ⟨c, hparse, hin⟩
    rw [hout d hd] at hcovered
    cases hcovered
  · intro hout d hd
    rw [← Bool.not_eq_true, covers_eq_true]
    rintro ⟨c, hparse, hin⟩
    rw [hout c (List.mem_filterMap.mpr ⟨d, hd, hparse⟩)] at hin
    cases hin

/-- Texts leave an IPv4 address uncovered exactly if their outermost prefixes have fewer addresses
than there are. -/
theorem uncovered_v4 (texts : List String) : (∃ a, ∀ d ∈ texts, covers d (.v4 a) = false) ↔
    extent (blocksV4 texts) < 2 ^ 32 := by
  simp only [uncovered_texts, Cidr.uncovered_iff Cidr.contains_v4, List.filterMap_filterMap]
  rfl

theorem uncovered_v6 (texts : List String) : (∃ a, ∀ d ∈ texts, covers d (.v6 a) = false) ↔
    extent (blocksV6 texts) < 2 ^ 128 := by
  simp only [uncovered_texts, Cidr.uncovered_iff Cidr.contains_v6, List.filterMap_filterMap]
  rfl

/-! ### What mirroring is to spare -/

/-- Mirrored routes spare an address of each family in the main table, and one in the firewall however
the installation of the routes fares. -/
structure SparesAddresses (routes : List Route) (admits : List String → IpAddr → Bool) : Prop where
  mainV4 : ∃ a, ∀ r ∈ routes, covers r.destination (.v4 a) = false
  mainV6 : ∃ a, ∀ r ∈ routes, covers r.destination (.v6 a) = false
  firewallV4 : ∀ f table, ∃ a,
    admits (Bypass.new.install f routes table).1.destinations (.v4 a) = false
  firewallV6 : ∀ f table, ∃ a,
    admits (Bypass.new.install f routes table).1.destinations (.v6 a) = false

/-- The ranges that a kill switch lets out without a bypass. -/
def standingRanges (allowLan : Bool) : List String :=
  linkV4 ++ linkV6 ++ if allowLan then lanV4 ++ lanV6 else []

/-- The destinations of the lines of a dump that are mirrored. -/
def mirroredTexts (mirrored : List Char → Option Route) (lines : List (List Char)) : List String :=
  (lines.filterMap mirrored).map Route.destination

/-- In each family, the outermost of the prefixes that the lines of a dump have mirrored and of those
that the kill switch lets out anyway have fewer addresses than there are. -/
def HasRoom (mirrored : List Char → Option Route) (allowLan : Bool) (lines : List (List Char)) :
    Prop :=
  extent (blocksV4 (standingRanges allowLan ++ mirroredTexts mirrored lines)) < 2 ^ 32 ∧
    extent (blocksV6 (standingRanges allowLan ++ mirroredTexts mirrored lines)) < 2 ^ 128

instance (mirrored : List Char → Option Route) (allowLan : Bool) (lines : List (List Char)) :
    Decidable (HasRoom mirrored allowLan lines) := inferInstanceAs (Decidable (_ ∧ _))

theorem mem_mirroredTexts {mirrored : List Char → Option Route} {lines : List (List Char)}
    {d : String} : d ∈ mirroredTexts mirrored lines ↔
    ∃ r ∈ mirrorLines mirrored lines, r.destination = d := by
  obtain ⟨_, hgiven, hall⟩ := mirrorLines_spec mirrored lines
  constructor
  · intro hd
    obtain ⟨r, hr, rfl⟩ := List.mem_map.mp hd
    obtain ⟨line, hline, hr⟩ := List.mem_filterMap.mp hr
    exact hall line hline r hr
  · rintro ⟨r, hr, rfl⟩
    obtain ⟨line, hline, hr⟩ := hgiven r hr
    exact List.mem_map.mpr ⟨r, List.mem_filterMap.mpr ⟨line, hline, hr⟩, rfl⟩

/-- Of one family: what is spared, in the main table and in the firewall, is told by the texts. -/
theorem spared_iff (mirrored : List Char → Option Route) (lines : List (List Char)) {allowLan : Bool}
    {admits : List String → IpAddr → Bool}
    (hadmits : ∀ ds ip, admits ds ip = (standingRanges allowLan ++ ds).any (covers · ip))
    {w : Nat} (addr : BitVec w → IpAddr) :
    ((∃ a, ∀ r ∈ mirrorLines mirrored lines, covers r.destination (addr a) = false) ∧
      ∀ f table, ∃ a, admits (Bypass.new.install f (mirrorLines mirrored lines) table).1.destinations
        (addr a) = false) ↔
      ∃ a, ∀ d ∈ standingRanges allowLan ++ mirroredTexts mirrored lines,
        covers d (addr a) = false := by
  have hinstalled : ∀ (b : Bypass) ip, b.destinations.any (covers · ip) = true ↔ b.Covers ip := by
    intro b ip
    simp [Bypass.destinations, Bypass.Covers]
  have hnew : ∀ ip, ¬Bypass.new.Covers ip := by
    rintro ip ⟨r, hr, _⟩
    cases hr
  constructor
  · rintro ⟨_, hfirewall⟩
    -- Where every command succeeds and the table was empty, all of the routes are exempt.
    obtain ⟨a, ha⟩ := hfirewall ⟨fun _ => true, fun _ => true⟩ []
    rw [hadmits, List.any_append, Bool.or_eq_false_iff] at ha
    refine ⟨a, fun d hd => ?_⟩
    rcases List.mem_append.mp hd with hd | hd
    · exact Bool.eq_false_iff.mpr (List.any_eq_false.mp ha.1 d hd)
    · obtain ⟨r, hr, rfl⟩ := mem_mirroredTexts.mp hd
      rw [← Bool.not_eq_true]
      intro hcovers
      have hadds : Bypass.Adds ⟨fun _ => true, fun _ => true⟩ [] r := by
        obtain ⟨c, hparse, _⟩ := covers_eq_true.mp hcovers
        exact ⟨by rw [hparse]; rfl, rfl, by simp [Bypass.routeExists, RouteTable.has, hparse]⟩
      have hexempt := (Bypass.install_covers Bypass.new _ _ [] _).mpr (.inr ⟨r, hr, hadds, hcovers⟩)
      rw [← hinstalled, ha.2] at hexempt
      cases hexempt
  · rintro ⟨a, hout⟩
    have hroutes : ∀ r ∈ mirrorLines mirrored lines, covers r.destination (addr a) = false :=
      fun r hr => hout _ (List.mem_append_right _ (mem_mirroredTexts.mpr ⟨r, hr, rfl⟩))
    refine ⟨⟨a, hroutes⟩, fun f table => ⟨a, ?_⟩⟩
    rw [hadmits, List.any_append, Bool.or_eq_false_iff]
    constructor
    · exact List.any_eq_false.mpr fun d hd =>
        Bool.eq_false_iff.mp (hout d (List.mem_append_left _ hd))
    · rw [← Bool.not_eq_true, hinstalled, Bypass.install_covers]
      rintro (h | ⟨r, hr, _, hcovers⟩)
      · exact hnew _ h
      · rw [hroutes r hr] at hcovers
        cases hcovers

/-- Mirrored routes spare what they are to spare exactly if there is room. -/
theorem sparesAddresses_iff (mirrored : List Char → Option Route) (lines : List (List Char))
    {allowLan : Bool}
    {admits : List String → IpAddr → Bool}
    (hadmits : ∀ ds ip, admits ds ip = (standingRanges allowLan ++ ds).any (covers · ip)) :
    SparesAddresses (mirrorLines mirrored lines) admits ↔ HasRoom mirrored allowLan lines := by
  have hv4 := spared_iff mirrored lines hadmits IpAddr.v4
  have hv6 := spared_iff mirrored lines hadmits IpAddr.v6
  rw [uncovered_v4] at hv4
  rw [uncovered_v6] at hv6
  unfold HasRoom
  rw [← hv4, ← hv6]
  constructor
  · exact fun h => ⟨⟨h.mainV4, h.firewallV4⟩, ⟨h.mainV6, h.firewallV6⟩⟩
  · exact fun h => ⟨h.1.1, h.2.1, h.1.2, h.2.2⟩

/-- On both backends, whatever the dump: the routes that are mirrored leave the tunnel and the kill
switch something exactly if the outermost prefixes of the dump leave room. -/
theorem mirroring_spares_iff (ourInterface : String) :
    (∀ (k : Killswitch) (outputs : List (Option String)),
      SparesAddresses (Linux.otherVpnRoutes ourInterface outputs) (fun ds => (k.allowing ds).admits) ↔
        HasRoom (Linux.mirrored ourInterface) k.allowLan
          (outputs.flatMap fun output => output.elim [] fun text => linesOf text.toList)) ∧
    ∀ (k : Windows.Killswitch) (output : Option String),
      SparesAddresses (Windows.otherVpnRoutes ourInterface output)
          (fun ds => (k.allowing ds).admits) ↔
        HasRoom (Windows.mirrored ourInterface) k.allowLan
          (output.elim [] fun text => linesOf text.toList) :=
  ⟨fun _ _ => sparesAddresses_iff _ _ fun _ _ => rfl,
    fun _ _ => sparesAddresses_iff _ _ fun _ _ => rfl⟩

/-- The two halves of the address space that OpenVPN routes instead of a default. -/
def Sample.halves : List (Option String) :=
  [some "0.0.0.0/1 via 10.8.0.1 dev tun0\n128.0.0.0/1 via 10.8.0.1 dev tun0\n", none]

/-- The two halves are mirrored, and cover all of IPv4. -/
theorem halves_swallow : ¬∀ (ourInterface : String) (k : Killswitch) (outputs : List (Option String)),
    SparesAddresses (Linux.otherVpnRoutes ourInterface outputs)
      (fun ds => (k.allowing ds).admits) := by
  intro hall
  have hroom := ((mirroring_spares_iff defaultInterface).1 (.new defaultInterface defaultFwmark true)
    Sample.halves).mp (hall _ _ _)
  exact absurd hroom (by decide +kernel)

end Vpnmgr
