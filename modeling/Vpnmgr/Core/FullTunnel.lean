import Vpnmgr.Core.Extent
import Vpnmgr.Core.WgConf

/-! When a configuration that passes for a full tunnel is one. The test finds one default route, and
that is of one family. -/

namespace Vpnmgr

open Blocks

namespace ClientConfig

def isFullTunnel (client : ClientConfig) : Bool := client.allowedIps.any Cidr.isDefaultRoute

/-- Whether a default route of the family is among the allowed networks. -/
def HasDefault (client : ClientConfig) (isIpv4 : Bool) : Prop :=
  ∃ c ∈ client.allowedIps, c.isDefaultRoute = true ∧ c.addr.isIpv4 = isIpv4

/-- A default route of one family comes with prefixes of the other that have, the outermost of them
together, as many addresses as there are. -/
structure BothFamilies (client : ClientConfig) : Prop where
  v4 : client.HasDefault false → 2 ^ 32 ≤ extent (client.allowedIps.filterMap Cidr.blockV4)
  v6 : client.HasDefault true → 2 ^ 128 ≤ extent (client.allowedIps.filterMap Cidr.blockV6)

variable {client : ClientConfig}

theorem isFullTunnel_iff : client.isFullTunnel = true ↔ ∃ family, client.HasDefault family := by
  rw [isFullTunnel, List.any_eq_true]
  constructor
  · rintro ⟨c, hc, hdefault⟩
    exact ⟨c.addr.isIpv4, c, hc, hdefault, rfl⟩
  · rintro ⟨_, c, hc, hdefault, _⟩
    exact ⟨c, hc, hdefault⟩

/-- A default route carries its family. -/
theorem HasDefault.carries {ip : IpAddr} (h : client.HasDefault ip.isIpv4) : client.Carries ip := by
  obtain ⟨c, hc, hdefault, hfamily⟩ := h
  exact ⟨c, hc, Cidr.contains_default hdefault hfamily⟩

/-- What passes for a full tunnel carries every address exactly if the prefixes of the other family
add up to all of it wherever there is a default route of one. -/
theorem fullTunnel_carries_iff (client : ClientConfig) :
    (client.isFullTunnel = true → ∀ ip, client.Carries ip) ↔ client.BothFamilies := by
  constructor
  · intro h
    have hall (family : Bool) (hdefault : client.HasDefault family) : ∀ ip, client.Carries ip :=
      h (isFullTunnel_iff.mpr ⟨family, hdefault⟩)
    exact ⟨fun hv6 => (Cidr.covered_iff Cidr.contains_v4 _).mp fun a => hall false hv6 (.v4 a),
      fun hv4 => (Cidr.covered_iff Cidr.contains_v6 _).mp fun a => hall true hv4 (.v6 a)⟩
  · intro h hfull ip
    obtain ⟨family, hdefault⟩ := isFullTunnel_iff.mp hfull
    by_cases hfamily : ip.isIpv4 = family
    · subst hfamily
      exact hdefault.carries
    · -- the address is of the family that the default route found is not of
      cases ip with
      | v4 a =>
        obtain rfl : family = false := by simpa [IpAddr.isIpv4] using hfamily
        exact (Cidr.covered_iff Cidr.contains_v4 _).mpr (h.v4 hdefault) a
      | v6 a =>
        obtain rfl : family = true := by simpa [IpAddr.isIpv4] using hfamily
        exact (Cidr.covered_iff Cidr.contains_v6 _).mpr (h.v6 hdefault) a

end ClientConfig

/-- A `.conf` that sends all of IPv4 through the tunnel, and nothing else. -/
def Sample.v4Only : String :=
  "[Interface]\nPrivateKey = AAAAAAAAAAAAAAAAAAAAAAAAAAAAAAAAAAAAAAAAAAA=\n" ++
    "Address = 10.0.0.2/32\n[Peer]\nPublicKey = AAAAAAAAAAAAAAAAAAAAAAAAAAAAAAAAAAAAAAAAAAA=\nAllowedIPs = 0.0.0.0/0\n"

/-- It passes for a full tunnel, and carries no IPv6 address. -/
theorem v4_default_passes : ¬∀ (text : String) (client : ClientConfig),
    ClientConfig.parse text = .ok client → client.isFullTunnel = true →
      ∀ ip, client.Carries ip := by
  intro hall
  obtain ⟨client, hclient, hnetworks⟩ : ∃ client, ClientConfig.parse Sample.v4Only = .ok client ∧
      client.allowedIps = [⟨.v4 0, 0, Nat.zero_le _⟩] := by
    have hparsed : (ClientConfig.parse Sample.v4Only).toOption.map ClientConfig.allowedIps =
        some [⟨.v4 0, 0, Nat.zero_le _⟩] := by decide +kernel
    cases hrun : ClientConfig.parse Sample.v4Only with
    | error e =>
      rw [hrun] at hparsed
      cases hparsed
    | ok client =>
      rw [hrun] at hparsed
      exact ⟨client, rfl, Option.some.inj hparsed⟩
  have hfull : client.isFullTunnel = true := by
    rw [ClientConfig.isFullTunnel, hnetworks]
    rfl
  obtain ⟨c, hc, hcontains⟩ := hall _ client hclient hfull (.v6 0)
  rw [hnetworks, List.mem_singleton] at hc
  subst hc
  cases hcontains

end Vpnmgr
