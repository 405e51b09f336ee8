import Vpnmgr.Core.Extent
import Vpnmgr.Tunnel.Lan
import Vpnmgr.Tunnel.Windows

/-! What expressing default routes as halves makes of a client's configuration. A zero-length prefix
whose address is not the zero address is left as it is. -/

namespace Vpnmgr

open Prefix

/-- `is_unspecified`. -/
def IpAddr.isUnspecified (ip : IpAddr) : Bool := ip == v4 0 || ip == v6 0

namespace Windows

/-- What the configuration written for a tunnel with a bypass is to be: it carries what the client
carries, has no default route, and is the client's in all else. -/
structure Reshaped (client written : ClientConfig) : Prop where
  carries : ∀ ip, written.Carries ip ↔ client.Carries ip
  noDefault : ∀ c ∈ written.allowedIps, c.isDefaultRoute = false
  rest : { written with allowedIps := client.allowedIps } = client

theorem one_le_width (addr : IpAddr) : 1 ≤ addr.width := by
  cases addr <;> simp [IpAddr.width]

/-- The half of the address space that an address is in. -/
def half (addr : IpAddr) : Cidr := ⟨addr, 1, one_le_width addr⟩

@[simp] theorem half_addr (addr : IpAddr) : (half addr).addr = addr := rfl

@[simp] theorem half_prefixLen (addr : IpAddr) : (half addr).prefixLen = 1 := rfl

/-- What one allowed network becomes. -/
def halves (c : Cidr) : List Cidr :=
  match c.addr, c.prefixLen with
  | .v4 0, 0 => [half (.v4 0), half (.v4 (BitVec.twoPow 32 31))]
  | .v6 0, 0 => [half (.v6 0), half (.v6 (BitVec.twoPow 128 127))]
  | _, _ => [c]

theorem mem_splitDefaultRoutes {client : ClientConfig} {d : Cidr} :
    d ∈ (splitDefaultRoutes client).allowedIps ↔ ∃ c ∈ client.allowedIps, d ∈ halves c :=
  List.mem_flatMap

/-- A default route written with the zero address becomes two networks of half the space, which
together carry what it does. Any other network is kept. -/
theorem halves_cases (c : Cidr) :
    (c.prefixLen = 0 ∧ c.addr.isUnspecified = true ∧ (∀ d ∈ halves c, d.prefixLen = 1) ∧
      ∀ ip, (∃ d ∈ halves c, d.contains ip = true) ↔ c.contains ip = true) ∨
    (¬(c.prefixLen = 0 ∧ c.addr.isUnspecified = true) ∧ halves c = [c]) := by
  obtain ⟨addr, n, fits⟩ := c
  unfold halves
  dsimp only
  split
  · refine .inl ⟨rfl, rfl, by simp, fun ip => ?_⟩
    cases ip with
    | v4 a =>
      have hhalf := agree_one_or (a := 0) (b := BitVec.twoPow 32 31) (by decide) a
      simpa [Cidr.contains_iff, IpAddr.Agree, agree_zero] using hhalf
    | v6 a => simp [Cidr.contains_iff, IpAddr.Agree]
  · refine .inl ⟨rfl, rfl, by simp, fun ip => ?_⟩
    cases ip with
    | v4 a => simp [Cidr.contains_iff, IpAddr.Agree]
    | v6 a =>
      have hhalf := agree_one_or (a := 0) (b := BitVec.twoPow 128 127) (by decide) a
      simpa [Cidr.contains_iff, IpAddr.Agree, agree_zero] using hhalf
  · next hv4 hv6 =>
    refine .inr ⟨?_, rfl⟩
    rintro ⟨hzero, hunspecified⟩
    simp only [IpAddr.isUnspecified, Bool.or_eq_true, beq_iff_eq] at hunspecified
    rcases hunspecified with h | h
    · exact hv4 h hzero
    · exact hv6 h hzero

theorem halves_contains (c : Cidr) (ip : IpAddr) :
    (∃ d ∈ halves c, d.contains ip = true) ↔ c.contains ip = true := by
  rcases halves_cases c with ⟨_, _, _, h⟩ | ⟨_, h⟩
  · exact h ip
  · simp [h]

/-- Splitting changes neither what the client carries nor anything else of it. -/
theorem splitDefaultRoutes_carries (client : ClientConfig) (ip : IpAddr) :
    (splitDefaultRoutes client).Carries ip ↔ client.Carries ip := by
  simp only [ClientConfig.Carries, mem_splitDefaultRoutes]
  constructor
  · rintro ⟨d, ⟨c, hc, hd⟩, hip⟩
    exact ⟨c, hc, (halves_contains c ip).mp ⟨d, hd, hip⟩⟩
  · rintro ⟨c, hc, hip⟩
    obtain ⟨d, hd, hdip⟩ := (halves_contains c ip).mpr hip
    exact ⟨d, ⟨c, hc, hd⟩, hdip⟩

theorem splitDefaultRoutes_rest (client : ClientConfig) :
    { splitDefaultRoutes client with allowedIps := client.allowedIps } = client := rfl

/-- Every network of zero length is gone exactly if each was written with the zero address. -/
theorem reshaped_iff (client : ClientConfig) :
    Reshaped client (splitDefaultRoutes client) ↔
      ∀ c ∈ client.allowedIps, c.prefixLen = 0 → c.addr.isUnspecified = true := by
  constructor
  · intro h c hc hzero
    by_contra hspecified
    rcases halves_cases c with ⟨_, hunspecified, _⟩ | ⟨_, hkept⟩
    · exact hspecified hunspecified
    · have hmem : c ∈ (splitDefaultRoutes client).allowedIps :=
        mem_splitDefaultRoutes.mpr ⟨c, hc, by simp [hkept]⟩
      have hdefault := h.noDefault c hmem
      rw [Cidr.isDefaultRoute, hzero] at hdefault
      cases hdefault
  · intro h
    refine ⟨splitDefaultRoutes_carries client, fun d hd => ?_, splitDefaultRoutes_rest client⟩
    obtain ⟨c, hc, hdc⟩ := mem_splitDefaultRoutes.mp hd
    rw [Cidr.isDefaultRoute, beq_eq_false_iff_ne]
    rcases halves_cases c with ⟨_, _, hone, _⟩ | ⟨hother, hkept⟩
    · rw [hone d hdc]
      decide
    · rw [hkept, List.mem_singleton] at hdc
      subst hdc
      exact fun hzero => hother ⟨hzero, h d hc hzero⟩

/-- A client that may send everywhere, the network written as a text. -/
def Sample.roaming (allowed : String) : ClientConfig :=
  { Sample.client Sample.config with allowedIps := (Cidr.parse allowed).toList }

/-- The parser takes 10.0.0.1/0, and splitting leaves it a default route. -/
theorem host_bits_stay_default :
    ¬∀ client : ClientConfig, (∀ c ∈ client.allowedIps, ∃ text, Cidr.parse text = some c) →
      Reshaped client (splitDefaultRoutes client) := by
  intro hall
  have hparse : Cidr.parse "10.0.0.1/0" = some ⟨.v4 0x0a000001, 0, by decide⟩ := by decide
  have hallowed : (Sample.roaming "10.0.0.1/0").allowedIps = [⟨.v4 0x0a000001, 0, by decide⟩] := by
    rw [Sample.roaming, hparse]
    rfl
  have hreshaped := hall (Sample.roaming "10.0.0.1/0") fun c hc => by
    rw [hallowed, List.mem_singleton] at hc
    exact ⟨_, hc ▸ hparse⟩
  have hzero := (reshaped_iff _).mp hreshaped ⟨.v4 0x0a000001, 0, by decide⟩
    (by rw [hallowed]; exact List.mem_singleton_self _) rfl
  exact absurd hzero (by decide)

end Windows

end Vpnmgr
