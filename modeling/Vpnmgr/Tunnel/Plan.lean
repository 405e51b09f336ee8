import Mathlib.Data.String.Basic
import Vpnmgr.Library.Collapse
import Vpnmgr.Tunnel.Bypass

/-! What a plan is made of: its order, the gateways of its routes, which destinations it has, and
when it has each of them once. -/

namespace Vpnmgr

open Text Collapse

/-- What a request asks to be kept out of the tunnel, other VPNs apart: private ranges, configured
networks, and the addresses of configured hosts. -/
def BypassRequest.wanted (request : BypassRequest) (s : Surroundings) : List String :=
  (if request.lan then lanRanges request.tunnelAddresses else []) ++ request.cidrs ++
    request.hosts.flatMap fun host => (s.resolve host).map IpAddr.display

/-- The family of a destination has a gateway. -/
def Surroundings.Reaches (s : Surroundings) (destination : String) : Prop :=
  ∃ g ∈ s.defaultGateways, g.isV6 = hasChar destination ':'

/-- A machine where other VPNs serve these destinations, each by a device. -/
def Surroundings.serving (s : Surroundings) (others : List (String × String)) : Surroundings :=
  { s with otherVpnRoutes := fun _ => others.map fun o => ⟨o.1, .device o.2⟩ }

/-- What a plan is to be: in order, with no destination twice, each gateway of its destination's
family, and every wanted destination there that can be reached. -/
structure WellPlanned (request : BypassRequest) (s : Surroundings) (routes : List Route) : Prop where
  sorted : routes.Pairwise fun a b => a.destination ≤ b.destination
  once : (routes.map Route.destination).Nodup
  family : ∀ r ∈ routes, ∀ gateway device, r.via = .gateway gateway device →
    ⟨gateway, device, hasChar r.destination ':'⟩ ∈ s.defaultGateways
  represented : ∀ d ∈ request.wanted s, s.Reaches d → ∃ r ∈ routes, r.destination = d

theorem viaGateway_eq_some {gateways : List Gateway} {d : String} {r : Route}
    (h : viaGateway gateways d = some r) :
    r.destination = d ∧
      ∃ g ∈ gateways, g.isV6 = hasChar d ':' ∧ r.via = .gateway g.gateway g.device := by
  obtain ⟨g, hg, rfl⟩ := Option.map_eq_some_iff.mp h
  exact ⟨rfl, g, List.mem_of_find?_eq_some hg, by simpa using List.find?_some hg, rfl⟩

theorem viaGateway_isSome {s : Surroundings} {d : String} :
    (∃ r, viaGateway s.defaultGateways d = some r) ↔ s.Reaches d := by
  simp [viaGateway, Surroundings.Reaches, ← Option.isSome_iff_exists]

namespace Bypass

variable {request : BypassRequest} {s : Surroundings}

theorem plan_eq (request : BypassRequest) (s : Surroundings) : plan request s =
    collapse Route.destination ((if request.otherVpns then s.otherVpnRoutes request.ourInterface
      else []) ++ (request.wanted s).filterMap (viaGateway s.defaultGateways)) := rfl

/-- The routes of a plan: those of other VPNs, and one through a gateway to each wanted destination
that has one. -/
theorem mem_plan {r : Route} : r ∈ plan request s ↔
    (request.otherVpns = true ∧ r ∈ s.otherVpnRoutes request.ourInterface) ∨
      ∃ d ∈ request.wanted s, viaGateway s.defaultGateways d = some r := by
  rw [plan_eq, mem_collapse, List.mem_append, List.mem_filterMap]
  refine or_congr_left ?_
  cases request.otherVpns <;> simp

theorem plan_sorted (request : BypassRequest) (s : Surroundings) :
    (plan request s).Pairwise fun a b => a.destination ≤ b.destination :=
  collapse_sorted _ _

theorem plan_represents {d : String} (hd : d ∈ request.wanted s) (hreach : s.Reaches d) :
    ∃ r ∈ plan request s, r.destination = d := by
  obtain ⟨r, hr⟩ := viaGateway_isSome.mpr hreach
  exact ⟨r, mem_plan.mpr (.inr ⟨d, hd, hr⟩), (viaGateway_eq_some hr).1⟩

/-- Each destination is planned once exactly if the routes to it are equal. -/
theorem plan_nodup_iff (request : BypassRequest) (s : Surroundings) :
    ((plan request s).map Route.destination).Nodup ↔
      ∀ a ∈ plan request s, ∀ b ∈ plan request s, a.destination = b.destination → a = b := by
  rw [plan_eq, collapse_nodup_iff]
  simp only [mem_collapse]

variable {others : List (String × String)}

theorem plan_family {r : Route} (hr : r ∈ plan request (s.serving others)) {gateway device : String}
    (hvia : r.via = .gateway gateway device) :
    ⟨gateway, device, hasChar r.destination ':'⟩ ∈ s.defaultGateways := by
  rcases mem_plan.mp hr with ⟨_, hother⟩ | ⟨d, _, hd⟩
  · obtain ⟨o, _, rfl⟩ := List.mem_map.mp hother
    cases hvia
  · obtain ⟨hdest, g, hg, hfamily, hgateway⟩ := viaGateway_eq_some hd
    rw [hgateway] at hvia
    cases hvia
    rw [hdest, ← hfamily]
    exact hg

/-- A plan is as it should be exactly if no two devices serve one destination, and no destination
served by a device is also wanted through a gateway. -/
theorem plan_wellPlanned_iff (request : BypassRequest) (s : Surroundings)
    (others : List (String × String)) :
    WellPlanned request (s.serving others) (plan request (s.serving others)) ↔
      (request.otherVpns = true → (∀ o ∈ others, ∀ o' ∈ others, o.1 = o'.1 → o.2 = o'.2) ∧
        ∀ o ∈ others, o.1 ∈ request.wanted s → ¬s.Reaches o.1) := by
  have hother (ho : request.otherVpns = true) {o : String × String} (hmem : o ∈ others) :
      ⟨o.1, .device o.2⟩ ∈ plan request (s.serving others) :=
    mem_plan.mpr (.inl ⟨ho, List.mem_map.mpr ⟨o, hmem, rfl⟩⟩)
  constructor
  · intro h ho
    have hsame := (plan_nodup_iff _ _).mp h.once
    constructor
    · intro o hmem o' hmem' heq
      have hroute := hsame _ (hother ho hmem) _ (hother ho hmem') heq
      exact Via.device.inj (congrArg Route.via hroute)
    · intro o hmem hwanted hreach
      obtain ⟨r, hr⟩ := viaGateway_isSome.mpr hreach
      obtain ⟨hdest, g, _, _, hvia⟩ := viaGateway_eq_some hr
      have hroute := hsame _ (hother ho hmem) r (mem_plan.mpr (.inr ⟨o.1, hwanted, hr⟩)) hdest.symm
      rw [← hroute] at hvia
      cases hvia
  · intro h
    refine ⟨plan_sorted _ _, (plan_nodup_iff _ _).mpr ?_, fun r hr gateway device hvia =>
      plan_family hr hvia, fun d hd hreach => plan_represents hd hreach⟩
    intro a ha b hb heq
    rcases mem_plan.mp ha with ⟨ho, hathere⟩ | ⟨d, hd, hagateway⟩
    · obtain ⟨o, hmem, rfl⟩ := List.mem_map.mp hathere
      rcases mem_plan.mp hb with ⟨_, hbthere⟩ | ⟨d, hd, hbgateway⟩
      · obtain ⟨o', hmem', rfl⟩ := List.mem_map.mp hbthere
        rw [Route.mk.injEq]
        exact ⟨heq, congrArg Via.device ((h ho).1 o hmem o' hmem' heq)⟩
      · have hdest : o.1 = d := heq.trans (viaGateway_eq_some hbgateway).1
        subst hdest
        exact absurd (viaGateway_isSome.mp ⟨b, hbgateway⟩) ((h ho).2 o hmem hd)
    · rcases mem_plan.mp hb with ⟨ho, hbthere⟩ | ⟨d', hd', hbgateway⟩
      · obtain ⟨o, hmem, rfl⟩ := List.mem_map.mp hbthere
        have hdest : o.1 = d := heq.symm.trans (viaGateway_eq_some hagateway).1
        subst hdest
        exact absurd (viaGateway_isSome.mp ⟨a, hagateway⟩) ((h ho).2 o hmem hd)
      · have hdest : d = d' :=
          (viaGateway_eq_some hagateway).1.symm.trans (heq.trans (viaGateway_eq_some hbgateway).1)
        rw [hdest, hbgateway] at hagateway
        exact (Option.some.inj hagateway).symm

end Bypass

/-- A machine with one gateway, and a request for one network beside what other VPNs serve. -/
def Sample.gatewayed : Surroundings where
  defaultGateways := [⟨"192.0.2.1", "eth0", false⟩]
  otherVpnRoutes := fun _ => []
  resolve := fun _ => []

def Sample.asking (cidrs : List String) : BypassRequest where
  cidrs := cidrs
  hosts := []
  otherVpns := true
  lan := false
  tunnelAddresses := []
  ourInterface := "vpnmgr0"

/-- A network that another VPN serves and that is configured too is planned twice. -/
theorem served_and_configured_twice :
    ¬∀ (request : BypassRequest) (s : Surroundings) (others : List (String × String)),
      WellPlanned request (s.serving others) (Bypass.plan request (s.serving others)) := by
  intro hall
  have hplanned := hall (Sample.asking ["100.64.0.0/10"]) Sample.gatewayed
    [("100.64.0.0/10", "tailscale0")]
  have hapart := ((Bypass.plan_wellPlanned_iff _ _ _).mp hplanned rfl).2 _ List.mem_cons_self
    (by decide)
  exact hapart ⟨_, List.mem_cons_self, by decide⟩

end Vpnmgr
