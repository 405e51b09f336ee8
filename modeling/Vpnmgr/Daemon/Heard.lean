import Vpnmgr.Daemon.Requests
import Vpnmgr.Daemon.Frame
import Vpnmgr.Probe.Handshake

/-! What a ranking rests on: the servers of which one handshake was heard, down to the datagrams, by
sockets that go around the tunnel. -/

namespace Vpnmgr

open Stateful Stateful.Action

variable {P : Platform}

/-- The servers of a list that a sweep probes. -/
def State.sweptServers (s : State P) (country : Option String) (list : ServerList) : List Server :=
  ((s.sweepFilters country).apply list).accepted

/-- One of the handshakes that a sweep of the list makes with an entry of a server is heard. -/
def State.Hears (s : State P) (linux : Bool) (wires : Nat → SocketAddr → Nat → Wire)
    (country : Option String) (list : ServerList) (i : Nat) (server : Server)
    (x : Nat × SocketAddr) (rtt : Duration) : Prop :=
  (s.sweptServers country list)[i]? = some server ∧
    s.prober.HearsEntry linux wires (s.sweptServers country list) wgEntries
      s.config.provider.airvpn.port i server x rtt

theorem State.swept_hears {s : State P} {linux : Bool} {wires : Nat → SocketAddr → Nat → Wire}
    {country : Option String} {list : ServerList} {m : Measured}
    (hm : m ∈ s.swept (.ofWires linux wires) country list) {rtt : Duration}
    (hrtt : m.rtt = some rtt) :
    ∃ i, s.Hears linux wires country list i m.server (m.entry, m.endpoint) rtt := by
  obtain ⟨i, hi⟩ := List.getElem?_of_mem hm
  have hlt := (List.getElem?_eq_some_iff.mp hi).1
  rw [swept, Prober.sweep, List.length_mapIdx] at hlt
  have hserver := List.getElem?_eq_getElem hlt
  obtain ⟨m', hm', hsame, -, htime⟩ := sweep_hears s.prober linux wires _ wgEntries
    s.config.provider.airvpn.port hserver
  cases hi.symm.trans hm'
  exact ⟨i, hsame ▸ hserver, hsame ▸ htime rtt hrtt⟩

/-- Every server of a ranking was heard at the entry and with the time that it is ranked with, and
every server that was heard is ranked. While a tunnel is up nothing is sent to the endpoint in use, and
on Linux what is heard is heard on sockets with the mark that goes around the tunnel. -/
theorem sweep_ranks_heard {linux : Bool} {wires : Nat → SocketAddr → Nat → Wire} {w w' : World P}
    (hnet : w.outside.network 0 = .ofWires linux wires) {country : Option String}
    {ranking : List RankedServer} (h : sweep country w = (.ok ranking, w')) :
    ∃ list, (serverList w).1 = .ok list ∧
      (∀ r ∈ ranking, ∃ i server rtt, r.name = server.name ∧ r.rttMs = rtt.asSecsF64 * 1000 ∧
        w.state.Hears linux wires country list i server (r.entry, r.endpoint) rtt) ∧
      (∀ i server x rtt, w.state.Hears linux wires country list i server x rtt →
        ∃ r ∈ ranking, r.name = server.name) ∧
      ∀ c, w.state.current = some c →
        (∀ r ∈ ranking, r.endpoint ≠ c.endpoint) ∧ w.state.prober.fwmark = some defaultFwmark := by
  obtain ⟨list, v, t, hlist, rfl, -⟩ := sweep_ok h
  rw [hnet]
  have hranked : ∀ r ∈ w.state.ranks (.ofWires linux wires) country list t, ∃ i server rtt,
      r.name = server.name ∧ r.rttMs = rtt.asSecsF64 * 1000 ∧
        w.state.Hears linux wires country list i server (r.entry, r.endpoint) rtt := by
    intro r hr
    obtain ⟨scored, hscored, rfl⟩ := List.mem_map.mp hr
    obtain ⟨m, hm, rtt, hrtt, rfl⟩ := mem_rank hscored
    obtain ⟨i, hhears⟩ := State.swept_hears hm hrtt
    exact ⟨i, m.server, rtt, rfl, rfl, hhears⟩
  refine ⟨list, by rw [hlist], hranked, ?_, fun c hc => ?_⟩
  · rintro i server x rtt ⟨hserver, hheard⟩
    obtain ⟨m, hm, rfl, hsome, -⟩ := sweep_hears w.state.prober linux wires _ wgEntries
      w.state.config.provider.airvpn.port hserver
    obtain ⟨r, hr, hplace⟩ := State.place_ranks t (List.mem_of_getElem? hm)
      (hsome.mpr ⟨x, rtt, hheard⟩)
    exact ⟨r, hr, congrArg Prod.fst hplace⟩
  · have hprober : w.state.prober.excluded = some c.endpoint ∧
        w.state.prober.fwmark = some defaultFwmark := by
      rw [State.prober, hc]
      exact ⟨rfl, rfl⟩
    refine ⟨fun r hr hsame => ?_, hprober.2⟩
    obtain ⟨i, server, rtt, -, -, -, hheard⟩ := hranked r hr
    exact hheard.probed (hprober.1.trans (congrArg some hsame.symm))

namespace Sample

/-- Whatever is sent, one byte comes back after 20 ms, which says that it is a cookie reply. -/
def cookies : Nat → SocketAddr → Nat → Wire := fun _ _ _ =>
  { socket := {}
    initiation := .writeToNetwork
    send := none
    received := fun _ => some (.ok [3], .ofMillis 20)
    decapsulate := fun _ => .err "InvalidPacket" }

def wired : World (.linux log) := world config linuxMachine
  { outside config pairList pairReply linuxFaults with network := fun _ => .ofWires true cookies }

end Sample

theorem wired_heard : ∃ ranking list, (sweep none Sample.wired).1 = .ok ranking ∧
    ∀ r ∈ ranking, ∃ i server rtt, r.name = server.name ∧ r.rttMs = rtt.asSecsF64 * 1000 ∧
      Sample.wired.state.Hears true Sample.cookies none list i server (r.entry, r.endpoint) rtt := by
  have hok : (sweep none Sample.wired).1.isOk = true := by decide +kernel
  rcases hrun : sweep none Sample.wired with ⟨_ | ranking, w'⟩
  · rw [hrun] at hok
    cases hok
  · obtain ⟨list, -, hranked, -⟩ :=
      sweep_ranks_heard (show Sample.wired.outside.network 0 = .ofWires true Sample.cookies from rfl) hrun
    exact ⟨ranking, list, rfl, hranked⟩

end Vpnmgr
