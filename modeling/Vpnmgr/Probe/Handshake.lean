import Vpnmgr.Probe.Concurrent
import Vpnmgr.Probe.Verdict

/-! One handshake down to the datagrams: what a probe takes for an answer, and with it which servers a
sweep gives a time, and what time. -/

namespace Vpnmgr

open Median

/-- What boringtun makes of a message. -/
inductive TunnResult where
  | done
  | err (reason : String)
  | writeToNetwork
  | writeToTunnelV4
  | writeToTunnelV6
  deriving DecidableEq

def TunnResult.describe : TunnResult → String
  | done => "done"
  | err _ => "error"
  | writeToNetwork => "write-to-network"
  | writeToTunnelV4 => "write-to-tunnel-v4"
  | writeToTunnelV6 => "write-to-tunnel-v6"

def msgHandshakeResponse : UInt8 := 2

/-- Sent by a server under load. -/
def msgCookieReply : UInt8 := 3

/-- A socket of the family of the peer, and the mark that steers what it sends around the tunnel. -/
structure ProbeSocket where
  ipv4 : Bool
  mark : Option Nat
  deriving DecidableEq

/-- How the calls that make a socket fare. -/
structure SocketFaults where
  create : Option String := none
  setMark : Option String := none
  bind : Option String := none

def failing : Option String → Except String Unit
  | some e => .error e
  | none => .ok ()

/-- `bind_for` and `bind_marked`. Only Linux has marks, and there a mark that cannot be set is an error,
so that no probe goes through the tunnel unnoticed. -/
def bindFor (linux : Bool) (f : SocketFaults) (peer : SocketAddr) (fwmark : Option Nat) :
    Except String ProbeSocket := do
  failing f.create
  if linux then
    if let some mark := fwmark then
      failing (f.setMark.map fun e =>
        s!"setting fwmark {mark} on the probe socket failed (needs CAP_NET_ADMIN): " ++ e)
  failing f.bind
  return { ipv4 := peer.ip.isIpv4, mark := if linux then fwmark else none }

/-- What one handshake meets: the calls of the system, what boringtun makes of its own initiation and of
what is received, and by the socket the first datagram that comes to it before the time is over, from
whomever, with the time that the prober takes for it. -/
structure Wire where
  socket : SocketFaults
  initiation : TunnResult
  send : Option String
  received : ProbeSocket → Option (Except String (List UInt8) × Duration)
  decapsulate : List UInt8 → TunnResult

/-- The buffer that a datagram is read to. What does not fit is cut off. -/
def bufferSize : Nat := 1500

/-- The verdict on a datagram that came in time. -/
def Wire.judge (wire : Wire) (rtt : Duration) : List UInt8 → Handshake
  | [] => .error (.failed "empty datagram")
  | kind :: rest =>
    if kind = msgCookieReply then .ok (rtt, .rateLimited)
    else if kind = msgHandshakeResponse then
      match wire.decapsulate (kind :: rest) with
      | .writeToNetwork | .done => .ok (rtt, .reachable)
      | .err e => .error (.rejected e)
      | other => .error (.failed ("unexpected handshake result: " ++ other.describe))
    else .error (.failed s!"unexpected WireGuard message type {kind.toNat}")

/-- One handshake: the time to the response and its verdict, or why there is no time. -/
def Prober.oneHandshake (p : Prober) (linux : Bool) (wire : Wire) (endpoint : SocketAddr) :
    Handshake := do
  let socket ← (bindFor linux wire.socket endpoint p.fwmark).mapError Outcome.failed
  match wire.initiation with
  | .writeToNetwork => pure ()
  | .err e => throw (.rejected e)
  | other => throw (.failed ("expected a handshake initiation, got " ++ other.describe))
  (failing wire.send).mapError Outcome.failed
  match wire.received socket with
  | none => throw .unreachable
  | some (.error e, _) => throw (.failed e)
  | some (.ok datagram, rtt) => wire.judge rtt (datagram.take bufferSize)

/-- The network as it answers the handshakes of a sweep, wire by wire. -/
def Network.ofWires (linux : Bool) (wires : Nat → SocketAddr → Nat → Wire) : Network :=
  fun p i endpoint k => p.oneHandshake linux (wires i endpoint k) endpoint

/-! ### What counts as an answer -/

/-- A datagram that says by its first byte that it is a cookie reply counts, whoever sent it, and one
that completes the handshake. -/
inductive Wire.Takes (wire : Wire) : List UInt8 → Outcome → Prop where
  | cookie (rest : List UInt8) : wire.Takes (msgCookieReply :: rest) .rateLimited
  | response (rest : List UInt8) (h : wire.decapsulate (msgHandshakeResponse :: rest) = .done ∨
      wire.decapsulate (msgHandshakeResponse :: rest) = .writeToNetwork) :
    wire.Takes (msgHandshakeResponse :: rest) .reachable

/-- A socket can be had, and with the mark that was asked for, where the system has marks. -/
structure SocketFaults.Spares (f : SocketFaults) (linux : Bool) (fwmark : Option Nat) : Prop where
  create : f.create = none
  setMark : linux = true → fwmark.isSome = true → f.setMark = none
  bind : f.bind = none

/-- The handshake goes out, and the first datagram that comes to its socket in time is an answer. -/
structure Prober.Hears (p : Prober) (linux : Bool) (wire : Wire) (endpoint : SocketAddr)
    (rtt : Duration) (o : Outcome) : Prop where
  socket : wire.socket.Spares linux p.fwmark
  initiation : wire.initiation = .writeToNetwork
  send : wire.send = none
  answer : ∃ datagram, wire.received ⟨endpoint.ip.isIpv4, if linux then p.fwmark else none⟩ =
    some (.ok datagram, rtt) ∧ wire.Takes (datagram.take bufferSize) o

theorem failing_ok_iff {f : Option String} : failing f = .ok () ↔ f = none := by
  cases f <;> simp [failing]

theorem bindFor_ok_iff {linux : Bool} {f : SocketFaults} {peer : SocketAddr} {fwmark : Option Nat}
    {socket : ProbeSocket} : bindFor linux f peer fwmark = .ok socket ↔
      f.Spares linux fwmark ∧ socket = ⟨peer.ip.isIpv4, if linux then fwmark else none⟩ := by
  obtain ⟨create, setMark, bind⟩ := f
  constructor
  · intro h
    cases create with
    | some e => cases h
    | none =>
      cases bind with
      | some e => cases linux <;> cases fwmark <;> cases setMark <;> cases h
      | none =>
        cases linux <;> cases fwmark <;> cases setMark <;> cases h <;>
          exact ⟨⟨rfl, by simp, rfl⟩, rfl⟩
  · rintro ⟨⟨hcreate, hmark, hbind⟩, rfl⟩
    cases hcreate
    cases hbind
    cases linux <;> cases fwmark <;> first | rfl | (cases hmark rfl rfl; rfl)

theorem Wire.judge_proper (wire : Wire) (rtt : Duration) (datagram : List UInt8) :
    (wire.judge rtt datagram).Proper := by
  cases datagram with
  | nil => rfl
  | cons kind rest =>
    rw [judge]
    split
    · rfl
    · split
      · split <;> rfl
      · rfl

theorem Wire.judge_ok_iff {wire : Wire} {rtt d : Duration} {o : Outcome} {datagram : List UInt8} :
    wire.judge rtt datagram = .ok (d, o) ↔ d = rtt ∧ wire.Takes datagram o := by
  constructor
  · intro h
    cases datagram with
    | nil => cases h
    | cons kind rest =>
      rw [judge] at h
      split at h
      · next hcookie =>
        cases h
        exact ⟨rfl, hcookie ▸ .cookie rest⟩
      · split at h
        · next hresponse =>
          subst hresponse
          split at h
          · next hwrite => cases h; exact ⟨rfl, .response rest (.inr hwrite)⟩
          · next hdone => cases h; exact ⟨rfl, .response rest (.inl hdone)⟩
          · cases h
          · cases h
        · cases h
  · rintro ⟨rfl, htakes⟩
    cases htakes with
    | cookie rest => rfl
    | response rest h =>
      have hother : msgHandshakeResponse ≠ msgCookieReply := by decide
      rw [judge, if_neg hother, if_pos rfl]
      rcases h with h | h <;> rw [h]

namespace Prober

variable {p : Prober} {linux : Bool} {wire : Wire} {endpoint : SocketAddr}

/-- There is a socket, an initiation and a way out. -/
structure Sends (p : Prober) (linux : Bool) (wire : Wire) (endpoint : SocketAddr)
    (socket : ProbeSocket) : Prop where
  socket : bindFor linux wire.socket endpoint p.fwmark = .ok socket
  initiation : wire.initiation = .writeToNetwork
  send : wire.send = none

/-- What is sent is judged by what is received. -/
theorem oneHandshake_sent {socket : ProbeSocket} (h : p.Sends linux wire endpoint socket) :
    p.oneHandshake linux wire endpoint = match wire.received socket with
      | none => .error .unreachable
      | some (.error e, _) => .error (.failed e)
      | some (.ok datagram, rtt) => wire.judge rtt (datagram.take bufferSize) := by
  rw [oneHandshake, h.socket, h.initiation, h.send]
  rfl

theorem oneHandshake_unsent (h : ∀ socket, ¬p.Sends linux wire endpoint socket) :
    ∃ o, p.oneHandshake linux wire endpoint = .error o ∧ o.isUsable = false := by
  unfold oneHandshake
  cases hsocket : bindFor linux wire.socket endpoint p.fwmark with
  | error e => exact ⟨_, rfl, rfl⟩
  | ok socket =>
    cases hinitiation : wire.initiation with
    | writeToNetwork =>
      cases hsend : wire.send with
      | none => exact absurd ⟨hsocket, hinitiation, hsend⟩ (h socket)
      | some e => exact ⟨_, rfl, rfl⟩
    | _ => exact ⟨_, rfl, rfl⟩

theorem oneHandshake_ok_iff {rtt : Duration} {o : Outcome} :
    p.oneHandshake linux wire endpoint = .ok (rtt, o) ↔ p.Hears linux wire endpoint rtt o := by
  constructor
  · intro h
    by_cases hsends : ∃ socket, p.Sends linux wire endpoint socket
    · obtain ⟨socket, hsends⟩ := hsends
      rw [oneHandshake_sent hsends] at h
      obtain ⟨hspares, rfl⟩ := bindFor_ok_iff.mp hsends.socket
      refine ⟨hspares, hsends.initiation, hsends.send, ?_⟩
      split at h
      · cases h
      · cases h
      · next datagram d hreceived =>
        obtain ⟨rfl, htakes⟩ := Wire.judge_ok_iff.mp h
        exact ⟨datagram, hreceived, htakes⟩
    · obtain ⟨o', herror, -⟩ := oneHandshake_unsent fun socket h => hsends ⟨socket, h⟩
      rw [herror] at h
      cases h
  · rintro ⟨hspares, hinitiation, hsend, datagram, hreceived, htakes⟩
    rw [oneHandshake_sent ⟨bindFor_ok_iff.mpr ⟨hspares, rfl⟩, hinitiation, hsend⟩, hreceived]
    exact Wire.judge_ok_iff.mpr ⟨rfl, htakes⟩

/-- A time comes with a usable outcome only, as the verdict of a probe takes for granted. -/
theorem oneHandshake_proper : (p.oneHandshake linux wire endpoint).Proper := by
  by_cases hsends : ∃ socket, p.Sends linux wire endpoint socket
  · obtain ⟨socket, hsends⟩ := hsends
    rw [oneHandshake_sent hsends]
    split
    · rfl
    · rfl
    · exact wire.judge_proper _ _
  · obtain ⟨o, herror, husable⟩ := oneHandshake_unsent fun socket h => hsends ⟨socket, h⟩
    rw [herror]
    exact husable

/-! ### Sweeps -/

theorem probe_usableTime (answer : Nat → Handshake) (hproper : ∀ k, (answer k).Proper) :
    (p.probe answer endpoint).usableTime =
      if p.excluded = some endpoint then none else median (timesOf (p.handshakes answer)) := by
  by_cases hexcluded : p.excluded = some endpoint
  · rw [probe, if_pos hexcluded, if_pos hexcluded]
    rfl
  · have htells := tells_foldl (p.handshakes answer) fun h hh => by
      obtain ⟨k, _, rfl⟩ := List.mem_map.mp hh
      exact hproper k
    rw [probe_run p answer hexcluded, if_neg hexcluded]
    dsimp only [ProbeResult.usableTime]
    rw [htells.samples]
    cases htime : median (timesOf (p.handshakes answer)) with
    | none => rfl
    | some rtt =>
      have husable := htells.usable.mpr (median_isSome.mp (by rw [htime]; rfl))
      simp [husable]

theorem mem_timesOf_iff {answer : Nat → Handshake} {rtt : Duration} :
    rtt ∈ timesOf (p.handshakes answer) ↔
      ∃ k < p.settings.samples, ∃ o, answer k = .ok (rtt, o) := by
  simp only [timesOf, handshakes, List.mem_filterMap, List.mem_map, List.mem_range]
  constructor
  · rintro ⟨_, ⟨k, hk, rfl⟩, htime⟩
    cases hanswer : answer k with
    | error => rw [hanswer] at htime; cases htime
    | ok success =>
      rw [hanswer] at htime
      cases htime
      exact ⟨k, hk, success.2, hanswer⟩
  · rintro ⟨k, hk, o, hanswer⟩
    exact ⟨_, ⟨k, hk, hanswer⟩, rfl⟩

end Prober

/-- The results of a server are those of the probes of its entries. -/
theorem mem_ownResults_iff {p : Prober} {net : Network} {servers : List Server} {entries : List Nat}
    {port : UInt16} {i : Nat} {server : Server} (hserver : servers[i]? = some server)
    {y : Nat × ProbeResult} : y ∈ ownResults servers entries port
        (p.probeMany net (sweepEndpoints servers entries port)) i server ↔
      ∃ j x, (server.wgEndpoints entries port)[j]? = some x ∧
        y = (x.1, p.probe (net p (firstProbe servers entries port i + j) x.2) x.2) := by
  have hprobe : ∀ j x, (server.wgEndpoints entries port)[j]? = some x → (ownResults servers entries port
      (p.probeMany net (sweepEndpoints servers entries port)) i server)[j]? =
        some (x.1, p.probe (net p (firstProbe servers entries port i + j) x.2) x.2) := by
    intro j x hx
    refine ownResults_getElem? _ _ _ hx ?_
    rw [Prober.probeMany, List.getElem?_mapIdx,
      sweepEndpoints_getElem? servers entries port hserver hx]
    rfl
  constructor
  · intro hy
    obtain ⟨j, hj⟩ := List.getElem?_of_mem hy
    have hlt := (List.getElem?_eq_some_iff.mp hj).1
    rw [ownResults, List.length_zip, List.length_map] at hlt
    have hx := List.getElem?_eq_getElem (hlt.trans_le (Nat.min_le_left _ _))
    refine ⟨j, _, hx, Option.some.inj ?_⟩
    rw [← hj, hprobe j _ hx]
  · rintro ⟨j, x, hx, rfl⟩
    exact List.mem_of_getElem? (hprobe j x hx)

theorem sweep_getElem? (p : Prober) (net : Network) {servers : List Server} (entries : List Nat)
    (port : UInt16) {i : Nat} {server : Server} (hserver : servers[i]? = some server) :
    ∃ m, (p.sweep net servers entries port)[i]? = some m ∧ m.server = server ∧
      m.Fastest (ownResults servers entries port
        (p.probeMany net (sweepEndpoints servers entries port)) i server) := by
  refine ⟨_, regroup_getElem? servers entries port _ hserver, ?_,
    server.measured_fastest entries port _⟩
  unfold Server.measured
  split <;> rfl

/-- One of the handshakes that a sweep makes with an entry of a server is heard. -/
structure Prober.HearsEntry (p : Prober) (linux : Bool) (wires : Nat → SocketAddr → Nat → Wire)
    (servers : List Server) (entries : List Nat) (port : UInt16) (i : Nat) (server : Server)
    (x : Nat × SocketAddr) (rtt : Duration) : Prop where
  probed : p.excluded ≠ some x.2
  heard : ∃ j, (server.wgEndpoints entries port)[j]? = some x ∧ ∃ k < p.settings.samples, ∃ o,
    p.Hears linux (wires (firstProbe servers entries port i + j) x.2 k) x.2 rtt o

section Sweep

variable {p : Prober} {linux : Bool} {wires : Nat → SocketAddr → Nat → Wire} {servers : List Server}
  {entries : List Nat} {port : UInt16} {i : Nat} {server : Server} {x : Nat × SocketAddr}

theorem probe_network (n : Nat) (endpoint : SocketAddr) :
    (p.probe (Network.ofWires linux wires p n endpoint) endpoint).usableTime =
      if p.excluded = some endpoint then none
      else median (timesOf (p.handshakes (Network.ofWires linux wires p n endpoint))) :=
  Prober.probe_usableTime _ fun _ => Prober.oneHandshake_proper

/-- A time of a probe of an entry is that of one of its handshakes. -/
theorem hearsEntry_of_time {j : Nat} (hx : (server.wgEndpoints entries port)[j]? = some x)
    {rtt : Duration} (h : (p.probe (Network.ofWires linux wires p (firstProbe servers entries port i + j) x.2)
      x.2).usableTime = some rtt) :
    p.HearsEntry linux wires servers entries port i server x rtt := by
  rw [probe_network] at h
  split at h
  · cases h
  · next hexcluded =>
    obtain ⟨k, hk, o, hanswer⟩ := Prober.mem_timesOf_iff.mp (isLower_of_insertionSort h).mem
    exact ⟨hexcluded, j, hx, k, hk, o, Prober.oneHandshake_ok_iff.mp hanswer⟩

theorem time_of_heard {n k : Nat} {endpoint : SocketAddr} {rtt : Duration} {o : Outcome}
    (hprobed : p.excluded ≠ some endpoint) (hk : k < p.settings.samples)
    (h : p.Hears linux (wires n endpoint k) endpoint rtt o) :
    (p.probe (Network.ofWires linux wires p n endpoint) endpoint).usableTime ≠ none := by
  have hmem : rtt ∈ timesOf (p.handshakes (Network.ofWires linux wires p n endpoint)) :=
    Prober.mem_timesOf_iff.mpr ⟨k, hk, o, Prober.oneHandshake_ok_iff.mpr h⟩
  rw [probe_network, if_neg hprobed, Option.ne_none_iff_isSome]
  exact Prober.median_isSome.mpr (List.ne_nil_of_mem hmem)

/-- A sweep gives a server a time exactly if one of the handshakes with one of its entries was heard,
the one in use excepted; and the time, the entry and the endpoint are those of such a handshake. -/
theorem sweep_hears (p : Prober) (linux : Bool) (wires : Nat → SocketAddr → Nat → Wire)
    (servers : List Server) (entries : List Nat) (port : UInt16) {i : Nat} {server : Server}
    (hserver : servers[i]? = some server) :
    ∃ m, (p.sweep (.ofWires linux wires) servers entries port)[i]? = some m ∧ m.server = server ∧
      (m.rtt.isSome = true ↔
        ∃ x rtt, p.HearsEntry linux wires servers entries port i server x rtt) ∧
      ∀ rtt, m.rtt = some rtt →
        p.HearsEntry linux wires servers entries port i server (m.entry, m.endpoint) rtt := by
  obtain ⟨m, hm, hsame, hfastest⟩ := sweep_getElem? p (.ofWires linux wires) entries port hserver
  have htime : ∀ rtt, m.rtt = some rtt →
      p.HearsEntry linux wires servers entries port i server (m.entry, m.endpoint) rtt := by
    intro rtt hrtt
    obtain ⟨y, hfirst, hentry, hendpoint⟩ := hfastest.first rtt hrtt
    obtain ⟨j, x, hx, rfl⟩ := (mem_ownResults_iff hserver).mp hfirst.mem
    rw [hentry, hendpoint, Prober.probe_endpoint]
    exact hearsEntry_of_time hx hfirst.key_eq
  refine ⟨m, hm, hsame, ⟨fun hsome => ?_, ?_⟩, htime⟩
  · obtain ⟨rtt, hrtt⟩ := Option.isSome_iff_exists.mp hsome
    exact ⟨_, rtt, htime rtt hrtt⟩
  · rintro ⟨x, rtt, hprobed, j, hx, k, hk, o, hhears⟩
    refine Option.isSome_iff_ne_none.mpr fun hnone => ?_
    exact time_of_heard hprobed hk hhears
      (hfastest.silent.mp hnone _ ((mem_ownResults_iff hserver).mpr ⟨j, x, hx, rfl⟩))

end Sweep

end Vpnmgr
