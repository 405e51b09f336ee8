import Vpnmgr.Daemon.OwnTraffic

/-! The kill switches of the two systems against each other: engaged with the same settings they let
the same packets out, but for how each knows the tunnel's own traffic. -/

namespace Vpnmgr

/-- A packet that either system might send: to the same address and port, and by the tunnel's interface
on the one just where it is by the tunnel's adapter on the other. -/
structure Packet.Like (interface : String) (p : Packet) (q : Windows.OutboundPacket) : Prop where
  tunnel : p.oif = interface ↔ q.adapter = interface
  dst : p.dst = q.dst
  port : p.udpDport = q.udpRemotePort

/-- A query outside the tunnel, to a resolver that no bypass names. -/
def Sample.query : Packet := ⟨"eth0", none, .v4 0x01010101, some 53⟩

def Sample.queryWindows : Windows.OutboundPacket := ⟨"Ethernet", .publicNet, .v4 0x01010101, some 53⟩

end Vpnmgr
