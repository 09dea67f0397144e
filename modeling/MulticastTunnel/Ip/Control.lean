import MulticastTunnel.Ip.Packet

/-!
# Control packets

IGMP and MLD messages share their frame: the checksum is in bytes 2 and 3 of the message, the
packet goes one hop only, and it alerts the routers on its way. MLD is part of ICMPv6, whose
checksum also covers a pseudo header with the packet's addresses.
-/

namespace MulticastTunnel

namespace ControlPacket

/-- Marks a packet as network control. -/
def networkControl : UInt8 := 0xc0

/-- The checksum of an IGMP message. -/
def igmpChecksum (message : Bytes) : UInt16 := Checksum.internet [message]

/-- The checksum of an ICMPv6 message. -/
def icmpChecksum (source destination : BitVec 128) (message : Bytes) : UInt16 :=
  Checksum.internet [Checksum.pseudoHeaderV6 source destination message.length Ip.icmpV6, message]

/-- The packet of an IGMP message whose checksum is still zero. -/
def igmp (source destination : BitVec 32) (message : Bytes) : Outcome Bytes := do
  let header ← Ip.headerV4
    ⟨source, destination, Ip.igmp, 1, networkControl, Ip.routerAlertV4⟩ message.length
  return header ++ Bytes.patchWord 2 (igmpChecksum message) message

/-- The packet of an ICMPv6 message whose checksum is still zero. -/
def icmp (source destination : BitVec 128) (message : Bytes) : Outcome Bytes := do
  let header ← Ip.headerV6 ⟨source, destination, Ip.hopByHop, 1⟩
    (Ip.routerAlertV6.length + message.length)
  return header ++ Ip.routerAlertV6
    ++ Bytes.patchWord 2 (icmpChecksum source destination message) message

/-- Hands the control message of an IP packet to the reader of its family. -/
def read {α : Type} (igmp : Bytes → Outcome α)
    (icmp : (source destination : BitVec 128) → Bytes → Outcome α) (packet : Bytes) :
    Outcome α := do
  let ip ← IpPacket.parse packet
  let unsupported := Outcome.reject (.unsupportedProtocol ip.protocol "IGMP / ICMPv6")
  match ip.source, ip.destination with
  | .v4 _, _ => if ip.protocol = Ip.igmp then igmp ip.payload else unsupported
  | .v6 source, .v6 destination =>
    if ip.protocol = Ip.icmpV6 then icmp source destination ip.payload else unsupported
  | _, _ => unsupported

end ControlPacket

end MulticastTunnel
