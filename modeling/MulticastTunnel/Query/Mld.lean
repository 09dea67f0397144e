import MulticastTunnel.Ip.Control
import MulticastTunnel.Query.Basic
import MulticastTunnel.TimeCode

/-!
# Queries in MLD

MLDv1 queries are 24 bytes long, MLDv2 queries at least 28. Response delays are counted in
milliseconds. Queries are written in version 2; a general query goes to all nodes, any other to
its group. The checksum covers a pseudo header with the packet's addresses.
-/

namespace MulticastTunnel

namespace Query

namespace Mld

/-- The type of an MLD query. -/
def messageType : UInt8 := 130

/-- The group of all nodes on a link, ff02::1. -/
def allNodes : BitVec 128 := 0xff020000000000000000000000000001

/-- A group, none if it is unspecified. -/
def specified (group : BitVec 128) : Option Address :=
  if group = 0 then none else some (.v6 group)

/-- Reads the part of a query that only version 2 has. -/
def tailReader (group : Option Address) (delayCode : UInt16) : Reader Query := do
  Reader.require "MLDv2 query" 4
  let flags := UInt8.ofNat (← Reader.sureWord 1)
  let interval := UInt8.ofNat (← Reader.sureWord 1)
  let count ← Reader.sureWord 2
  Reader.require "MLDv2 query sources" (16 * count)
  let sources ← Reader.repeated (Reader.sureWord 16) count
  return {
    group
    sources := sources.map fun n => .v6 (BitVec.ofNat 128 n)
    maxResponseDelay := Duration.ofMillis (TimeCode.decode16 delayCode)
    suppressRouterProcessing := suppressOfFlags flags
    robustness := robustnessOfFlags flags
    interval := intervalOfSeconds (TimeCode.decode8 interval) }

/-- Reads a query of either version, sent from `source` to `destination`. -/
def decode (source destination : BitVec 128) (icmp : Bytes) : Outcome Query := Reader.parse (do
    Reader.require "MLD query" 24
    if ControlPacket.icmpChecksum source destination icmp ≠ 0 then
      Reader.reject (.checksumMismatch "ICMPv6")
    let type := UInt8.ofNat (← Reader.sureWord 1)
    if type ≠ messageType then
      Reader.reject (.unexpectedType "MLD query" type)
    let _ ← Reader.take 3
    let delayCode := UInt16.ofNat (← Reader.sureWord 2)
    let _ ← Reader.take 2
    let group := specified (← Reader.addressV6 "MLD query")
    if icmp.length = 24 then
      return { Query.general (Duration.ofMillis delayCode.toNat) with group }
    else tailReader group delayCode) icmp

/-- A source's bytes, if it is an IPv6 address. -/
def sourceBytes (querier : BitVec 128) : Address → Outcome Bytes
  | .v6 s => .ok (Bytes.ofNat 16 s.toNat)
  | s => Outcome.reject (.familyMismatch (.v6 querier) s)

/-- Writes the IP packet of a version 2 query. -/
def encode (q : Query) (querier : BitVec 128) : Outcome Bytes := do
  let group ← match q.group with
    | none => pure 0
    | some (.v6 g) => pure g
    | some g => Outcome.reject (.familyMismatch (.v6 querier) g)
  let delayCode := TimeCode.encode16 (q.maxResponseDelay.asMillis % 0x100000000)
  let count ← Outcome.fitting 16 q.sources.length
  let sources ← q.sources.mapM (sourceBytes querier)
  let unsealed := [messageType, 0, 0, 0] ++ Bytes.ofNat 2 delayCode.toNat ++ [0, 0]
    ++ Bytes.ofNat 16 group.toNat ++ [q.flags, TimeCode.encode8 q.intervalSeconds]
    ++ Bytes.ofNat 2 count ++ sources.flatten
  ControlPacket.icmp querier (if q.group.isSome then group else allNodes) unsealed

end Mld

end Query

end MulticastTunnel
