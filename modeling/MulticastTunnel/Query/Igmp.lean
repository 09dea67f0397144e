import MulticastTunnel.Ip.Control
import MulticastTunnel.Query.Basic
import MulticastTunnel.TimeCode

/-!
# Queries in IGMP

IGMPv2 queries are 8 bytes long, IGMPv3 queries at least 12. Response delays are counted in
tenths of a second. Queries are written in version 3; a general query goes to all systems, any
other to its group.
-/

namespace MulticastTunnel

namespace Query

namespace Igmp

/-- The type of an IGMP query. -/
def messageType : UInt8 := 0x11

/-- The group of all systems on a link, 224.0.0.1. -/
def allSystems : BitVec 32 := 0xe0000001

/-- A group, none if it is unspecified. -/
def specified (group : BitVec 32) : Option Address :=
  if group = 0 then none else some (.v4 group)

/-- Reads the part of a query that only version 3 has. -/
def tailReader (group : Option Address) (delayCode : UInt8) : Reader Query := do
  Reader.require "IGMPv3 query" 4
  let flags := UInt8.ofNat (← Reader.sureWord 1)
  let interval := UInt8.ofNat (← Reader.sureWord 1)
  let count ← Reader.sureWord 2
  Reader.require "IGMPv3 query sources" (4 * count)
  let sources ← Reader.repeated (Reader.sureWord 4) count
  return {
    group
    sources := sources.map fun n => .v4 (BitVec.ofNat 32 n)
    maxResponseDelay := Duration.ofMillis (100 * TimeCode.decode8 delayCode)
    suppressRouterProcessing := suppressOfFlags flags
    robustness := robustnessOfFlags flags
    interval := intervalOfSeconds (TimeCode.decode8 interval) }

/-- Reads a query of either version. -/
def decode (igmp : Bytes) : Outcome Query := Reader.parse (do
    Reader.require "IGMP query" 8
    if ControlPacket.igmpChecksum igmp ≠ 0 then
      Reader.reject (.checksumMismatch "IGMP")
    let type := UInt8.ofNat (← Reader.sureWord 1)
    if type ≠ messageType then
      Reader.reject (.unexpectedType "IGMP query" type)
    let delayCode := UInt8.ofNat (← Reader.sureWord 1)
    let _ ← Reader.take 2
    let group := specified (← Reader.addressV4 "IGMP query")
    if igmp.length = 8 then
      return { Query.general (Duration.ofMillis (100 * delayCode.toNat)) with group }
    else tailReader group delayCode) igmp

/-- A source's bytes, if it is an IPv4 address. -/
def sourceBytes (querier : BitVec 32) : Address → Outcome Bytes
  | .v4 s => .ok (Bytes.ofNat 4 s.toNat)
  | s => Outcome.reject (.familyMismatch (.v4 querier) s)

/-- Writes the IP packet of a version 3 query. -/
def encode (q : Query) (querier : BitVec 32) : Outcome Bytes := do
  let group ← match q.group with
    | none => pure 0
    | some (.v4 g) => pure g
    | some g => Outcome.reject (.familyMismatch (.v4 querier) g)
  let delayCode := TimeCode.encode8 (q.maxResponseDelay.asMillis / 100 % 0x100000000)
  let count ← Outcome.fitting 16 q.sources.length
  let sources ← q.sources.mapM (sourceBytes querier)
  let unsealed := [messageType, delayCode, 0, 0] ++ Bytes.ofNat 4 group.toNat
    ++ [q.flags, TimeCode.encode8 q.intervalSeconds] ++ Bytes.ofNat 2 count ++ sources.flatten
  ControlPacket.igmp querier (if q.group.isSome then group else allSystems) unsealed

end Igmp

end Query

end MulticastTunnel
