import MulticastTunnel.Checksum
import MulticastTunnel.Failure

/-!
# Writing IP headers

The headers of the packets that travel in the tunnel. `Ip.appendHeaderV4` writes an IPv4 header
behind what is in a buffer already, and fills in the header checksum; `Ip.headerV4` is the header
alone. All functions fault if a length does not fit its field, which callers have to rule out.
-/

namespace MulticastTunnel

namespace Ip

/-! ### Protocol numbers -/

def hopByHop : UInt8 := 0
def igmp : UInt8 := 2
def udp : UInt8 := 17
def routing : UInt8 := 43
def fragment : UInt8 := 44
def icmpV6 : UInt8 := 58
def destinationOptions : UInt8 := 60

/-- The length of an IPv4 header without options. -/
def headerLengthV4 : Nat := 20

/-- The length of an IPv6 header without extension headers. -/
def headerLengthV6 : Nat := 40

/-! ### Headers -/

/-- The options of a packet that routers on the way have to look at, for IPv4. -/
def routerAlertV4 : Bytes := [0x94, 0x04, 0x00, 0x00]

/-- The hop-by-hop extension header of an ICMPv6 packet that routers on the way have to look
at. -/
def routerAlertV6 : Bytes := [icmpV6, 0, 0x05, 0x02, 0x00, 0x00, 0x01, 0x00]

/-- What an IPv4 header says besides its lengths and checksum. -/
structure FieldsV4 where
  source : BitVec 32
  destination : BitVec 32
  protocol : UInt8
  timeToLive : UInt8
  typeOfService : UInt8
  /-- Padded to a multiple of four bytes. -/
  options : Bytes
  deriving DecidableEq

/-- Writes the IPv4 header of a packet with `payloadLength` bytes of payload behind what a buffer
holds, which the header's checksum does not cover. -/
def appendHeaderV4 (buffer : Bytes) (fields : FieldsV4) (payloadLength : Nat) : Outcome Bytes := do
  let headerLength := headerLengthV4 + fields.options.length
  let words ← Outcome.fitting 8 (headerLength / 4)
  let total ← Outcome.fitting 16 (headerLength + payloadLength)
  let unsealed := buffer ++ [UInt8.ofNat (0x40 ||| words), fields.typeOfService]
    ++ Bytes.ofNat 2 total
    ++ [0, 0, 0, 0, fields.timeToLive, fields.protocol, 0, 0]
    ++ Bytes.ofNat 4 fields.source.toNat ++ Bytes.ofNat 4 fields.destination.toNat
    ++ fields.options
  let sum := Checksum.internet [unsealed.drop buffer.length]
  return Bytes.patchWord (buffer.length + 10) sum unsealed

/-- The IPv4 header of a packet with `payloadLength` bytes of payload. -/
def headerV4 (fields : FieldsV4) (payloadLength : Nat) : Outcome Bytes :=
  appendHeaderV4 [] fields payloadLength

/-- What an IPv6 header says besides its payload length. -/
structure FieldsV6 where
  source : BitVec 128
  destination : BitVec 128
  nextHeader : UInt8
  hopLimit : UInt8
  deriving DecidableEq

/-- The IPv6 header of a packet with `payloadLength` bytes after it, extension headers
included. -/
def headerV6 (fields : FieldsV6) (payloadLength : Nat) : Outcome Bytes := do
  let length ← Outcome.fitting 16 payloadLength
  return [0x60, 0, 0, 0] ++ Bytes.ofNat 2 length ++ [fields.nextHeader, fields.hopLimit]
    ++ Bytes.ofNat 16 fields.source.toNat ++ Bytes.ofNat 16 fields.destination.toNat

end Ip

end MulticastTunnel
