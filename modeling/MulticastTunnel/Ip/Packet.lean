import MulticastTunnel.Bytes.Reader
import MulticastTunnel.Ip.Header

/-!
# IP packets

`IpPacket.parse` reads an IPv4 or IPv6 packet down to its upper layer payload, passing over IPv4
options and IPv6 extension headers. `IpPacket.declaredLength` only asks the header how long the
packet is, which tells where it ends in a longer byte string.

Bytes after the end of the packet are ignored; fragments are rejected.
-/

namespace MulticastTunnel

/-- The parts of an IP packet that matter here. For IPv6, `protocol` is the upper layer protocol
after all extension headers. -/
structure IpPacket where
  source : Address
  destination : Address
  protocol : UInt8
  payload : Bytes
  deriving DecidableEq

namespace IpPacket

/-- The length of the IP packet at the start of the bytes, as its header declares it. -/
def declaredLength (bytes : Bytes) : Outcome Nat := do
  let first ← (Reader.u8 "IP header").parse bytes
  let length ← match first.toNat / 16 with
    | 4 => Reader.parse (do
        Reader.require "IPv4 header" Ip.headerLengthV4
        let _ ← Reader.take 2
        Reader.word "IPv4 header" 2) bytes
    | 6 => Reader.parse (do
        Reader.require "IPv6 header" Ip.headerLengthV6
        let _ ← Reader.take 4
        return Ip.headerLengthV6 + (← Reader.word "IPv6 header" 2)) bytes
    | version => .error (.malformed (.unsupportedIpVersion version))
  if bytes.length < length then
    .error (.malformed (.lengthOutOfBounds "IP packet" length bytes.length))
  else return length

/-! ### IPv4 -/

/-- Reads an IPv4 packet: the header with its options has to lie within the packet, and the
packet within the bytes. -/
def parseV4 (bytes : Bytes) : Outcome IpPacket := Reader.parse (do
    Reader.require "IPv4 header" Ip.headerLengthV4
    let first ← Reader.u8 "IPv4 header"
    let headerLength := first.toNat % 16 * 4
    if headerLength < Ip.headerLengthV4 then
      Reader.reject (.lengthOutOfBounds "IPv4 header length" headerLength Ip.headerLengthV4)
    Reader.skip "IPv4 header" 1
    let total ← Reader.word "IPv4 header" 2
    if bytes.length < total ∨ total < headerLength then
      Reader.reject (.lengthOutOfBounds "IPv4 total length" total bytes.length)
    Reader.skip "IPv4 header" 2
    let flags ← Reader.word "IPv4 header" 2
    if flags / 0x2000 % 2 = 1 ∨ flags % 0x2000 ≠ 0 then
      Reader.reject .fragmented
    let header ← Outcome.slice 0 headerLength bytes
    if Checksum.internet [header] ≠ 0 then
      Reader.reject (.checksumMismatch "IPv4 header")
    Reader.skip "IPv4 header" 1
    let protocol ← Reader.u8 "IPv4 header"
    Reader.skip "IPv4 header" 2
    let source ← Reader.addressV4 "IPv4 header"
    let destination ← Reader.addressV4 "IPv4 header"
    let payload ← Outcome.slice headerLength total bytes
    return ⟨.v4 source, .v4 destination, protocol, payload⟩) bytes

/-! ### IPv6 -/

/-- Whether a header of this type is passed over on the way to the upper layer. -/
def isExtension (header : UInt8) : Bool :=
  header == Ip.hopByHop || header == Ip.routing || header == Ip.destinationOptions

/-- The type of the header that follows an extension header, and the length of the latter. -/
def extension (bytes : Bytes) : Outcome (UInt8 × Nat) := do
  let (following, length) ← Reader.parse (do
    Reader.require "IPv6 extension header" 8
    let following ← Reader.u8 "IPv6 extension header"
    let units ← Reader.u8 "IPv6 extension header"
    return (following, (units.toNat + 1) * 8)) bytes
  if bytes.length < length then
    .error (.malformed (.lengthOutOfBounds "IPv6 extension header" length bytes.length))
  else return (following, length)

/-- Passes over extension headers, down to the upper layer protocol and its payload. Each one
takes at least eight bytes, so `fuel` of one more than the number of bytes is never used up. -/
def upperLayer : (fuel : Nat) → (header : UInt8) → Bytes → Outcome (UInt8 × Bytes)
  | 0, _, bytes => .error (.fault (.pastEnd 8 bytes.length))
  | fuel + 1, header, bytes =>
    if isExtension header then do
      let (following, length) ← extension bytes
      upperLayer fuel following (← Outcome.slice length bytes.length bytes)
    else if header = Ip.fragment then .error (.malformed .fragmented)
    else return (header, bytes)

/-- Reads an IPv6 packet. A payload length of zero would announce a jumbogram, which is not
supported. -/
def parseV6 (bytes : Bytes) : Outcome IpPacket := do
  let (length, next, source, destination, rest) ← Reader.parse (do
    Reader.require "IPv6 header" Ip.headerLengthV6
    Reader.skip "IPv6 header" 4
    let length ← Reader.word "IPv6 header" 2
    let next ← Reader.u8 "IPv6 header"
    Reader.skip "IPv6 header" 1
    let source ← Reader.addressV6 "IPv6 header"
    let destination ← Reader.addressV6 "IPv6 header"
    return (length, next, source, destination, ← Reader.rest)) bytes
  if length = 0 ∨ rest.length < length then
    .error (.malformed (.lengthOutOfBounds "IPv6 payload length" length rest.length))
  else do
    let payload ← Outcome.slice 0 length rest
    let (protocol, payload) ← upperLayer (length + 1) next payload
    return ⟨.v6 source, .v6 destination, protocol, payload⟩

/-- Reads the IP packet at the start of the bytes. -/
def parse (bytes : Bytes) : Outcome IpPacket :=
  match bytes with
  | [] => .error (.malformed (.tooShort "IP header" Ip.headerLengthV4 0))
  | first :: _ =>
    match first.toNat / 16 with
    | 4 => parseV4 bytes
    | 6 => parseV6 bytes
    | version => .error (.malformed (.unsupportedIpVersion version))

end IpPacket

end MulticastTunnel
