import MulticastTunnel.Ip.Packet

/-!
# UDP datagrams

Multicast data arrives as IP packets carrying UDP. `Datagram.decapsulate` takes such a packet
apart, `Datagram.encapsulate` builds one with a valid checksum, so that the one undoes the other,
except for the flow labels and scopes of the ends, which packets do not carry.

A checksum is verified only on request, and in IPv4 a checksum field of zero means that the
sender did not compute one; a computed checksum of zero is therefore sent as all ones.
-/

namespace MulticastTunnel

/-- A UDP datagram. -/
structure Datagram where
  source : Endpoint
  destination : Endpoint
  payload : Bytes
  deriving DecidableEq, Inhabited

namespace Datagram

/-- The length of a UDP header. -/
def headerLength : Nat := 8

/-- The longest payload that fits an IP packet of either family. -/
def maxPayload : Nat := 65487

/-- What a packet carries of a datagram: of its ends, the addresses and ports. -/
def bare (d : Datagram) : Datagram :=
  { d with source := d.source.bare, destination := d.destination.bare }

/-- The text shown for a datagram: its two ends and the size of its payload. -/
def text (d : Datagram) : String :=
  "UDP\x7b" ++ d.source.text ++ "->" ++ d.destination.text ++ ":"
    ++ toString d.payload.length ++ " bytes\x7d"

/-- The checksum over a UDP header and payload with its pseudo header. The two addresses have to
be of one family. -/
def checksum (source destination : Address) (udp : Bytes) : Outcome UInt16 := do
  match source, destination with
  | .v4 s, .v4 d =>
    let length ← Outcome.fitting 16 udp.length
    return Checksum.internet [Checksum.pseudoHeaderV4 s d Ip.udp length, udp]
  | .v6 s, .v6 d => return Checksum.internet [Checksum.pseudoHeaderV6 s d udp.length Ip.udp, udp]
  | s, d => Outcome.reject (.familyMismatch s d)

/-- Reads the datagram that an IP packet carries. -/
def decapsulate (packet : Bytes) (verify : Bool) : Outcome Datagram := do
  let ip ← IpPacket.parse packet
  if ip.protocol ≠ Ip.udp then
    Outcome.reject (.unsupportedProtocol ip.protocol "UDP")
  else do
    let udp := ip.payload
    let (sourcePort, destinationPort, length, sum) ← Reader.parse (do
      Reader.require "UDP header" headerLength
      let sourcePort ← Reader.u16 "UDP header"
      let destinationPort ← Reader.u16 "UDP header"
      let length ← Reader.word "UDP header" 2
      let sum ← Reader.word "UDP header" 2
      return (sourcePort, destinationPort, length, sum)) udp
    if length < headerLength ∨ udp.length < length then
      Outcome.reject (.lengthOutOfBounds "UDP length" length udp.length)
    if verify ∧ ¬ (sum = 0 ∧ ip.source.isV4) then
      if (← checksum ip.source ip.destination (← Outcome.slice 0 length udp)) ≠ 0 then
        Outcome.reject (.checksumMismatch "UDP")
    let payload ← Outcome.slice headerLength length udp
    return ⟨.of ip.source sourcePort, .of ip.destination destinationPort, payload⟩

/-- The IP header in front of a UDP header and payload of `length` bytes. The two addresses have
to be of one family. -/
def ipHeader (source destination : Address) (length : Nat) : Outcome Bytes :=
  match source, destination with
  | .v4 s, .v4 d => Ip.headerV4 ⟨s, d, Ip.udp, 64, 0, []⟩ length
  | .v6 s, .v6 d => Ip.headerV6 ⟨s, d, Ip.udp, 64⟩ length
  | s, d => Outcome.reject (.familyMismatch s d)

/-- Builds the IP packet that carries a datagram. -/
def encapsulate (d : Datagram) : Outcome Bytes := do
  let length := headerLength + d.payload.length
  if maxPayload < d.payload.length then
    Outcome.reject (.lengthOutOfBounds "UDP payload" d.payload.length maxPayload)
  let lengthField ← Outcome.fitting 16 length
  let unsealed := Bytes.ofNat 2 d.source.port.toNat ++ Bytes.ofNat 2 d.destination.port.toNat
    ++ Bytes.ofNat 2 lengthField ++ [0, 0] ++ d.payload
  let header ← ipHeader d.source.address d.destination.address length
  let sum ← checksum d.source.address d.destination.address unsealed
  return header ++ Bytes.patchWord 6 (if sum = 0 then 0xffff else sum) unsealed

end Datagram

end MulticastTunnel
