import MulticastTunnel.Ip.Packet
import MulticastTunnel.Message.Basic

/-!
# The wire form of tunnel messages

`Message.encode` writes a message, `Message.decode` reads one. The first byte holds the protocol
version (always 0) and the kind; reserved fields are written as zero and not looked at.

A gateway address takes the room of an IPv6 address. IPv4 addresses are written in their
IPv4-mapped form; on reading, the older IPv4-compatible form is understood as well. A query's
packet ends where its IP header says, and a gateway address may follow it.
-/

namespace MulticastTunnel

namespace GatewayAddress

/-- Port and address, in 18 bytes. -/
def encode (g : GatewayAddress) : Bytes :=
  Bytes.ofNat 2 g.port.toNat ++ Bytes.ofNat 16 g.address.mapped.toNat

/-- The address that 128 bits stand for: an IPv4 address if they are its mapped or compatible
form. The unspecified address and the loopback address are not compatible forms. -/
def addressOfBits (bits : BitVec 128) : Address :=
  let high := bits.toNat >>> 32
  if high = 0xffff then .v4 (BitVec.ofNat 32 bits.toNat)
  else if high = 0 ∧ bits.toNat ≠ 0 ∧ bits.toNat ≠ 1 then .v4 (BitVec.ofNat 32 bits.toNat)
  else .v6 bits

/-- Reads port and address. -/
def reader : Reader GatewayAddress := do
  let port ← Reader.u16 "gateway address"
  let bits ← Reader.addressV6 "gateway address"
  return ⟨port, addressOfBits bits⟩

end GatewayAddress

namespace Message

/-- A truth value as a flag bit. -/
def flag (bit : Nat) (b : Bool) : Nat := if b then bit else 0

/-- The bytes after the kind. -/
def body : Message → Bytes
  | discovery nonce => [0, 0, 0] ++ Bytes.ofNat 4 nonce.toNat
  | advertisement nonce relay => [0, 0, 0] ++ Bytes.ofNat 4 nonce.toNat ++ relay.toBytes
  | request nonce preferMld =>
    [UInt8.ofNat (flag 1 preferMld), 0, 0] ++ Bytes.ofNat 4 nonce.toNat
  | query limited mac nonce packet gateway =>
    [UInt8.ofNat (flag 2 limited + flag 1 gateway.isSome)] ++ Bytes.ofNat 6 mac.toNat
      ++ Bytes.ofNat 4 nonce.toNat ++ packet ++ gateway.elim [] GatewayAddress.encode
  | update mac nonce packet =>
    [0] ++ Bytes.ofNat 6 mac.toNat ++ Bytes.ofNat 4 nonce.toNat ++ packet
  | data packet => [0] ++ packet
  | teardown mac nonce gateway =>
    [0] ++ Bytes.ofNat 6 mac.toNat ++ Bytes.ofNat 4 nonce.toNat ++ gateway.encode

/-- The wire form of a message. -/
def encode (m : Message) : Bytes := m.kind.code :: m.body

/-- Reads an authentication code. -/
def macReader (what : String) : Reader ResponseMac := do
  Reader.require what 6
  return BitVec.ofNat 48 (← Reader.sureWord 6)

/-- Reads what follows the kind. -/
def bodyReader : MessageKind → Reader Message
  | .discovery => do
    Reader.skip "relay discovery" 3
    return discovery (← Reader.u32 "relay discovery")
  | .advertisement => do
    Reader.skip "relay advertisement" 3
    let nonce ← Reader.u32 "relay advertisement"
    match (← Reader.rest).length with
    | 4 => return advertisement nonce (.v4 (← Reader.addressV4 "relay advertisement"))
    | 16 => return advertisement nonce (.v6 (← Reader.addressV6 "relay advertisement"))
    | n => Reader.reject (.invalidAddressLength n)
  | .request => do
    let flags ← Reader.u8 "request"
    Reader.skip "request" 2
    let nonce ← Reader.u32 "request"
    return request nonce (flags.toNat % 2 == 1)
  | .query => do
    let flags ← Reader.u8 "membership query"
    let mac ← macReader "membership query"
    let nonce ← Reader.u32 "membership query"
    let length ← IpPacket.declaredLength (← Reader.rest)
    let packet ← Reader.take length
    let gateway ←
      if flags.toNat % 2 = 1 then some <$> GatewayAddress.reader else pure none
    return query (flags.toNat / 2 % 2 == 1) mac nonce packet gateway
  | .update => do
    Reader.skip "membership update" 1
    let mac ← macReader "membership update"
    let nonce ← Reader.u32 "membership update"
    return update mac nonce (← Reader.rest)
  | .data => do
    Reader.skip "multicast data" 1
    return data (← Reader.rest)
  | .teardown => do
    Reader.skip "teardown" 1
    let mac ← macReader "teardown"
    let nonce ← Reader.u32 "teardown"
    let gateway ← GatewayAddress.reader
    return teardown mac nonce gateway

/-- Reads a message. -/
def decode (datagram : Bytes) : Outcome Message := Reader.parse (do
    let first ← Reader.u8 "AMT message"
    if first.toNat / 16 ≠ 0 then
      Reader.reject (.unsupportedVersion (first.toNat / 16))
    match MessageKind.ofCode? (first.toNat % 16) with
    | none => Reader.reject (.unknownMessageType (first.toNat % 16))
    | some kind => bodyReader kind) datagram

end Message

end MulticastTunnel
