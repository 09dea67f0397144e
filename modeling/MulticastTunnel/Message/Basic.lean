import MulticastTunnel.Failure

/-!
# Tunnel messages

The seven messages that gateway and relay exchange. The gateway finds a relay (`discovery`,
answered by `advertisement`), asks it for a tunnel (`request`, answered by `query`), reports what
it wants to receive (`update`), receives multicast `data`, and may end the tunnel (`teardown`).

A query carries the relay's authentication code, which updates and teardowns echo together with
the nonce of the request, and may tell the gateway under which address the relay sees it.
-/

namespace MulticastTunnel

/-- The port of the tunnel protocol. -/
def tunnelPort : UInt16 := 2268

/-- A relay's 48 bit message authentication code. -/
abbrev ResponseMac := BitVec 48

/-- The address and port under which a relay sees the gateway. -/
structure GatewayAddress where
  port : UInt16
  address : Address
  deriving DecidableEq, Inhabited

/-- What gateway and relay say to each other. Packets are carried as they are. -/
inductive Message where
  | discovery (nonce : UInt32)
  | advertisement (nonce : UInt32) (relay : Address)
  | request (nonce : UInt32) (preferMld : Bool)
  | query (limited : Bool) (mac : ResponseMac) (nonce : UInt32) (packet : Bytes)
      (gateway : Option GatewayAddress)
  | update (mac : ResponseMac) (nonce : UInt32) (packet : Bytes)
  | data (packet : Bytes)
  | teardown (mac : ResponseMac) (nonce : UInt32) (gateway : GatewayAddress)
  deriving DecidableEq, Inhabited

/-- The kinds of messages, numbered from 1 on the wire. -/
inductive MessageKind where
  | discovery | advertisement | request | query | update | data | teardown
  deriving DecidableEq, Inhabited

namespace MessageKind

/-- The number of a kind on the wire. -/
def code : MessageKind → UInt8
  | discovery => 1
  | advertisement => 2
  | request => 3
  | query => 4
  | update => 5
  | data => 6
  | teardown => 7

/-- The kind with a given number. -/
def ofCode? : Nat → Option MessageKind
  | 1 => some discovery
  | 2 => some advertisement
  | 3 => some request
  | 4 => some query
  | 5 => some update
  | 6 => some data
  | 7 => some teardown
  | _ => none

/-- The name of a kind. -/
def name : MessageKind → String
  | discovery => "RelayDiscovery"
  | advertisement => "RelayAdvertisement"
  | request => "Request"
  | query => "MembershipQuery"
  | update => "MembershipUpdate"
  | data => "MulticastData"
  | teardown => "Teardown"

theorem ofCode?_code (k : MessageKind) : ofCode? k.code.toNat = some k := by
  cases k <;> rfl

end MessageKind

/-- The kind of a message. -/
def Message.kind : Message → MessageKind
  | .discovery .. => .discovery
  | .advertisement .. => .advertisement
  | .request .. => .request
  | .query .. => .query
  | .update .. => .update
  | .data .. => .data
  | .teardown .. => .teardown

end MulticastTunnel
