import MulticastTunnel.Query.Packet
import MulticastTunnel.Tunnel.Basic

/-!
# What the socket receives

Messages of relays move the session on, ask the listener for reports, or carry multicast data
for the sink. What does not belong to the session is ignored; what can not be read is counted.
After the end of the tunnel nothing is received.
-/

namespace MulticastTunnel

namespace Tunnel

/-- An advertisement. A session that moves to another relay gives up its reports. -/
def onAdvertisement (t : Tunnel) (now : Instant) (nonce : UInt32) (relay : Address) : Tunnel :=
  let (accepted, session) := t.session.onAdvertisement nonce relay
  let left := t.session.phase = .active ∧ session.phase ≠ .active
  let moved := { t with session }
  let cancelled := if left then moved.cancelPending else moved
  if accepted then cancelled.setAlarm now 0 else cancelled

/-- Hands a query to the listener. A random value is used if there is a delay to choose. -/
def askListener (t : Tunnel) (now : Instant) (q : Query) : Tunnel :=
  let random :=
    if (Jitter.choices (t.listener.window q)).isSome then t.random.afterDelay else t.random
  { t with listener := t.listener.query now t.random.delay q, random }

/-- A membership query, the query itself still being a packet. -/
def onQuery (t : Tunnel) (now : Instant) (sender : Endpoint) (nonce : UInt32)
    (mac : ResponseMac) (packet : Bytes) (gatewayAddress : Option GatewayAddress) : Tunnel :=
  match Query.decode packet with
  | .error _ => t.count .malformed
  | .ok q =>
    let (outcome, session) := t.session.onQuery sender nonce mac gatewayAddress q.interval now
    let answered := { t with session }
    match outcome with
    | .rejected => answered
    | .activated refreshAfter => (answered.setAlarm now refreshAfter).askListener now q
    | .accepted => answered.askListener now q

/-- Multicast data, which only the relay of an active session may send. -/
def onData (t : Tunnel) (sender : Endpoint) (packet : Bytes) : Tunnel :=
  if t.session.phase = .active ∧ t.session.relay = some sender then
    match Datagram.decapsulate packet t.config.verifyChecksums with
    | .error _ => t.count .malformed
    | .ok d =>
      let (result, sink) := t.sink.offer d
      let taken := result = .taken
      { t with sink, effects := t.effects ++ [Effect.handed d taken] }.count
        (if taken then .delivered else .dropped)
  else t

/-- A message. -/
def onMessage (t : Tunnel) (now : Instant) (sender : Endpoint) : Message → Tunnel
  | .advertisement nonce relay => t.onAdvertisement now nonce relay
  | .query _ mac nonce packet gateway => t.onQuery now sender nonce mac packet gateway
  | .data packet => t.onData sender packet
  | _ => t

/-- Deals with a datagram of the socket, even if the tunnel has ended. -/
def accept (t : Tunnel) (now : Instant) (sender : Endpoint) (bytes : Bytes) : Tunnel :=
  let received := { t with session := t.session.onIoSuccess }
  match Message.decode bytes with
  | .error _ => received.count .malformed
  | .ok message => received.onMessage now sender message

/-- A datagram of the socket. -/
def receive (t : Tunnel) (now : Instant) (sender : Endpoint) (bytes : Bytes) : Tunnel :=
  if t.status = .running then t.accept now sender bytes else t

end Tunnel

end MulticastTunnel
