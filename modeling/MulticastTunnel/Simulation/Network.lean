import MulticastTunnel.Gateway
import MulticastTunnel.Simulation.Clock
import MulticastTunnel.Simulation.SentNonces

/-!
# A gateway on a network

A gateway runs against some relay sockets on the loopback network. The network is either
lossless, and delivers at once, or it is down: then every attempt to send fails, for the gateway
with an error of its socket, and for a relay's socket with a fault of the simulation.

The log holds the messages that arrived at the relays' sockets, and when.
-/

namespace MulticastTunnel

/-- How the network behaves. -/
inductive Network where
  | down
  | lossless
  deriving DecidableEq, Inhabited

namespace Network

/-- The error of a socket without any route. -/
def unreachable : IoError := ⟨"NetworkUnreachable", "Network is unreachable (os error 101)"⟩

/-- The error of a socket that must not broadcast. -/
def denied : IoError := ⟨"PermissionDenied", "Permission denied (os error 13)"⟩

/-- The error of a datagram that is too long. -/
def tooLong : IoError := ⟨"Other", "Message too long (os error 90)"⟩

/-- The longest datagram that can be sent over IPv4. -/
def maxDatagram : Nat := 65507

/-- The broadcast address of IPv4. -/
def broadcast : Address := .v4 0xffffffff

/-- What the gateway's socket does with a datagram. -/
def transmit : Network → Transmit
  | down => fun _ _ => some unreachable
  | lossless => fun recipient bytes =>
    if recipient.address = broadcast then some denied
    else if maxDatagram < bytes.length then some tooLong
    else none

/-- The port of the relays' sockets. -/
def relayPort : UInt16 := 61616

/-- The endpoint of a relay's socket. The last number of its address counts the sockets from 1;
number 0 is a socket at the first address with another port. -/
def socket (index : Nat) : Endpoint :=
  if index = 0 then .of (.ofOctets 127 0 0 1) (relayPort + 1)
  else .of (.ofOctets 127 0 0 (UInt8.ofNat index)) relayPort

/-- The number of the socket at an endpoint. -/
def socketAt? (e : Endpoint) : Option Nat := [0, 1, 2, 3].find? fun index => socket index == e

/-- The settings of a gateway whose relays are these sockets. -/
def config : Config :=
  { Config.standard (socket 1) with
    relayPort
    localAddress := .of (.ofOctets 127 0 0 1) 0 }

end Network

/-- A message that arrived at a relay's socket. -/
structure Arrival where
  time : Instant
  socket : Nat
  message : Message
  deriving DecidableEq

/-- A gateway on a network. -/
structure NetworkedGateway where
  network : Network
  gateway : Gateway
  arrivals : List Arrival
  /-- The nonces of what has arrived. -/
  nonces : SentNonces

namespace NetworkedGateway

/-- A gateway whose session is about to begin. With `dispatching`, its sink is emptied into its
subscriptions. -/
def start (network : Network) (config : Config) (random : Randomness) (dispatching : Bool) :
    Except String NetworkedGateway :=
  (Gateway.start config random 0).map fun gateway =>
    ⟨network, { gateway with dispatching }, [], .none⟩

/-- The gateway's tunnel. -/
def tunnel (n : NetworkedGateway) : Tunnel := n.gateway.tunnel

/-- Changes the gateway's tunnel. -/
def withTunnel (n : NetworkedGateway) (tunnel : Tunnel) : NetworkedGateway :=
  { n with gateway := { n.gateway with tunnel } }

/-- A message arrives at a relay's socket. -/
def arrive (n : NetworkedGateway) (a : Arrival) : NetworkedGateway :=
  { n with arrivals := n.arrivals ++ [a], nonces := n.nonces.remember a.message }

/-- Delivers what the gateway has sent, and hands on what it has received. -/
def deliver (n : NetworkedGateway) (now : Instant) : NetworkedGateway :=
  let arrivals := n.tunnel.effects.filterMap fun
    | .sent recipient message =>
      (Network.socketAt? recipient).map fun index => (⟨now, index, message⟩ : Arrival)
    | .handed .. => none
  let n := n.withTunnel { n.tunnel with effects := [] }
  arrivals.foldl arrive { n with gateway := n.gateway.dispatchAll now }

/-- A relay's socket sends a datagram to the gateway. -/
def inject (n : NetworkedGateway) (now : Instant) (index : Nat) (bytes : Bytes) :
    Except Fault NetworkedGateway :=
  match n.network with
  | .down => .error .noNetwork
  | .lossless =>
    .ok ((n.withTunnel (n.tunnel.receive now (Network.socket index) bytes)).deliver now)

/-- The receiver of the tunnel's own sink looks for a datagram. -/
def receive (n : NetworkedGateway) : Received Datagram × NetworkedGateway :=
  let (found, sink) := n.tunnel.sink.receive
  (found, n.withTunnel { n.tunnel with sink })

/-- The receiver of the tunnel's own sink goes. -/
def abandon (n : NetworkedGateway) : NetworkedGateway :=
  n.withTunnel { n.tunnel with sink := n.tunnel.sink.abandon }

/-- Ends the gateway's tunnel only. -/
def closeTunnel (n : NetworkedGateway) (now : Instant) : NetworkedGateway :=
  (n.withTunnel (n.tunnel.close n.network.transmit)).deliver now

/-- Ends the gateway. -/
def close (n : NetworkedGateway) (now : Instant) : NetworkedGateway :=
  { n with gateway := n.gateway.close n.network.transmit }.deliver now

/-- Forgets the arrivals. -/
def forget (n : NetworkedGateway) : NetworkedGateway := { n with arrivals := [] }

/-- Errors that reports have left come first, then the session, then the listener. -/
def system : System NetworkedGateway where
  due? n :=
    if n.tunnel.errors.isEmpty then
      (n.tunnel.sessionTimers.nextDue?.toList
        ++ n.tunnel.listener.timers.nextDue?.toList).min?
    else some 0
  act n now :=
    let t := n.tunnel
    let net := n.network.transmit
    let changed :=
      if t.errors.isEmpty then
        match t.sessionTimers.due? now, t.listener.timers.due? now with
        | some run, _ => t.fireSessionWithin .last net run.id now
        | none, some run => t.fireReportsWithin .last net run.id run.job now
        | none, none => t
      else t.nextError now
    (n.withTunnel changed).deliver now

end NetworkedGateway

end MulticastTunnel
