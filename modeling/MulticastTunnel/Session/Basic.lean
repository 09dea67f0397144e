import MulticastTunnel.Config

/-!
# The session with a relay

A `Session` is the gateway's side of the handshake, without any input or output of its own:

* in `discovering`, discovery messages look for a relay;
* in `requesting`, requests ask the relay found for a tunnel;
* in `active` the tunnel is up. A request now and then refreshes it, and a discovery message now
  and then finds out whether another relay should be used;
* `closed` is the end.

Messages are retransmitted with growing delays. When requests remain unanswered, the session
falls back to discovery a limited number of times.

What a session becomes may not fit: `Session.fits` tells. An operation whose result does not fit
breaks off, and leaves the session halfway between what it was and what it should have become.
-/

namespace MulticastTunnel

/-- How far the handshake has come. -/
inductive Phase where
  | discovering
  | requesting
  | active
  | closed
  deriving DecidableEq, Inhabited

/-- The name of a phase. -/
def Phase.text : Phase → String
  | discovering => "DISCOVERING"
  | requesting => "REQUESTING"
  | active => "ACTIVE"
  | closed => "CLOSED"

/-- The state of the handshake with a relay. -/
structure Session where
  config : Config
  phase : Phase
  /-- The relay's own address, once it is known. -/
  relay : Option Endpoint
  /-- The nonce that an advertisement has to carry. -/
  discoveryNonce : Option UInt32
  /-- The nonce of the last request, which a query has to carry. -/
  requestNonce : Option UInt32
  /-- The authentication code of the last accepted query. -/
  mac : ResponseMac
  /-- The address under which a relay sees the gateway, as last announced. -/
  gatewayAddress : Option GatewayAddress
  /-- The number of messages sent in this phase. -/
  attempts : Nat
  discoveryBackoff : Backoff
  requestBackoff : Backoff
  /-- How often the handshake has fallen back to discovery, a number of 32 bits in a session that
  `fits`. -/
  restarts : Nat
  /-- Nobody listens at the relay's address. -/
  refused : Bool
  /-- The number of socket errors since the last success. -/
  ioFailures : Nat
  /-- The last refresh has not been answered yet. -/
  refreshPending : Bool
  /-- The time between two refreshes. -/
  queryInterval : Duration
  refreshAt : Option Instant
  rediscoverAt : Option Instant
  deriving DecidableEq

namespace Session

/-- Discovery is to begin. -/
def start (config : Config) : Session where
  config
  phase := .discovering
  relay := none
  discoveryNonce := none
  requestNonce := none
  mac := 0
  gatewayAddress := none
  attempts := 0
  discoveryBackoff := .start config.discoveryBackoff
  requestBackoff := .start config.requestBackoff
  restarts := 0
  refused := false
  ioFailures := 0
  refreshPending := false
  queryInterval := config.defaultQueryInterval
  refreshAt := none
  rediscoverAt := none

/-- Discovery is to begin, provided that no delays shrink. -/
def start? (config : Config) : Except Fault Session := do
  let _ ← Backoff.start? config.discoveryBackoff
  let _ ← Backoff.start? config.requestBackoff
  return start config

/-- A clock whose last time is `last` can show the times at which refresh and discovery are due, and
the number of restarts has 32 bits. -/
def fits (s : Session) (last : Instant) : Bool :=
  s.refreshAt.all (· ≤ last) && s.rediscoverAt.all (· ≤ last) && s.restarts < 0x100000000

/-- Where an update is to be sent, and with which credentials. Only an active session has a
target. -/
def updateTarget? (s : Session) : Option (Endpoint × ResponseMac × UInt32) :=
  if s.phase = .active then do return (← s.relay, s.mac, ← s.requestNonce)
  else none

/-- Looks for a relay anew. -/
def enterDiscovering (s : Session) : Session :=
  { s with
    phase := .discovering
    relay := none
    discoveryNonce := none
    requestNonce := none
    attempts := 0
    discoveryBackoff := s.discoveryBackoff.reset }

/-- Asks the relay for a tunnel anew. -/
def enterRequesting (s : Session) : Session :=
  { s with
    phase := .requesting
    requestNonce := none
    refreshPending := false
    attempts := 0
    requestBackoff := s.requestBackoff.reset }

end Session

end MulticastTunnel
