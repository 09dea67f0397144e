import MulticastTunnel.Session.Basic

/-!
# What a session is told

Advertisements and queries of a relay move the handshake on, if they carry the nonce they answer
and come from the right place. Socket errors count, and may make an active session ask for its
tunnel again. Closing a session may call for a teardown message.
-/

namespace MulticastTunnel

/-- What a query meant for a session. -/
inductive QueryOutcome where
  /-- The query does not belong to this session. -/
  | rejected
  /-- The query brought the tunnel up; the session's alarm is to be set to `refreshAfter`. -/
  | activated (refreshAfter : Duration)
  | accepted
  deriving DecidableEq

/-- What a socket error meant for a session. -/
inductive IoOutcome where
  | continue
  /-- The session has lost its tunnel, and is to ask for it at once. -/
  | reestablish
  /-- The session has failed for good. -/
  | fatal (error : GatewayError)
  deriving DecidableEq

namespace Session

/-- An advertisement. The answer tells whether the relay is to be asked for a tunnel at once. An
active session ignores an advertisement of its own relay, and moves to another relay. -/
def onAdvertisement (s : Session) (nonce : UInt32) (relay : Address) : Bool × Session :=
  if s.phase ≠ .discovering ∧ s.phase ≠ .active then (false, s)
  else if s.discoveryNonce ≠ some nonce then (false, s)
  else if !relay.sameFamily s.config.discoveryAddress.address then (false, s)
  else
    let answered := { s with discoveryNonce := none }
    let endpoint := Endpoint.of relay s.config.relayPort
    if s.phase = .active ∧ s.relay = some endpoint then (false, answered)
    else (true, { answered with relay := some endpoint }.enterRequesting)

/-- The time between two refreshes that a query asks for; zero leaves it open. -/
def announcedInterval (s : Session) (interval : Option Duration) : Duration :=
  (interval.filter (· ≠ 0)).getD s.config.defaultQueryInterval

/-- A membership query, with the credentials it announces. -/
def onQuery (s : Session) (sender : Endpoint) (nonce : UInt32) (mac : ResponseMac)
    (gatewayAddress : Option GatewayAddress) (interval : Option Duration) (now : Instant) :
    QueryOutcome × Session :=
  if s.phase ≠ .requesting ∧ s.phase ≠ .active then (.rejected, s)
  else if s.relay ≠ some sender then (.rejected, s)
  else if s.requestNonce ≠ some nonce then (.rejected, s)
  else
    let queryInterval := s.announcedInterval interval
    let answered := { s with
      mac
      gatewayAddress := gatewayAddress <|> s.gatewayAddress
      queryInterval
      refreshPending := false }
    if s.phase = .requesting then
      (.activated (min queryInterval s.config.rediscoveryInterval),
        { answered with
          phase := .active
          refreshAt := some (now + queryInterval)
          rediscoverAt := some (now + s.config.rediscoveryInterval)
          restarts := 0
          refused := false
          ioFailures := 0 })
    else (.accepted, answered)

/-- What is left of a session that breaks off when a query is to make it the session `up`: what the
query announces has been noted, and when the refresh is due if the clock, whose last time is `last`,
can show that. -/
def queryBrokenOff (s up : Session) (last : Instant) : Session :=
  { s with
    mac := up.mac
    gatewayAddress := up.gatewayAddress
    queryInterval := up.queryInterval
    refreshPending := up.refreshPending
    refreshAt := if up.refreshAt.all (· ≤ last) then up.refreshAt else s.refreshAt }

/-- A message was sent or received. -/
def onIoSuccess (s : Session) : Session := { s with ioFailures := 0 }

/-- A socket error. Too many in a row end the session. -/
def onIoError (s : Session) (error : IoError) : IoOutcome × Session :=
  if s.phase = .closed then (.continue, s)
  else
    let failing := { s with ioFailures := s.ioFailures + 1 }
    if s.config.maxIoFailures ≤ s.ioFailures + 1 then
      (.fatal (.socketIo error), { failing with phase := .closed })
    else
      match s.phase with
      | .active => (.reestablish, failing.enterRequesting)
      | .requesting =>
        (.continue, if error.isRefusal then { failing with refused := true } else failing)
      | _ => (.continue, failing)

/-- The message that tells the relay of the end, if it is to be told. -/
def teardown? (s : Session) : Option (Message × Endpoint) :=
  if s.phase = .active then do
    return (.teardown s.mac (← s.requestNonce) (← s.gatewayAddress), ← s.relay)
  else none

/-- Ends the session. -/
def close (s : Session) : Option (Message × Endpoint) × Session :=
  (s.teardown?, { s with phase := .closed })

end Session

end MulticastTunnel
