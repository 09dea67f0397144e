import MulticastTunnel.Session.Basic

/-!
# When the session's time has come

`Session.onTimer` says what to do when the alarm of a session goes off: send a message, and come
back after some time; or report that the handshake has failed; or nothing. It takes the current
time and a random nonce, which is used exactly if a message is sent.
-/

namespace MulticastTunnel

/-- What is to be done when the alarm of a session goes off. -/
inductive SessionStep where
  /-- Send a message, and set the alarm again after `next`. -/
  | send (message : Message) (recipient : Endpoint) (next : Duration)
  /-- The session has failed for good. -/
  | fail (error : GatewayError)
  | idle
  deriving DecidableEq

namespace Session

/-- Ends the session with an error. -/
def fail (s : Session) (error : GatewayError) : SessionStep × Session :=
  (.fail error, { s with phase := .closed })

/-- Sends a discovery message. Only an advertisement with its nonce answers it. -/
def discover (s : Session) (nonce : UInt32) (next : Duration) : SessionStep × Session :=
  (.send (.discovery nonce) s.config.discoveryAddress next,
    { s with discoveryNonce := some nonce })

/-- Sends a request to the relay. Only a query with its nonce answers it. -/
def ask (s : Session) (relay : Endpoint) (nonce : UInt32) (next : Duration) :
    SessionStep × Session :=
  (.send (.request nonce s.config.preferMld) relay next, { s with requestNonce := some nonce })

/-- Looking for a relay: one more discovery message, unless there have been enough. -/
def timerDiscovering (s : Session) (nonce : UInt32) : SessionStep × Session :=
  if s.config.maxDiscoveryAttempts ≤ s.attempts then s.fail (.discoveryFailed s.attempts)
  else
    { s with attempts := s.attempts + 1, discoveryBackoff := s.discoveryBackoff.advance }.discover
      nonce s.discoveryBackoff.upcoming

/-- The relay does not give a tunnel: look for a relay again, unless that was tried often
enough. -/
def handshakeFailed (s : Session) (nonce : UInt32) : SessionStep × Session :=
  let failed := { s with restarts := s.restarts + 1 }
  if s.config.maxHandshakeRestarts < s.restarts + 1 then
    failed.fail (if s.refused then .requestRejected s.restarts else .requestTimeout s.restarts)
  else { failed with refused := false }.enterDiscovering.timerDiscovering nonce

/-- Asking for a tunnel: one more request, unless there have been enough or the relay refuses. -/
def timerRequesting (s : Session) (nonce : UInt32) : SessionStep × Session :=
  match s.relay with
  | some relay =>
    if s.attempts < s.config.maxRequestAttempts ∧ ¬ s.refused then
      { s with attempts := s.attempts + 1, requestBackoff := s.requestBackoff.advance }.ask
        relay nonce s.requestBackoff.upcoming
    else s.handshakeFailed nonce
  | none => s.handshakeFailed nonce

/-- The tunnel is up: discovery comes first if it is due; otherwise the tunnel is refreshed, or
given up if the last refresh was not answered. -/
def timerActive (s : Session) (now : Instant) (nonce : UInt32) : SessionStep × Session :=
  match s.relay with
  | none => s.enterDiscovering.timerDiscovering nonce
  | some relay =>
    if s.rediscoverAt.any (· ≤ now) then
      let rediscoverAt := now + s.config.rediscoveryInterval
      let refreshAt := min (s.refreshAt.getD now) rediscoverAt
      { s with rediscoverAt := some rediscoverAt }.discover nonce (refreshAt - now)
    else if s.refreshPending then s.enterRequesting.timerRequesting nonce
    else
      let refreshAt := now + s.queryInterval
      let next := s.rediscoverAt.elim refreshAt (min refreshAt)
      { s with refreshPending := true, refreshAt := some refreshAt }.ask relay nonce (next - now)

/-- What to do when the alarm goes off. -/
def onTimer (s : Session) (now : Instant) (nonce : UInt32) : SessionStep × Session :=
  match s.phase with
  | .discovering => s.timerDiscovering nonce
  | .requesting => s.timerRequesting nonce
  | .active => s.timerActive now nonce
  | .closed => (.idle, s)

/-- What is left of a session that breaks off when its alarm goes off. An active one has noted that
it is to be refreshed or that the last refresh was not answered, unless a discovery was due. -/
def timerBrokenOff (s : Session) (now : Instant) : Session :=
  if s.phase = .active then
    if s.rediscoverAt.any (· ≤ now) then s
    else if s.refreshPending then s.enterRequesting
    else { s with refreshPending := true }
  else s

end Session

end MulticastTunnel
