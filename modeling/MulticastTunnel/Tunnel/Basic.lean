import MulticastTunnel.Counters
import MulticastTunnel.Datagram
import MulticastTunnel.Listener.Calls
import MulticastTunnel.Listener.Firing
import MulticastTunnel.Message.Wire
import MulticastTunnel.Queue
import MulticastTunnel.Randomness
import MulticastTunnel.Session.Answers
import MulticastTunnel.Session.Timer

/-!
# The tunnel

A `Tunnel` joins the session, the listener and the sink of received datagrams to a socket. It is
a state that changes with time, with what the socket receives and with the calls of the host.

What it does to the outside is in its `effects`, in order. Whether the socket takes a datagram is
decided by a `Transmit`, so that every behaviour of a network is covered.
-/

namespace MulticastTunnel

/-- What the socket does with a datagram for an endpoint: it is on its way, or there is an
error. -/
abbrev Transmit := Endpoint → Bytes → Option IoError

/-- How a tunnel is doing. The last two are final. -/
inductive TunnelStatus where
  | running
  | closed
  | failed (error : GatewayError)
  deriving DecidableEq

/-- What a tunnel has done to the outside. -/
inductive Effect where
  /-- A message was put on the wire. -/
  | sent (recipient : Endpoint) (message : Message)
  /-- A datagram was handed to the sink, which took it or not. -/
  | handed (datagram : Datagram) (taken : Bool)
  deriving DecidableEq

/-- The gateway's side of a tunnel. -/
structure Tunnel where
  config : Config
  session : Session
  sessionAlarm : Alarm
  sessionTimers : Timers Unit
  listener : Listener
  sink : Queue Datagram
  counters : Counters
  status : TunnelStatus
  random : Randomness
  /-- Socket errors of reports, which are dealt with after the reports' alarm has done its
  work. -/
  errors : List IoError
  effects : List Effect

namespace Tunnel

/-- A clock whose last time is `last` can show all times of a tunnel. -/
def fits (t : Tunnel) (last : Instant) : Bool :=
  t.sessionTimers.fits last && t.session.fits last && t.listener.timers.fits last

/-- Counts one more event. -/
def count (t : Tunnel) (event : Counters.Event) : Tunnel :=
  { t with counters := t.counters.count event }

/-- Sets the alarm of the session to go off after a delay. -/
def setAlarm (t : Tunnel) (now : Instant) (delay : Duration) : Tunnel :=
  let (sessionTimers, sessionAlarm) := t.sessionAlarm.setAt t.sessionTimers () (now + delay)
  { t with sessionTimers, sessionAlarm }

/-- Cancels the alarm of the session. -/
def cancelAlarm (t : Tunnel) : Tunnel :=
  let (sessionTimers, sessionAlarm) := t.sessionAlarm.cancel t.sessionTimers
  { t with sessionTimers, sessionAlarm }

/-- Forgets everything that was to be reported. -/
def cancelPending (t : Tunnel) : Tunnel := { t with listener := t.listener.cancelPending }

/-- A tunnel whose session is about to begin. -/
def start (config : Config) (random : Randomness) (now : Instant) : Except String Tunnel :=
  match config.problem with
  | some problem => .error problem
  | none => .ok (setAlarm {
      config
      session := .start config
      sessionAlarm := .idle
      sessionTimers := .empty
      listener := .start config
      sink := .empty config.queueCapacity
      counters := .zero
      status := .running
      random
      errors := []
      effects := [] } now 0)

/-- Sends a message. The answer is the error of the socket, if there is one. -/
def transmit (t : Tunnel) (net : Transmit) (message : Message) (recipient : Endpoint) :
    Option IoError × Tunnel :=
  match net recipient message.encode with
  | some error => (some error, t)
  | none =>
    (none, { t with
      session := t.session.onIoSuccess
      effects := t.effects ++ [.sent recipient message] })

/-! ### Failure and end -/

/-- Takes the final status, unless there is one already. -/
def settle (t : Tunnel) (status : TunnelStatus) : Tunnel :=
  if t.status = .running then { t with status } else t

/-- Stops all work: the session is closed, its alarm cancelled, and the listener shut down. -/
def stop (t : Tunnel) : Tunnel :=
  { { t with session := t.session.close.2 }.cancelAlarm with listener := t.listener.shutdown }

/-- The session has failed for good. -/
def fail (t : Tunnel) (error : GatewayError) : Tunnel := t.stop.settle (.failed error)

/-- Deals with an error of the socket. -/
def onIoError (t : Tunnel) (now : Instant) (error : IoError) : Tunnel :=
  let (outcome, session) := t.session.onIoError error
  let t := { t with session }
  match outcome with
  | .continue => t
  | .reestablish => t.cancelPending.setAlarm now 0
  | .fatal error => t.fail error

/-- Ends the tunnel. The relay is told, if the session says so. -/
def close (t : Tunnel) (net : Transmit) : Tunnel :=
  if t.status = .running then
    let stopped := t.stop
    let told := match t.session.teardown? with
      | some (message, recipient) => (stopped.transmit net message recipient).2
      | none => stopped
    told.settle .closed
  else t

end Tunnel

end MulticastTunnel
