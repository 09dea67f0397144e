import MulticastTunnel.Tunnel.Basic
import MulticastTunnel.Report.Wire

/-!
# When an alarm of the tunnel goes off

The alarm of the session goes off in three parts, between which other things may happen: `wake`
asks the session what to do, `carryOut` does it, and `rest` ends the alarm's work. `fireSession`
is all of them at once.

An alarm of the listener hands out reports, which are sent as updates if the session has a target
for them. `fireReports` sends them all; errors of the socket are left in `errors`.

`fireSessionWithin` and `fireReportsWithin` are the same on a clock that ends.
-/

namespace MulticastTunnel

/-- What became of a report. -/
inductive ReportOutcome where
  | sent
  /-- There was nothing in the report. -/
  | vacuous
  /-- The report was not sent. -/
  | refused (error : GatewayError)
  /-- A broken promise of the library. -/
  | broken (fault : Fault)
  deriving DecidableEq

namespace Tunnel

/-! ### The session's alarm -/

/-- A run of the session's alarm wakes up. If it is the current one, the session says what to do;
an active session that gives up its tunnel gives up its reports, too. -/
def wake (t : Tunnel) (run : Nat) (now : Instant) : Option SessionStep × Tunnel :=
  match t.sessionAlarm.wake run with
  | none => (none, { t with sessionTimers := t.sessionTimers.remove run })
  | some sessionAlarm =>
    let (step, session) := t.session.onTimer now t.random.nonce
    let random := match step with
      | .send .. => t.random.afterNonce
      | _ => t.random
    let woken := { t with
      sessionTimers := t.sessionTimers.setPhase run .acting
      sessionAlarm, session, random }
    let counted := if t.session.restarts < session.restarts then woken.count .restart else woken
    let left := t.session.phase = .active ∧ session.phase ≠ .active
    (some step, if left then counted.cancelPending else counted)

/-- Does what the session said. The answer is the delay after which its alarm is to go off
again. -/
def carryOut (t : Tunnel) (net : Transmit) (now : Instant) :
    SessionStep → Option Duration × Tunnel
  | .send message recipient next =>
    match t.transmit net message recipient with
    | (none, t) => (some next, t)
    | (some error, t) => (some next, t.onIoError now error)
  | .fail error => (none, t.fail error)
  | .idle => (none, t)

/-- The session's alarm has done its work. -/
def rest (t : Tunnel) (run : Nat) (next : Option Duration) (now : Instant) : Tunnel :=
  let (sessionTimers, sessionAlarm) := t.sessionAlarm.finish t.sessionTimers run next now
  { t with sessionTimers, sessionAlarm }

/-- A run of the session's alarm wakes up and does its work. -/
def fireSession (t : Tunnel) (net : Transmit) (run : Nat) (now : Instant) : Tunnel :=
  match t.wake run now with
  | (none, t) => t
  | (some step, t) =>
    let (next, t) := t.carryOut net now step
    t.rest run next now

/-- A run of the session's alarm, on a clock whose last time is `last`. It breaks off where the
session notes a time that the clock can not show, or where the alarm is to be set to one. -/
def fireSessionWithin (t : Tunnel) (last : Instant) (net : Transmit) (run : Nat) (now : Instant) :
    Tunnel :=
  match t.wake run now with
  | (none, woken) => woken
  | (some step, woken) =>
    if woken.session.fits last then
      let (next, done) := woken.carryOut net now step
      let rested := done.rest run next now
      if rested.sessionTimers.fits last then rested else { done with sessionAlarm := .idle }
    else
      { t with
        sessionTimers := woken.sessionTimers
        sessionAlarm := woken.sessionAlarm
        session := t.session.timerBrokenOff now }

/-! ### The listener's alarms -/

/-- The update that tells the relay of a report, or what becomes of the report instead. -/
def compose (t : Tunnel) (report : Report) : Except ReportOutcome (Message × Endpoint) :=
  match t.session.updateTarget? with
  | none => .error (.refused .notConnected)
  | some (relay, mac, nonce) =>
    match report.records with
    | [] => .error .vacuous
    | first :: _ =>
      match report.encode (t.config.reporter first.group.isV4) with
      | .error (.malformed cause) => .error (.refused (.malformedMessage cause))
      | .error (.fault fault) => .error (.broken fault)
      | .ok packet => .ok (.update mac nonce packet, relay)

/-- Sends the update of a report. The session is not asked once more. -/
def submit (t : Tunnel) (net : Transmit) (update : Message) (relay : Endpoint) :
    ReportOutcome × Tunnel :=
  match t.transmit net update relay with
  | (none, t) => (.sent, t.count .report)
  | (some error, t) => (.refused (.socketIo error), { t with errors := t.errors ++ [error] })

/-- Sends a report to the relay. -/
def sendReport (t : Tunnel) (net : Transmit) (report : Report) : ReportOutcome × Tunnel :=
  match t.compose report with
  | .error outcome => (outcome, t)
  | .ok (update, relay) => t.submit net update relay

/-- Sends reports, one after the other. -/
def sendReports (t : Tunnel) (net : Transmit) (reports : List Report) : Tunnel :=
  reports.foldl (fun t report => (t.sendReport net report).2) t

/-- A run of an alarm of the listener wakes up, and its reports are sent. -/
def fireReports (t : Tunnel) (net : Transmit) (run : Nat) (job : ReportJob) (now : Instant) :
    Tunnel :=
  match t.listener.begin run job with
  | (listener, none) => { t with listener }
  | (listener, some firing) =>
    let sent := { t with listener }.sendReports net firing.reports
    { sent with listener := sent.listener.finish firing now }

/-- A run of an alarm of the listener, on a clock whose last time is `last`. -/
def fireReportsWithin (t : Tunnel) (last : Instant) (net : Transmit) (run : Nat) (job : ReportJob)
    (now : Instant) : Tunnel :=
  match t.listener.begin run job with
  | (listener, none) => { t with listener }
  | (listener, some firing) =>
    let sent := { t with listener }.sendReports net firing.reports
    { sent with listener := sent.listener.finishWithin last firing now }

/-- Deals with the first of the socket errors that reports have left. -/
def nextError (t : Tunnel) (now : Instant) : Tunnel :=
  match t.errors with
  | [] => t
  | error :: errors => { t with errors }.onIoError now error

end Tunnel

end MulticastTunnel
