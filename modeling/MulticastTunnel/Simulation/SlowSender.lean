import MulticastTunnel.Randomness
import MulticastTunnel.Simulation.Clock
import MulticastTunnel.Subscription.Table
import MulticastTunnel.Listener.Firing

/-!
# A listener with a sender that takes time

The reports of a listener are sent one after the other, each taking the time that the sender
needs when it begins. Meanwhile the listener may be told other things. The log holds what was
sent, and when.

The listener comes with subscriptions, which may be none.
-/

namespace MulticastTunnel

/-- A firing whose first report is on its way. -/
structure Sending where
  firing : Firing
  first : Report
  rest : List Report
  ends : Instant
  deriving DecidableEq

/-- A listener and what it is sending. -/
structure SlowSender where
  channels : Channels
  random : Randomness
  /-- The time that sending a report takes. -/
  delay : Duration
  sending : List Sending
  log : List (Instant × Report)

namespace SlowSender

/-- The listener. -/
def listener (s : SlowSender) : Listener := s.channels.listener

/-- Takes over what the listener has become. -/
def withListener (s : SlowSender) (listener : Listener) : SlowSender :=
  { s with channels := { s.channels with listener } }

/-- Nothing is wanted yet. -/
def start (config : Config) (capacity : Nat) (delays : Nat → Nat) (delay : Duration) :
    SlowSender :=
  ⟨⟨.start config, .empty capacity⟩, .fresh (fun _ => 0) delays, delay, [], []⟩

/-- A query of the relay. -/
def query (s : SlowSender) (now : Instant) (q : Query) : SlowSender :=
  let random :=
    if (Jitter.choices (s.listener.window q)).isSome then s.random.afterDelay else s.random
  { s.withListener (s.listener.query now s.random.delay q) with random }

/-- Shuts the service down on which the listener's alarms are. -/
def stopTimers (s : SlowSender) : SlowSender :=
  { s.withListener { s.listener with timers := s.listener.timers.shutdown } with sending := [] }

/-- The receiver of a subscription looks for a datagram. -/
def receive (s : SlowSender) (id : Nat) : Option (Received Datagram) × SlowSender :=
  let (found, subscriptions) := s.channels.subscriptions.receive id
  (found, { s with channels := { s.channels with subscriptions } })

/-- The receiver of a subscription goes. -/
def abandon (s : SlowSender) (id : Nat) : SlowSender :=
  { s with channels := { s.channels with subscriptions := s.channels.subscriptions.abandon id } }

/-- Sends the reports of a firing that are left. -/
def send (s : SlowSender) (firing : Firing) (now : Instant) : List Report → SlowSender
  | [] => s.withListener (s.listener.finishWithin .last firing now)
  | report :: rest =>
    if s.delay = 0 then { s with log := s.log ++ [(now, report)] }.send firing now rest
    else { s with sending := s.sending ++ [⟨firing, report, rest, now + s.delay⟩] }

/-- A run of the listener wakes up. -/
def wake (s : SlowSender) (run : Run ReportJob) (now : Instant) : SlowSender :=
  match s.listener.begin run.id run.job with
  | (listener, none) => s.withListener listener
  | (listener, some firing) => (s.withListener listener).send firing now firing.reports

/-- A report has been sent. -/
def sent (s : SlowSender) (x : Sending) (now : Instant) : SlowSender :=
  { s with
    sending := s.sending.filter fun other => other.firing.run != x.firing.run
    log := s.log ++ [(now, x.first)] }.send x.firing now x.rest

/-- Reports that have been sent come before firings that are due at the same time. -/
def system : System SlowSender where
  due? s := ((s.sending.map Sending.ends) ++ s.listener.timers.nextDue?.toList).min?
  act s now :=
    match s.sending.find? fun x => x.ends ≤ now with
    | some x => s.sent x now
    | none =>
      match s.listener.timers.due? now with
      | some run => s.wake run now
      | none => s

end SlowSender

end MulticastTunnel
