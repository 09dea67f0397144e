import MulticastTunnel.Listener.Basic
import MulticastTunnel.Query.Basic

/-!
# What the listener is told

Calls of the host (`join`, `leave`, `update`) change the filter of a group, which starts the
report of a change. Queries of the relay set the alarms of responses. When the tunnel goes down,
`cancelPending` forgets everything that was to be reported, since the next query of a relay asks
for all of it; `shutdown` is for good.

All functions take the current time, and `query` a random value for the delay of the response.
-/

namespace MulticastTunnel

namespace Listener

/-! ### Calls of the host -/

/-- Makes `filter` the filter of a group. The report of the change is due after the configured
delay at the latest; a transmission that is due sooner is left where it is. -/
def apply (l : Listener) (now : Instant) (group : Address) (filter : SourceFilter) : Listener :=
  let g := (l.groups.get? group).getD (.fresh group)
  if g.filter = filter then l.keepOrDrop g
  else
    let delay := l.config.changeReportDelay
    let change := PendingChange.record g.change g.filter filter l.config.robustness.toNat
    let late := (g.changeAlarm.remaining? now).elim true (delay < ·)
    let (timers, changeAlarm) :=
      if late then g.changeAlarm.setAt l.timers (.change group) (now + delay)
      else (l.timers, g.changeAlarm)
    { l with timers }.put { g with filter, change := some change, changeAlarm }

/-- Refuses a filter that can not be asked for a group, and any call after the end. -/
def permit (l : Listener) (group : Address) (filter : SourceFilter) : Except GatewayError Unit :=
  match filter.problemFor group with
  | some problem => .error problem.error
  | none => if l.closed then .error .closed else .ok ()

/-- Wants what `filter` describes, besides what is wanted of the group already. -/
def join (l : Listener) (now : Instant) (group : Address) (filter : SourceFilter) :
    Except GatewayError Listener := do
  l.permit group filter
  return l.apply now group (((l.filter? group).map (·.union filter)).getD filter)

/-- Wants nothing of a group any more. -/
def leave (l : Listener) (now : Instant) (group : Address) : Except GatewayError Listener := do
  l.permit group .noInterest
  if (l.filter? group).isNone then return l
  return l.apply now group .noInterest

/-- Wants exactly what `filter` describes of a group. -/
def update (l : Listener) (now : Instant) (group : Address) (filter : SourceFilter) :
    Except GatewayError Listener := do
  l.permit group filter
  if filter.isEmpty && (l.filter? group).isNone then return l
  return l.apply now group filter

/-! ### Queries -/

/-- The window from which the delay of a query's response is drawn. -/
def window (l : Listener) (q : Query) : Duration := l.config.responseWindow q.maxResponseDelay

/-- A general query: the response is due after `delay` at the latest. -/
def generalQuery (l : Listener) (now : Instant) (delay : Duration) : Listener :=
  if (l.generalAlarm.remaining? now).any (· ≤ delay) then l
  else
    let (timers, generalAlarm) := l.generalAlarm.setAt l.timers .general (now + delay)
    { l with timers, generalAlarm }

/-- A query about a group: it joins a response that is waiting, or counts on the general response
if that is due soon enough, or sets the alarm of a response of its own. -/
def groupQuery (l : Listener) (now : Instant) (delay : Duration) (group : Address)
    (sources : List Address) : Listener :=
  match l.groups.get? group with
  | none => l
  | some g =>
    if g.filter.isEmpty then l
    else
      match g.asked with
      | some asked => l.put { g with asked := some (asked.merge sources) }
      | none =>
        if (l.generalAlarm.remaining? now).any (· ≤ delay) then l
        else
          let (timers, queryAlarm) := g.queryAlarm.setAt l.timers (.query group) (now + delay)
          { l with timers }.put { g with asked := some (.ofQuery sources), queryAlarm }

/-- A query of the relay, whose response is delayed by a random value. -/
def query (l : Listener) (now : Instant) (random : Nat) (q : Query) : Listener :=
  if l.closed then l
  else
    let delay := Jitter.delay (l.window q) random
    match q.group with
    | none => l.generalQuery now delay
    | some group => l.groupQuery now delay group q.sources

/-! ### The end of a tunnel -/

/-- Forgets what was to be reported about a group. -/
def forget (timers : Timers ReportJob) (g : GroupState) : Timers ReportJob × GroupState :=
  (g.changeAlarm.withdraw (g.queryAlarm.withdraw timers),
    { g with asked := none, queryAlarm := .idle, change := none, changeAlarm := .idle })

/-- Forgets what was to be reported about some groups, and the groups of which nothing is
wanted. -/
def forgetAll (timers : Timers ReportJob) : Groups → Timers ReportJob × Groups
  | [] => (timers, [])
  | g :: rest =>
    let (timers, g) := forget timers g
    let (timers, rest) := forgetAll timers rest
    (timers, if g.isEvictable then rest else g :: rest)

/-- Forgets everything that was to be reported. -/
def cancelPending (l : Listener) : Listener :=
  let (timers, generalAlarm) := l.generalAlarm.cancel l.timers
  let (timers, groups) := forgetAll timers l.groups
  { l with timers, generalAlarm, groups }

/-- Forgets everything, and refuses further calls. -/
def shutdown (l : Listener) : Listener := { l.cancelPending with groups := [], closed := true }

end Listener

end MulticastTunnel
