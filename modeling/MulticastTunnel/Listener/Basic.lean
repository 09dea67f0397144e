import MulticastTunnel.Config
import MulticastTunnel.Interest.Group
import MulticastTunnel.Jitter
import MulticastTunnel.Report.Split

/-!
# The listener

A `Listener` is the authoritative record of what this host wants to receive, group by group, and
of what it owes its querier: responses to queries, after a random delay, and reports of changes,
several times over. It does not send anything itself; its alarms hand out reports to be sent.

There is one alarm for the response to general queries, and two for each group, for the response
to queries about the group and for the report of a change.
-/

namespace MulticastTunnel

/-- What an alarm of the listener is for. -/
inductive ReportJob where
  /-- The response to general queries. -/
  | general
  /-- The response to queries about a group. -/
  | query (group : Address)
  /-- The report of a change of a group's filter. -/
  | change (group : Address)
  deriving DecidableEq, Inhabited

/-- What is wanted of each group, and what is to be reported when. -/
structure Listener where
  config : Config
  groups : Groups
  generalAlarm : Alarm
  closed : Bool
  timers : Timers ReportJob
  deriving DecidableEq

namespace Listener

/-- Nothing is wanted yet. -/
def start (config : Config) : Listener := ⟨config, [], .idle, false, .empty⟩

/-- The filter of a group, if there is a record of it. -/
def filter? (l : Listener) (group : Address) : Option SourceFilter :=
  (l.groups.get? group).map GroupState.filter

/-! ### Records and alarms -/

/-- Puts a group's record into its place. -/
def put (l : Listener) (g : GroupState) : Listener := { l with groups := l.groups.put g }

/-- Drops a group's record, and its alarms with it. -/
def drop (l : Listener) (g : GroupState) : Listener :=
  { l with
    timers := g.changeAlarm.withdraw (g.queryAlarm.withdraw l.timers)
    groups := l.groups.erase g.group }

/-- Puts a group's record into its place, or drops it if nothing is left in it. -/
def keepOrDrop (l : Listener) (g : GroupState) : Listener :=
  if g.isEvictable then l.drop g else l.put g

/-- The alarm of a job, if it exists. -/
def alarm? (l : Listener) : ReportJob → Option Alarm
  | .general => some l.generalAlarm
  | .query group => (l.groups.get? group).map GroupState.queryAlarm
  | .change group => (l.groups.get? group).map GroupState.changeAlarm

/-- Changes the alarm of a job, if it exists. -/
def putAlarm (l : Listener) (job : ReportJob) (alarm : Alarm) : Listener :=
  match job with
  | .general => { l with generalAlarm := alarm }
  | .query group =>
    match l.groups.get? group with
    | some g => l.put { g with queryAlarm := alarm }
    | none => l
  | .change group =>
    match l.groups.get? group with
    | some g => l.put { g with changeAlarm := alarm }
    | none => l

/-- What is left of a listener if an operation with this result breaks off where it is to set the
alarm of a job: all else has been done, and no run was started or put to sleep. -/
def brokenOff (l result : Listener) (job : ReportJob) (alarm : Alarm) : Listener :=
  { result with timers := l.timers }.putAlarm job alarm

end Listener

end MulticastTunnel
