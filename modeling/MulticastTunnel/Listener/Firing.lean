import MulticastTunnel.Listener.Basic

/-!
# When an alarm of the listener goes off

An alarm goes off when its run wakes up. What is to be reported is read from the records at that
very moment, and then sent while the records may change again: `begin` makes a `Firing` of
reports to be sent, `finish` is called when they are sent. `fire` does both at once, for when
sending takes no time.
-/

namespace MulticastTunnel

/-- Reports that an alarm handed out, to be sent by its run. -/
structure Firing where
  run : Nat
  job : ReportJob
  reports : List Report
  /-- The delay after which the alarm is to be set again. -/
  next : Option Duration
  deriving DecidableEq

namespace Listener

/-- A report in parts of at most the configured length. -/
def parts (l : Listener) (records : List Record) : List Report :=
  (Report.mk records).splitToFit l.config.maxReportLength

/-! ### What is to be reported -/

/-- The response to general queries: the state of all groups, one family after the other. -/
def generalResponse (l : Listener) : List Report :=
  let records := l.groups.filterMap GroupState.currentState
  let (v4, v6) := records.partition fun r => r.group.isV4
  l.parts v4 ++ l.parts v6

/-- The response to the queries about a group, which are thereby answered. -/
def groupResponse (l : Listener) (group : Address) : Listener × List Report :=
  match l.groups.get? group with
  | none => (l, [])
  | some g =>
    match g.asked with
    | none => (l, [])
    | some asked =>
      (l.keepOrDrop { g with asked := none }, l.parts (g.response asked).toList)

/-- The report of a group's change, and the delay until the next one if any are left. -/
def changeReport (l : Listener) (group : Address) : Listener × List Report × Option Duration :=
  match l.groups.get? group with
  | none => (l, [], none)
  | some g =>
    match g.change with
    | none => (l, [], none)
    | some change =>
      let reports := l.parts (change.records group g.filter)
      match change.transmitted with
      | some left =>
        (l.put { g with change := some left }, reports, some l.config.changeReportInterval)
      | none => (l.keepOrDrop { g with change := none }, reports, none)

/-- What a job has to report. -/
def report (l : Listener) (job : ReportJob) : Listener × List Report × Option Duration :=
  if l.closed then (l, [], none)
  else
    match job with
    | .general => (l, l.generalResponse, none)
    | .query group =>
      let (l, reports) := l.groupResponse group
      (l, reports, none)
    | .change group => l.changeReport group

/-! ### Runs -/

/-- A run wakes up. If its alarm still waits for it, the alarm goes off. -/
def begin (l : Listener) (run : Nat) (job : ReportJob) : Listener × Option Firing :=
  match (l.alarm? job).bind (·.wake run) with
  | none => ({ l with timers := l.timers.remove run }, none)
  | some alarm =>
    let l := { l with timers := l.timers.setPhase run .acting }.putAlarm job alarm
    let (l, reports, next) := l.report job
    (l, some ⟨run, job, reports, next⟩)

/-- All reports of a firing are sent. -/
def finish (l : Listener) (f : Firing) (now : Instant) : Listener :=
  match l.alarm? f.job with
  | none => { l with timers := l.timers.remove f.run }
  | some alarm =>
    let (timers, alarm) := alarm.finish l.timers f.run f.next now
    { l with timers }.putAlarm f.job alarm

/-- All reports of a firing are sent, on a clock whose last time is `last`. If it can not show when
the alarm is to go off again, the run breaks off. -/
def finishWithin (l : Listener) (last : Instant) (f : Firing) (now : Instant) : Listener :=
  let finished := l.finish f now
  if finished.timers.fits last then finished else l.brokenOff finished f.job .idle

/-- A run wakes up, and sending takes no time. -/
def fire (l : Listener) (run : Nat) (job : ReportJob) (now : Instant) : Listener × List Report :=
  match l.begin run job with
  | (l, none) => (l, [])
  | (l, some f) => (l.finish f now, f.reports)

end Listener

end MulticastTunnel
