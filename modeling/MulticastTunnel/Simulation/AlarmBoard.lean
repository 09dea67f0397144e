import MulticastTunnel.Alarm
import MulticastTunnel.Simulation.Clock

/-!
# A board of alarms

Some alarms on one service, each with a plan of how long its work takes and after which delay it
wants to be set again. The board keeps a log of when work begins, and of when work ends that
takes time.
-/

namespace MulticastTunnel

/-- What the work of an alarm is like, firing by firing. -/
structure AlarmPlan where
  /-- The delays after which the alarm is set again. -/
  next : List (Option Duration)
  /-- How long the work takes. -/
  busy : List Duration
  deriving DecidableEq

/-- An alarm that follows a plan. -/
structure PlannedAlarm where
  plan : AlarmPlan
  /-- None after the alarm was dropped. -/
  alarm : Option Alarm
  /-- How often the alarm has gone off. -/
  fired : Nat
  deriving DecidableEq

/-- Work that takes time. -/
structure AlarmWork where
  run : Nat
  index : Nat
  ends : Instant
  next : Option Duration
  deriving DecidableEq

/-- An entry of the log. -/
structure AlarmEntry where
  time : Instant
  index : Nat
  /-- Whether the work has ended, or just begun. -/
  done : Bool
  deriving DecidableEq

/-- The names of the alarms. -/
def AlarmPlan.names : List String := ["a", "b", "c", "d"]

/-- The name of the alarm and what has happened. -/
def AlarmEntry.text (e : AlarmEntry) : String :=
  AlarmPlan.names.getD e.index "?" ++ (if e.done then " done" else " fire")

/-- Alarms on one service. -/
structure AlarmBoard where
  timers : Timers Nat
  alarms : List PlannedAlarm
  work : List AlarmWork
  log : List AlarmEntry
  deriving DecidableEq

namespace AlarmBoard

/-- Alarms that are not set. -/
def start (plans : List AlarmPlan) : AlarmBoard :=
  ⟨.empty, plans.map fun plan => ⟨plan, some .idle, 0⟩, [], []⟩

/-- Changes an alarm that was not dropped. -/
def change (b : AlarmBoard) (index : Nat) (f : Alarm → Timers Nat × Alarm) : AlarmBoard :=
  match b.alarms[index]? with
  | some planned =>
    match planned.alarm with
    | some alarm =>
      let (timers, alarm) := f alarm
      { b with timers, alarms := b.alarms.set index { planned with alarm := some alarm } }
    | none => b
  | none => b

/-- Takes a run of an alarm off the register that has broken off: it is at no work any more. -/
def release (b : AlarmBoard) (index : Nat) : AlarmBoard :=
  let alarm := (b.alarms[index]?).bind PlannedAlarm.alarm
  let broken (run : Run Nat) : Bool :=
    run.job == index && run.phase == .acting && alarm != some (.acting run.id) &&
      b.work.all (·.run != run.id)
  { b with timers := { b.timers with live := b.timers.live.filter fun run => !broken run } }

/-- Sets an alarm. -/
def setAt (b : AlarmBoard) (index : Nat) (due : Instant) : AlarmBoard :=
  let b := b.release index
  b.change index fun alarm => alarm.setAt b.timers index due

/-- Cancels an alarm. -/
def cancel (b : AlarmBoard) (index : Nat) : AlarmBoard :=
  let b := b.release index
  b.change index fun alarm => alarm.cancel b.timers

/-- Drops an alarm. -/
def drop (b : AlarmBoard) (index : Nat) : AlarmBoard :=
  let b := b.cancel index
  { b with alarms := b.alarms.modify index fun planned => { planned with alarm := none } }

/-- Shuts the service down. Alarms can still be set. -/
def shutdown (b : AlarmBoard) : AlarmBoard := { b with timers := b.timers.shutdown, work := [] }

/-- A run has done its work. If the clock can not show when the alarm is to go off again, the run
breaks off, but stays in the register. -/
def finish (b : AlarmBoard) (index run : Nat) (next : Option Duration) (now : Instant) :
    AlarmBoard :=
  match (b.alarms[index]?).bind PlannedAlarm.alarm with
  | some alarm =>
    let (timers, alarm) := alarm.finish b.timers run next now
    b.change index fun _ => if timers.fits .last then (timers, alarm) else (b.timers, .idle)
  | none => { b with timers := b.timers.remove run }

/-- A run wakes up. -/
def wake (b : AlarmBoard) (run : Run Nat) (now : Instant) : AlarmBoard :=
  match b.alarms[run.job]? with
  | none => { b with timers := b.timers.remove run.id }
  | some planned =>
    match planned.alarm.bind (·.wake run.id) with
    | none => { b with timers := b.timers.remove run.id }
    | some alarm =>
      let next := (planned.plan.next[planned.fired]?).join
      let busy := (planned.plan.busy[planned.fired]?).getD 0
      let b := { b with
        timers := b.timers.setPhase run.id .acting
        alarms := b.alarms.set run.job
          { planned with alarm := some alarm, fired := planned.fired + 1 }
        log := b.log ++ [(⟨now, run.job, false⟩ : AlarmEntry)] }
      if busy = 0 then b.finish run.job run.id next now
      else { b with work := b.work ++ [(⟨run.id, run.job, now + busy, next⟩ : AlarmWork)] }

/-- Work ends. -/
def endWork (b : AlarmBoard) (w : AlarmWork) (now : Instant) : AlarmBoard :=
  { b with
    work := b.work.filter fun other => other.run != w.run
    log := b.log ++ [(⟨now, w.index, true⟩ : AlarmEntry)] }.finish w.index w.run w.next now

/-- The time at which some work ends first. -/
def workDue? (b : AlarmBoard) : Option Instant := (b.work.map AlarmWork.ends).min?

/-- Ends of work come before firings that are due at the same time. -/
def system : System AlarmBoard where
  due? b := (b.workDue?.toList ++ b.timers.nextDue?.toList).min?
  act b now :=
    match b.work.find? fun w => w.ends ≤ now with
    | some w => b.endWork w now
    | none =>
      match b.timers.due? now with
      | some run => b.wake run now
      | none => b

end AlarmBoard

end MulticastTunnel
