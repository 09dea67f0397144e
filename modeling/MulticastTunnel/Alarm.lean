import MulticastTunnel.Duration

/-!
# Alarms

An `Alarm` is a unit of delayed work that can be set, set anew and cancelled. At most one firing
is pending at any time: setting an alarm again replaces the time it was set to. Work that has
begun is not interrupted, but an alarm that was set or cancelled meanwhile ignores the end of it.
Otherwise the end of the work decides whether the alarm is set again, and after which delay.

Every setting starts a *run*, which sleeps until the alarm is due and then does the work. The
runs that are asleep or at work are registered with a `Timers` service, numbered in the order
they were started; shutting the service down ends all of them. An alarm belongs to the run it
remembers: a run that wakes up or ends without its alarm remembering it has been superseded.

Alarms are set to any time here. A clock has a last one, and what would set an alarm to a later time
breaks off instead: whether the times of all runs fit a clock is told by `Timers.fits`.
-/

namespace MulticastTunnel

/-! ### Runs and the service -/

/-- What a run is doing. -/
inductive RunPhase where
  | asleep (due : Instant)
  | acting
  deriving DecidableEq, Inhabited

/-- A registered run, started for the alarm of `job`. -/
structure Run (J : Type) where
  id : Nat
  job : J
  phase : RunPhase
  deriving DecidableEq

/-- The registered runs, and the number of the next one. -/
structure Timers (J : Type) where
  nextId : Nat
  live : List (Run J)
  deriving DecidableEq

namespace Timers

variable {J : Type}

/-- No run has been started yet. -/
def empty : Timers J := ⟨0, []⟩

instance : Inhabited (Timers J) := ⟨empty⟩

/-- Starts a run that sleeps until `due`. -/
def spawn (timers : Timers J) (job : J) (due : Instant) : Timers J × Nat :=
  (⟨timers.nextId + 1, timers.live ++ [⟨timers.nextId, job, .asleep due⟩]⟩, timers.nextId)

/-- Ends a run and removes it from the register. -/
def remove (timers : Timers J) (id : Nat) : Timers J :=
  { timers with live := timers.live.filter fun run => run.id != id }

/-- A registered run goes to sleep or to work. -/
def setPhase (timers : Timers J) (id : Nat) (phase : RunPhase) : Timers J :=
  { timers with live := timers.live.map fun run =>
      if run.id = id then { run with phase } else run }

/-- Ends all runs, those at work included. -/
def shutdown (timers : Timers J) : Timers J := { timers with live := [] }

/-- The registered run with a number. -/
def find? (timers : Timers J) (id : Nat) : Option (Run J) :=
  timers.live.find? fun run => run.id == id

/-- The number of registered runs. -/
def registered (timers : Timers J) : Nat := timers.live.length

/-- The text shown for a service: the number of registered runs. -/
def text (timers : Timers J) : String :=
  "TimerService\x7bregistered:" ++ toString timers.registered ++ "\x7d"

/-- The earliest time at which a sleeping run is due. -/
def nextDue? (timers : Timers J) : Option Instant :=
  timers.live.foldl (fun earliest run =>
    match run.phase with
    | .asleep due => some (earliest.elim due (min due))
    | .acting => earliest) none

/-- A clock whose last time is `last` can show all times at which runs are to wake up. -/
def fits (timers : Timers J) (last : Instant) : Bool :=
  timers.live.all fun run =>
    match run.phase with
    | .asleep due => due ≤ last
    | .acting => true

/-- The first of the sleeping runs that are due at `now`, by the time they were due. -/
def due? (timers : Timers J) (now : Instant) : Option (Run J) := do
  let due ← timers.nextDue?
  if now < due then none
  else timers.live.find? fun run => run.phase == .asleep due

end Timers

/-! ### Alarms -/

/-- A unit of delayed work. -/
inductive Alarm where
  | idle
  /-- Set to go off at `due`, in the given run. -/
  | waiting (run : Nat) (due : Instant)
  /-- Went off, and the given run is at work. -/
  | acting (run : Nat)
  deriving DecidableEq, Inhabited

namespace Alarm

variable {J : Type}

/-- The time an alarm is set to. -/
def due? : Alarm → Option Instant
  | waiting _ due => some due
  | _ => none

/-- Whether the alarm is set. -/
def isSet (a : Alarm) : Bool := a.due?.isSome

/-- The time left until the alarm goes off. -/
def remaining? (a : Alarm) (now : Instant) : Option Duration := a.due?.map fun due => due - now

/-- The text shown for an alarm: its name, and the time left until it goes off. -/
def text (a : Alarm) (name : String) (now : Instant) : String :=
  "ReschedulableTimerTask\x7b" ++ name ++ ":"
    ++ (a.remaining? now).elim "None" (fun left => "Some(" ++ left.text ++ ")") ++ "\x7d"

/-- Withdraws the run that waits for the alarm to go off. A run at work is left to finish. -/
def withdraw (a : Alarm) (timers : Timers J) : Timers J :=
  match a with
  | waiting run _ => timers.remove run
  | _ => timers

/-- Sets the alarm of `job` to a time, which may have passed. -/
def setAt (a : Alarm) (timers : Timers J) (job : J) (due : Instant) : Timers J × Alarm :=
  let (timers, run) := (a.withdraw timers).spawn job due
  (timers, waiting run due)

/-- Cancels the alarm, so that it does not go off until it is set again. -/
def cancel (a : Alarm) (timers : Timers J) : Timers J × Alarm := (a.withdraw timers, idle)

/-- A run wakes up: if the alarm still waits for it, its work begins. -/
def wake (a : Alarm) (run : Nat) : Option Alarm :=
  match a with
  | waiting current _ => if current = run then some (acting run) else none
  | _ => none

/-- A run has finished its work at `now`: if the alarm still belongs to it, the alarm is set
again after the delay `next`, if there is one. Otherwise the run is over. -/
def finish (a : Alarm) (timers : Timers J) (run : Nat) (next : Option Duration) (now : Instant) :
    Timers J × Alarm :=
  if a = acting run then
    match next with
    | some delay => (timers.setPhase run (.asleep (now + delay)), waiting run (now + delay))
    | none => (timers.remove run, idle)
  else (timers.remove run, a)

end Alarm

end MulticastTunnel
