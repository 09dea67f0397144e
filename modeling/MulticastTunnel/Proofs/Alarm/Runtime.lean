import Mathlib.Data.List.Induction
import MulticastTunnel.Proofs.Alarm.Tasks

/-!
# Alarms, their tasks and the clock

Alarms are set and cancelled from outside, at any time, and their tasks go on in any order. What a
task does next depends on nothing but its phase, the clock and its alarm, which it asks before and
after its work.

* `Alarm.Runtime.react` : everything that can happen to alarms, tasks and the clock.
* `Alarm.Runtime.Move`, `Alarm.Runtime.move_react` : the ways in which it changes them.
* `Alarm.Runtime.agrees_run` : alarms, register and tasks agree, whatever has happened.
-/

namespace MulticastTunnel

namespace Alarm

open Function (update update_self update_of_ne)

/-- The beginning of the work of a task: the arming that it is for, when that was due, and when the
work began. -/
structure Start (J : Type) where
  run : Nat
  job : J
  arming : Nat
  due : Instant
  time : Instant
  deriving DecidableEq

/-- What can happen, as long as the register is not shut down. -/
inductive Event (J : Type) where
  | pass (time : Duration)
  /-- An alarm is set to a time, which may have passed. An alarm that is to go off after a delay is
  set to the time at which the delay will be over. -/
  | set (job : J) (due : Instant)
  /-- An alarm is cancelled, or dropped, which cancels it. -/
  | cancel (job : J)
  /-- The task of a run wakes up, if its time has come. -/
  | wake (run : Nat)
  /-- A task that has woken up asks its alarm, and acts or is over. -/
  | begin (run : Nat)
  /-- A task has finished its work, which is to be done again after a delay, if one is given. -/
  | finish (run : Nat) (next : Option Duration)
  deriving DecidableEq

/-- The state of the clock, of the alarms of all jobs, of their register and of their tasks. The
armings of all alarms are recorded, each with the time it set the alarm to, and so is all work that
has begun. -/
structure Runtime (J : Type) where
  now : Instant
  alarm : J → Alarm
  timers : Timers J
  /-- How often each alarm has been set from outside, or cancelled. -/
  generation : J → Nat
  armings : List (J × Instant)
  tasks : List (Task J)
  starts : List (Start J)

namespace Runtime

variable {J : Type}

/-- No alarm has been set yet. -/
def start : Runtime J := ⟨0, fun _ => .idle, .empty, fun _ => 0, [], [], []⟩

/-- The task of a run. -/
def task? (s : Runtime J) (run : Nat) : Option (Task J) := s.tasks.find? fun t => t.run = run

theorem mem_of_task? {s : Runtime J} {run : Nat} {t : Task J} (h : s.task? run = some t) :
    t ∈ s.tasks ∧ t.run = run :=
  ⟨List.mem_of_find?_eq_some h, by simpa using List.find?_some h⟩

variable [DecidableEq J]

def set (s : Runtime J) (job : J) (due : Instant) : Runtime J :=
  let (timers, alarm) := (s.alarm job).setAt s.timers job due
  let generation := s.generation job + 1
  { s with
    alarm := update s.alarm job alarm
    timers
    generation := update s.generation job generation
    armings := s.armings ++ [(job, due)]
    tasks := abort s.timers timers s.tasks ++
      [⟨s.timers.nextId, job, generation, s.armings.length, .asleep due⟩] }

def cancel (s : Runtime J) (job : J) : Runtime J :=
  let (timers, alarm) := (s.alarm job).cancel s.timers
  { s with
    alarm := update s.alarm job alarm
    timers
    generation := update s.generation job (s.generation job + 1)
    tasks := abort s.timers timers s.tasks }

omit [DecidableEq J] in
def wake (s : Runtime J) (t : Task J) : Runtime J :=
  match t.phase with
  | .asleep due =>
    if due ≤ s.now then
      { s with tasks := replace (t.goesOn t.arming (.awake due)) s.tasks }
    else s
  | _ => s

def begin (s : Runtime J) (t : Task J) : Runtime J :=
  match t.phase with
  | .awake due =>
    match (s.alarm t.job).wake t.run with
    | some alarm =>
      { s with
        alarm := update s.alarm t.job alarm
        timers := s.timers.setPhase t.run .acting
        tasks := replace (t.goesOn t.arming .acting) s.tasks
        starts := s.starts ++ [⟨t.run, t.job, t.arming, due, s.now⟩] }
    | none => { s with timers := s.timers.remove t.run, tasks := without t.run s.tasks }
  | _ => s

def finish (s : Runtime J) (t : Task J) (next : Option Duration) : Runtime J :=
  match t.phase with
  | .acting =>
    let (timers, alarm) := (s.alarm t.job).finish s.timers t.run next s.now
    let s' := { s with alarm := update s.alarm t.job alarm, timers }
    -- a task whose alarm has been set or cancelled meanwhile does not look at the delay
    match if s.alarm t.job = .acting t.run then next else none with
    | some delay =>
      { s' with
        armings := s.armings ++ [(t.job, s.now + delay)]
        tasks := replace (t.goesOn s.armings.length (.asleep (s.now + delay))) s.tasks }
    | none => { s' with tasks := without t.run s.tasks }
  | _ => s

/-- What happens next. A task that is not there, or in another phase, does nothing. -/
def react (s : Runtime J) : Event J → Runtime J
  | .pass time => { s with now := s.now + time }
  | .set job due => s.set job due
  | .cancel job => s.cancel job
  | .wake run => (s.task? run).elim s s.wake
  | .begin run => (s.task? run).elim s s.begin
  | .finish run next => (s.task? run).elim s fun t => s.finish t next

/-- What comes of anything that happens, in any order. -/
def run (events : List (Event J)) : Runtime J := events.foldl react start

/-- What an event changes. -/
inductive Move (s : Runtime J) : Event J → Runtime J → Prop where
  | none {e} : Move s e s
  | pass {time} : Move s (.pass time) { s with now := s.now + time }
  | set {job due} : Move s (.set job due) (s.set job due)
  | cancel {job} : Move s (.cancel job) (s.cancel job)
  | wake {t due} (ht : t ∈ s.tasks) (asleep : t.phase = .asleep due) (ripe : due ≤ s.now) :
      Move s (.wake t.run) { s with tasks := replace (t.goesOn t.arming (.awake due)) s.tasks }
  | begin {t due set} (ht : t ∈ s.tasks) (awake : t.phase = .awake due)
      (waiting : s.alarm t.job = .waiting t.run set) :
      Move s (.begin t.run)
        { s with
          alarm := update s.alarm t.job (.acting t.run)
          timers := s.timers.setPhase t.run .acting
          tasks := replace (t.goesOn t.arming .acting) s.tasks
          starts := s.starts ++ [⟨t.run, t.job, t.arming, due, s.now⟩] }
  | discard {t due} (ht : t ∈ s.tasks) (awake : t.phase = .awake due)
      (forgotten : s.alarm t.job ≠ t.memory) :
      Move s (.begin t.run)
        { s with timers := s.timers.remove t.run, tasks := without t.run s.tasks }
  | again {t delay} (ht : t ∈ s.tasks) (acting : t.phase = .acting)
      (belongs : s.alarm t.job = .acting t.run) :
      Move s (.finish t.run (some delay))
        { s with
          alarm := update s.alarm t.job (.waiting t.run (s.now + delay))
          timers := s.timers.setPhase t.run (.asleep (s.now + delay))
          armings := s.armings ++ [(t.job, s.now + delay)]
          tasks := replace (t.goesOn s.armings.length (.asleep (s.now + delay))) s.tasks }
  | ended {t next a} (ht : t ∈ s.tasks) (acting : t.phase = .acting)
      (ends : a = s.alarm t.job ∧ s.alarm t.job ≠ .acting t.run ∨
        a = .idle ∧ s.alarm t.job = .acting t.run) :
      Move s (.finish t.run next)
        { s with
          alarm := update s.alarm t.job a
          timers := s.timers.remove t.run
          tasks := without t.run s.tasks }

variable {s s' : Runtime J} {t : Task J} {e : Event J}

theorem move_wake (ht : t ∈ s.tasks) : Move s (.wake t.run) (s.wake t) := by
  unfold wake
  split
  · next due asleep =>
    split
    · next ripe => exact .wake ht asleep ripe
    · exact .none
  · exact .none

theorem move_begin (ht : t ∈ s.tasks) : Move s (.begin t.run) (s.begin t) := by
  unfold begin
  split
  · next due awake =>
    cases asked : s.alarm t.job with
    | waiting current set =>
      by_cases same : current = t.run
      · subst same
        simpa [Alarm.wake] using Move.begin ht awake asked
      · have forgotten : s.alarm t.job ≠ t.memory := by simp [asked, Task.memory, awake, same]
        simpa [Alarm.wake, same] using Move.discard ht awake forgotten
    | _ =>
      have forgotten : s.alarm t.job ≠ t.memory := by simp [asked, Task.memory, awake]
      simpa [Alarm.wake] using Move.discard ht awake forgotten
  · exact .none

theorem move_finish (ht : t ∈ s.tasks) (next : Option Duration) :
    Move s (.finish t.run next) (s.finish t next) := by
  unfold finish
  split
  · next acting =>
    by_cases belongs : s.alarm t.job = .acting t.run
    · cases next with
      | some delay =>
        simpa [Alarm.finish, belongs] using Move.again ht acting belongs
      | none =>
        simpa [Alarm.finish, belongs] using Move.ended ht acting (.inr ⟨rfl, belongs⟩)
    · simpa [Alarm.finish, belongs] using Move.ended ht acting (.inl ⟨rfl, belongs⟩)
  · exact .none

/-- **Every event is one of the moves.** -/
theorem move_react (s : Runtime J) (e : Event J) : Move s e (s.react e) := by
  -- the event is about a task, or about none that is there
  have move (run : Nat) {f : Task J → Runtime J} {e : Event J}
      (known : ∀ t ∈ s.tasks, t.run = run → Move s e (f t)) :
      Move s e ((s.task? run).elim s f) := by
    cases found : s.task? run with
    | none => exact .none
    | some t => exact known t (mem_of_task? found).1 (mem_of_task? found).2
  cases e with
  | pass time => exact .pass
  | set job due => exact .set
  | cancel job => exact .cancel
  | wake run => exact move run fun t ht is => is ▸ move_wake ht
  | begin run => exact move run fun t ht is => is ▸ move_begin ht
  | finish run next => exact move run fun t ht is => is ▸ move_finish ht next

/-! ### Alarms, register and tasks agree -/

/-- Alarms, register and tasks agree. -/
def Agrees (s : Runtime J) : Prop := Alarm.Agrees s.alarm s.timers s.generation s.tasks

theorem Agrees.move (h : s.Agrees) (m : Move s e s') : s'.Agrees := by
  cases m with
  | none => exact h
  | pass => exact h
  | set => exact h.set ..
  | cancel => exact h.cancel _
  | wake ht asleep ripe => exact h.wake ht asleep
  | begin ht awake waiting => exact h.begin ht waiting
  | discard ht awake forgotten => exact h.discard ht (by simp [awake]) forgotten
  | again ht acting belongs => exact h.again ht acting belongs ..
  | ended ht acting ends => exact h.ended ht acting ends

end Runtime

end Alarm

end MulticastTunnel
