import MulticastTunnel.Proofs.Alarm.Register
import MulticastTunnel.Proofs.Listener.Run

/-!
# The alarms of a listener

A listener has one alarm for each job of its runs: those of its records, and the one for general
queries. All of them together are one function of jobs, which the operations on records change in
one or two places.

* `Listener.alarm` : the alarm of each job.
* `Listener.alarm_put`, `Listener.alarm_drop`, `Listener.alarm_putAlarm` : what changes it.
* `Listener.woken` : the listener when an alarm has gone off.
* `Alarm.Serves` : an alarm does what it is for, while reports may be being sent.
-/

namespace MulticastTunnel

open Function (update_eq_self update_comm)

/-! ### Alarms of a listener -/

namespace Listener

variable {l : Listener} {g : GroupState} {group : Address} {job : ReportJob}

/-- The alarm of a job, idle if it does not exist. -/
def alarm (l : Listener) (job : ReportJob) : Alarm := (l.alarm? job).getD .idle

theorem alarm_of_alarm? {a : Alarm} (h : l.alarm? job = some a) : l.alarm job = a := by
  rw [alarm, h, Option.getD_some]

/-- The alarms of a record are those that the listener has for its group. -/
structure Owns (l : Listener) (g : GroupState) : Prop where
  query : l.alarm (.query g.group) = g.queryAlarm
  change : l.alarm (.change g.group) = g.changeAlarm

theorem Owns.of_get? (h : l.groups.get? group = some g) : l.Owns g := by
  obtain rfl := Groups.group_of_get? h
  exact ⟨by simp [alarm, alarm?, h], by simp [alarm, alarm?, h]⟩

theorem Owns.getD_fresh (l : Listener) (group : Address) :
    l.Owns ((l.groups.get? group).getD (.fresh group)) := by
  cases h : l.groups.get? group with
  | none => exact ⟨by simp [alarm, alarm?, GroupState.fresh, h],
      by simp [alarm, alarm?, GroupState.fresh, h]⟩
  | some g => exact .of_get? h

theorem alarm?_timers (timers : Timers ReportJob) : alarm? { l with timers } = l.alarm? := by
  funext job
  cases job <;> rfl

theorem alarm_timers (timers : Timers ReportJob) : alarm { l with timers } = l.alarm := by
  funext job
  rw [alarm, alarm?_timers, alarm]

theorem alarm_general (timers : Timers ReportJob) (generalAlarm : Alarm) :
    alarm { l with timers, generalAlarm } = Function.update l.alarm .general generalAlarm := by
  funext job
  cases job <;> rfl

theorem alarm_put : (l.put g).alarm = Function.update
    (Function.update l.alarm (.query g.group) g.queryAlarm) (.change g.group) g.changeAlarm := by
  funext job
  cases job with
  | general => rfl
  | query group | change group =>
    by_cases same : group = g.group
    · simp [alarm, alarm?, put, Groups.get?_put, same]
    · simp [alarm, alarm?, put, Groups.get?_put, same, Ne.symm same]

theorem Owns.update_query (h : l.Owns g) (a : Alarm) :
    Function.update (Function.update l.alarm (.query g.group) a) (.change g.group) g.changeAlarm =
      Function.update l.alarm (.query g.group) a := by
  rw [update_comm (by simp), ← h.change, update_eq_self]

theorem Owns.update_change (h : l.Owns g) (a : Alarm) :
    Function.update (Function.update l.alarm (.query g.group) g.queryAlarm) (.change g.group) a =
      Function.update l.alarm (.change g.group) a := by
  rw [← h.query, update_eq_self]

theorem Owns.update_self (h : l.Owns g) :
    Function.update (Function.update l.alarm (.query g.group) g.queryAlarm) (.change g.group)
      g.changeAlarm = l.alarm := by
  rw [h.update_change, ← h.change, update_eq_self]

theorem alarm_drop : (l.drop g).alarm = Function.update
    (Function.update l.alarm (.query g.group) .idle) (.change g.group) .idle := by
  funext job
  cases job with
  | general => rfl
  | query group | change group =>
    by_cases same : group = g.group
    · simp [alarm, alarm?, drop, Groups.get?_erase, same]
    · simp [alarm, alarm?, drop, Groups.get?_erase, same, Ne.symm same]

theorem alarm_putAlarm (h : (l.alarm? job).isSome) (a : Alarm) :
    (l.putAlarm job a).alarm = Function.update l.alarm job a := by
  cases job with
  | general =>
    funext job
    cases job <;> rfl
  | query group =>
    cases known : l.groups.get? group with
    | none => simp [alarm?, known] at h
    | some g =>
      obtain rfl := Groups.group_of_get? known
      simp only [putAlarm, known, alarm_put]
      exact (Owns.of_get? known).update_query a
  | change group =>
    cases known : l.groups.get? group with
    | none => simp [alarm?, known] at h
    | some g =>
      obtain rfl := Groups.group_of_get? known
      simp only [putAlarm, known, alarm_put]
      exact (Owns.of_get? known).update_change a

/-- The listener when an alarm has gone off. -/
def woken (l : Listener) (run : Nat) (job : ReportJob) : Listener :=
  { l with timers := l.timers.setPhase run .acting }.putAlarm job (.acting run)

theorem timers_putAlarm (a : Alarm) : (l.putAlarm job a).timers = l.timers := by
  unfold putAlarm
  split
  · rfl
  all_goals split <;> rfl

/-- A record that is found after an alarm was changed is the record of that alarm, or was there
before. -/
theorem of_get?_putAlarm {a : Alarm} {other : Address} {g' : GroupState}
    (h : (l.putAlarm job a).groups.get? other = some g') :
    l.groups.get? other = some g' ∨ ∃ g, l.groups.get? other = some g ∧
      (job = .query other ∧ g' = { g with queryAlarm := a } ∨
        job = .change other ∧ g' = { g with changeAlarm := a }) := by
  unfold putAlarm at h
  split at h
  · exact .inl h
  all_goals
    split at h
    · next group g known =>
      obtain rfl := Groups.group_of_get? known
      rw [put, Groups.get?_put] at h
      split at h
      · next same =>
        cases same
        exact .inr ⟨g, known, by simpa using h.symm⟩
      · exact .inl h
    · exact .inl h

theorem get?_woken_query (known : l.groups.get? group = some g) (run : Nat) :
    (l.woken run (.query group)).groups.get? group = some { g with queryAlarm := .acting run } := by
  simp only [woken, putAlarm, known, put, Groups.get?_put, Groups.group_of_get? known, ↓reduceIte]

theorem get?_woken_change (known : l.groups.get? group = some g) (run : Nat) :
    (l.woken run (.change group)).groups.get? group =
      some { g with changeAlarm := .acting run } := by
  simp only [woken, putAlarm, known, put, Groups.get?_put, Groups.group_of_get? known, ↓reduceIte]

theorem begin_of_set {run : Nat} {due : Instant} (h : l.alarm? job = some (.waiting run due)) :
    l.begin run job = (((l.woken run job).report job).1,
      some ⟨run, job, ((l.woken run job).report job).2.1, ((l.woken run job).report job).2.2⟩) := by
  simp [begin, h, Alarm.wake, woken]

end Listener

/-! ### What alarms are for -/

/-- The runs whose reports are being sent. -/
def BeingSent (firings : List Firing) (run : Nat) (job : ReportJob) : Prop :=
  ∃ f ∈ firings, f.run = run ∧ f.job = job

/-- The alarm is set if and only if something is pending; the firing of an acting alarm sets it
again if and only if something is. -/
def Alarm.Serves (firings : List Firing) (pending : Bool) : Alarm → Prop
  | idle => pending = false
  | waiting _ _ => pending = true
  | acting run => ∀ f ∈ firings, f.run = run → f.next.isSome = pending

/-- The alarms of a record serve what is owed. -/
structure GroupState.Served (firings : List Firing) (g : GroupState) : Prop where
  query : g.queryAlarm.Serves firings g.asked.isSome
  change : g.changeAlarm.Serves firings g.change.isSome

theorem Alarm.Serves.mono {firings firings' : List Firing} {pending : Bool} {a : Alarm}
    (h : a.Serves firings pending)
    (sub : ∀ run, a = .acting run → ∀ f ∈ firings', f.run = run → f ∈ firings) :
    a.Serves firings' pending := by
  cases a with
  | acting run => exact fun f hf hrun => h f (sub run rfl f hf hrun) hrun
  | _ => exact h

theorem Alarm.Serves.exists_of_waiting {α : Type} {owed : Option α} {firings : List Firing}
    {a : Alarm} {run : Nat} {due : Instant} (h : a.Serves firings owed.isSome)
    (waiting : a = .waiting run due) : ∃ x, owed = some x := by
  subst waiting
  exact Option.isSome_iff_exists.1 h

/-- The end of a firing leaves an alarm set as long as something is pending. -/
theorem Alarm.Serves.finish {firings : List Firing} {pending : Bool} {a : Alarm} {f : Firing}
    {timers : Timers ReportJob} {now : Instant} (h : a.Serves firings pending) (hf : f ∈ firings) :
    (a.finish timers f.run f.next now).2.Serves firings pending := by
  unfold Alarm.finish
  split
  · next belongs =>
    subst belongs
    have owed : f.next.isSome = pending := h f hf rfl
    cases hnext : f.next <;> simp [hnext] at owed <;> simp [Alarm.Serves, ← owed]
  · exact h

end MulticastTunnel
