import MulticastTunnel.Proofs.Listener.Alarms
import MulticastTunnel.Proofs.Listener.Records

/-!
# When runs are due

A run that is asleep is due at the time to which an alarm was set. Most of what happens to a
listener sets no alarm. A call, a query and the end of a firing may set one, and always to the same
time if they do; so all runs are due at times of some kind if those are.

* `Timers.DueIn` : the kind of the times at which runs are due.
* `Listener.Rests` : operations that start no runs.
* `Listener.Event.sets?` : the only time to which an event may set an alarm.
* `Listener.dueIn_react` : **no event lets a run be due at another time than this**.
* `Listener.leftBy` : what is left if the clock can not show this time.
-/

namespace MulticastTunnel

namespace Timers

variable {J : Type} {timers : Timers J} {P : Instant → Prop}

/-- All runs that are asleep are due at times with `P`. -/
def DueIn (timers : Timers J) (P : Instant → Prop) : Prop :=
  ∀ r ∈ timers.live, ∀ due, r.phase = .asleep due → P due

theorem fits_iff {last : Instant} : timers.fits last ↔ timers.DueIn (· ≤ last) := by
  rw [fits, List.all_eq_true]
  refine forall₂_congr fun r _ => ?_
  cases r.phase <;> simp

namespace DueIn

theorem fewer {timers' : Timers J} (h : timers.DueIn P)
    (sub : timers'.live.Sublist timers.live) : timers'.DueIn P :=
  fun r hr => h r (sub.subset hr)

theorem spawn (h : timers.DueIn P) (job : J) {due : Instant} (hdue : P due) :
    (timers.spawn job due).1.DueIn P := by
  intro r hr d asleep
  rcases mem_spawn.1 hr with hr | rfl
  · exact h r hr d asleep
  · cases asleep
    exact hdue

theorem remove (h : timers.DueIn P) (run : Nat) : (timers.remove run).DueIn P :=
  h.fewer List.filter_sublist

theorem setPhase (h : timers.DueIn P) (run : Nat) {phase : RunPhase}
    (hdue : ∀ due, phase = .asleep due → P due) : (timers.setPhase run phase).DueIn P := by
  intro r hr due asleep
  rcases mem_setPhase.1 hr with ⟨s, -, -, rfl⟩ | ⟨hr, -⟩
  · exact hdue due asleep
  · exact h r hr due asleep

end DueIn

end Timers

namespace Alarm

variable {J : Type} {timers : Timers J} {P : Instant → Prop}

theorem withdraw_sublist (a : Alarm) (timers : Timers J) :
    (a.withdraw timers).live.Sublist timers.live := by
  cases a with
  | waiting run due => exact List.filter_sublist
  | _ => exact .refl _

theorem dueIn_setAt (h : timers.DueIn P) (a : Alarm) (job : J) {due : Instant} (hdue : P due) :
    (a.setAt timers job due).1.DueIn P :=
  (h.fewer (a.withdraw_sublist timers)).spawn job hdue

theorem dueIn_finish (h : timers.DueIn P) (a : Alarm) (run : Nat) {next : Option Duration}
    {now : Instant} (hdue : ∀ delay, next = some delay → P (now + delay)) :
    (a.finish timers run next now).1.DueIn P := by
  unfold finish
  split
  · cases next with
    | some delay =>
      refine h.setPhase run fun due asleep => ?_
      cases asleep
      exact hdue delay rfl
    | none => exact h.remove run
  · exact h.remove run

end Alarm

namespace Listener

variable {l : Listener} {now : Instant} {group : Address} {P : Instant → Prop}

/-! ### Operations that start no runs -/

/-- No run was started, and the alarm of general queries was left alone. -/
structure Rests (l l' : Listener) : Prop where
  live : l'.timers.live.Sublist l.timers.live
  general : l'.generalAlarm = l.generalAlarm

namespace Rests

@[refl] theorem refl (l : Listener) : l.Rests l := ⟨.refl _, rfl⟩

theorem keepOrDrop (g : GroupState) : l.Rests (l.keepOrDrop g) := by
  unfold Listener.keepOrDrop
  split
  · exact ⟨(g.changeAlarm.withdraw_sublist _).trans (g.queryAlarm.withdraw_sublist _), rfl⟩
  · exact ⟨.refl _, rfl⟩

theorem groupResponse : l.Rests (l.groupResponse group).1 := by
  unfold Listener.groupResponse
  split
  · rfl
  · split
    · rfl
    · exact keepOrDrop _

theorem changeReport : l.Rests (l.changeReport group).1 := by
  unfold Listener.changeReport
  split
  · rfl
  · split
    · rfl
    · dsimp only
      split
      · exact ⟨.refl _, rfl⟩
      · exact keepOrDrop _

theorem report (job : ReportJob) : l.Rests (l.report job).1 := by
  unfold Listener.report
  split
  · rfl
  · split
    · rfl
    · exact groupResponse
    · exact changeReport

end Rests

theorem live_forgetAll (timers : Timers ReportJob) (groups : Groups) :
    (forgetAll timers groups).1.live.Sublist timers.live := by
  induction groups generalizing timers with
  | nil => exact .refl _
  | cons g rest ih =>
    exact (ih _).trans
      ((g.changeAlarm.withdraw_sublist _).trans (g.queryAlarm.withdraw_sublist _))

theorem live_cancelPending : l.cancelPending.timers.live.Sublist l.timers.live :=
  (live_forgetAll _ _).trans (l.generalAlarm.withdraw_sublist _)

theorem live_begin (run : Nat) (job : ReportJob) :
    (l.begin run job).1.timers.live.Sublist (l.timers.remove run).live ∨
      (l.begin run job).1.timers.live.Sublist (l.timers.setPhase run .acting).live := by
  unfold Listener.begin
  split
  · exact .inl (.refl _)
  · refine .inr ((Rests.report job).live.trans ?_)
    rw [timers_putAlarm]

/-! ### Operations that set alarms -/

theorem dueIn_apply (h : l.timers.DueIn P) (hdue : P (now + l.config.changeReportDelay))
    (filter : SourceFilter) : (l.apply now group filter).timers.DueIn P := by
  unfold Listener.apply
  dsimp only
  split
  · exact h.fewer (Rests.keepOrDrop _).live
  · split
    · exact Alarm.dueIn_setAt h _ _ hdue
    · exact h

theorem dueIn_query (h : l.timers.DueIn P) {random : Nat} {q : Query}
    (hdue : P (now + Jitter.delay (l.window q) random)) :
    (l.query now random q).timers.DueIn P := by
  unfold Listener.query
  split
  · exact h
  · dsimp only
    split
    · unfold generalQuery
      split
      · exact h
      · exact Alarm.dueIn_setAt h _ _ hdue
    · next group _ =>
      unfold groupQuery
      split
      · exact h
      · next g _ =>
        split
        · exact h
        · split
          · exact h
          · split
            · exact h
            · exact Alarm.dueIn_setAt h g.queryAlarm (.query group) hdue

theorem dueIn_begin (h : l.timers.DueIn P) (run : Nat) (job : ReportJob) :
    (l.begin run job).1.timers.DueIn P := by
  rcases live_begin run job with removed | acting
  · exact (h.remove run).fewer removed
  · exact (h.setPhase run (by simp)).fewer acting

theorem dueIn_finish (h : l.timers.DueIn P) {f : Firing}
    (hdue : ∀ delay, f.next = some delay → P (now + delay)) :
    (l.finish f now).timers.DueIn P := by
  unfold Listener.finish
  split
  · exact h.remove _
  · rw [timers_putAlarm]
    exact Alarm.dueIn_finish h _ _ hdue

/-- The time to which an event sets an alarm, if it sets one. -/
def sets? (l : Listener) : Event → Option Instant
  | .call now _ _ => some (now + l.config.changeReportDelay)
  | .query now random q => some (now + Jitter.delay (l.window q) random)
  | .finish f now => f.next.map (now + ·)
  | _ => none

/-- **No event lets a run be due at another time than the one to which it sets an alarm.** -/
theorem dueIn_react (h : l.timers.DueIn P) (tidy : l.Tidy) {event : Event}
    (hdue : ∀ due, l.sets? event = some due → P due) : (l.react event).1.timers.DueIn P := by
  cases event with
  | call now group c =>
    show ((l.call now group c).toOption.getD l).timers.DueIn P
    cases success : l.call now group c with
    | error e => exact h
    | ok l' =>
      obtain ⟨-, rfl | ⟨filter, -, rfl⟩⟩ := tidy.call_cases success
      · exact h
      · exact dueIn_apply h (hdue _ rfl) filter
  | query now random q => exact dueIn_query h (hdue _ rfl)
  | cancelPending | shutdown => exact h.fewer live_cancelPending
  | begin run job => exact dueIn_begin h run job
  | finish f now =>
    exact dueIn_finish h fun delay again => hdue _ (by rw [sets?, again, Option.map_some])

/-- What an event leaves of a listener if it breaks off where it is to set an alarm. What is owed
has been noted by then; the run of a firing is over, although it stays in the register. -/
def leftBy (l : Listener) (event : Event) : Listener :=
  let result := (l.react event).1
  match event with
  | .call _ group _ => l.brokenOff result (.change group) (l.alarm (.change group))
  | .query _ _ q =>
    let job := q.group.elim .general .query
    l.brokenOff result job (l.alarm job)
  | .finish f _ => l.brokenOff result f.job .idle
  | _ => result

end Listener

end MulticastTunnel
