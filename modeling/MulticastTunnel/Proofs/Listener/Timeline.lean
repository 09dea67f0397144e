import Mathlib.Data.Nat.Find
import MulticastTunnel.Proofs.Listener.Upkeep

/-!
# Listeners in time

A listener whose runs wake up in time: the clock does not pass the time at which a run that is
asleep is to wake up, and no run wakes up earlier. Apart from that, anything can happen at any
time, and the sending of reports takes as long as it takes. Of each firing it is recorded when it
began, and what the listener was then.

* `Timeline.react`, `Timeline.run` : what can happen, and what it leads to.
* `Timeline.timely_run` : no run ever oversleeps.
* `Timeline.exists_later` : the clock is never stuck.
-/

namespace MulticastTunnel

/-! ### When runs are to wake up -/

/-- The time at which a run is to wake up. -/
def RunPhase.due? : RunPhase → Option Instant
  | asleep due => some due
  | acting => none

namespace Timers

variable {J : Type} {timers : Timers J} {time : Instant} {run : Nat} {job : J}

/-- No run is to wake up before the time. -/
def SleepUntil (timers : Timers J) (time : Instant) : Prop := timers.DueIn (time ≤ ·)

/-- The run with this number, for this job, is to wake up by the time. -/
def DueBy (timers : Timers J) (run : Nat) (job : J) (time : Instant) : Prop :=
  ∃ due ≤ time, ⟨run, job, .asleep due⟩ ∈ timers.live

instance : Decidable (timers.SleepUntil time) :=
  decidable_of_iff (∀ r ∈ timers.live, r.phase.due?.all (time ≤ ·)) <| by
    refine forall₂_congr fun r _ => ?_
    cases r.phase <;> simp [RunPhase.due?]

instance [DecidableEq J] : Decidable (timers.DueBy run job time) :=
  decidable_of_iff (∃ r ∈ timers.live, r.id = run ∧ r.job = job ∧ r.phase.due?.any (· ≤ time)) <| by
    constructor
    · rintro ⟨⟨_, _, due | _⟩, hr, rfl, rfl, ripe⟩
      · exact ⟨due, by simpa [RunPhase.due?] using ripe, hr⟩
      · simp [RunPhase.due?] at ripe
    · rintro ⟨due, ripe, hr⟩
      exact ⟨_, hr, rfl, rfl, by simpa [RunPhase.due?] using ripe⟩

theorem DueBy.asleep (h : timers.DueBy run job time) : timers.Asleep run job := by
  obtain ⟨due, -, hr⟩ := h
  exact asleep_iff.2 ⟨due, hr⟩

/-- The number of runs that are asleep. -/
def sleeping (timers : Timers J) : Nat := timers.live.countP fun r => r.phase.due?.isSome

theorem sleeping_le {timers' : Timers J} (h : timers'.live.Sublist timers.live) :
    timers'.sleeping ≤ timers.sleeping := h.countP_le

theorem sleeping_setPhase_acting : (timers.setPhase run .acting).sleeping =
    (timers.remove run).sleeping := by
  simp only [sleeping, setPhase, remove, List.countP_map, List.countP_filter]
  refine List.countP_congr fun r _ => ?_
  by_cases h : r.id = run <;> simp [h, RunPhase.due?]

theorem sleeping_remove_lt (h : timers.DueBy run job time) :
    (timers.remove run).sleeping < timers.sleeping := by
  obtain ⟨due, -, hr⟩ := h
  obtain ⟨front, back, live⟩ := List.append_of_mem hr
  have fewer (l : List (Run J)) : (l.filter fun r => r.id != run).countP (·.phase.due?.isSome) ≤
      l.countP (·.phase.due?.isSome) := List.filter_sublist.countP_le
  have ended := fewer front
  have ended' := fewer back
  have asleep : (RunPhase.asleep due).due?.isSome = true := rfl
  simp only [sleeping, remove, live, List.filter_append, List.countP_append, List.filter_cons,
    bne_self_eq_false, Bool.false_eq_true, if_false, List.countP_cons, asleep, if_true]
  omega

/-- If a run is to wake up before some time, there is one that is to wake up first. -/
theorem exists_first (h : ¬ timers.SleepUntil time) :
    ∃ run job due, ⟨run, job, .asleep due⟩ ∈ timers.live ∧ timers.SleepUntil due := by
  classical
  simp only [SleepUntil, DueIn, not_forall] at h
  obtain ⟨r, hr, due, asleep, -⟩ := h
  have sleeps : ∃ due, ∃ r ∈ timers.live, r.phase = .asleep due := ⟨due, r, hr, asleep⟩
  obtain ⟨⟨run, job, phase⟩, hr, first⟩ := Nat.find_spec sleeps
  refine ⟨run, job, Nat.find sleeps, first ▸ hr, fun r' hr' due' asleep' => ?_⟩
  exact Nat.find_min' sleeps ⟨r', hr', asleep'⟩

end Timers

namespace Listener

variable {l : Listener}

theorem alarm?_of_waiting {job : ReportJob} {run : Nat} {due : Instant}
    (h : l.alarm job = .waiting run due) :
    l.alarm? job = some (.waiting run due) := by
  cases known : l.alarm? job with
  | none => simp [alarm, known] at h
  | some a => rw [← h, alarm, known, Option.getD_some]

end Listener

/-- The event happens at this time, or at any. -/
def Listener.Event.IsAt (now : Instant) : Listener.Event → Prop
  | .call time .. | .query time .. | .finish _ time => time = now
  | _ => True

/-! ### What happens in time -/

/-- The beginning of a firing: its time, and the listener whose alarm went off. -/
structure Beginning where
  time : Instant
  listener : Listener
  firing : Firing
  deriving DecidableEq

/-- A listener and its firings at some time, and all beginnings of firings so far. -/
structure Timeline where
  now : Instant
  reporting : Reporting
  begun : List Beginning
  deriving DecidableEq

namespace Timeline

/-- What can happen. -/
inductive Event where
  | pass (time : Duration)
  | call (group : Address) (call : Listener.Call)
  | query (random : Nat) (query : Query)
  | cancelPending
  | shutdown
  /-- A run wakes up. -/
  | begin (run : Nat) (job : ReportJob)
  /-- A run has sent its reports. -/
  | finish (firing : Firing)
  deriving DecidableEq

variable {s : Timeline}

/-- The listener as it is. -/
def listener (s : Timeline) : Listener := s.reporting.listener

/-- Nothing has happened yet. -/
def start (config : Config) : Timeline := ⟨0, .start config, []⟩

/-- Something happens to the listener. -/
def told (s : Timeline) (event : Listener.Event) : Timeline :=
  { s with reporting := s.reporting.react event }

/-- What comes next. The clock does not pass the time at which a run is to wake up, and a run does
not wake up before. -/
def react (s : Timeline) : Event → Timeline
  | .pass time =>
    if s.listener.timers.SleepUntil (s.now + time) then { s with now := s.now + time } else s
  | .call group call => s.told (.call s.now group call)
  | .query random query => s.told (.query s.now random query)
  | .cancelPending => s.told .cancelPending
  | .shutdown => s.told .shutdown
  | .begin run job =>
    if s.listener.timers.DueBy run job s.now then
      { s.told (.begin run job) with
        begun := s.begun ++
          ((s.listener.begin run job).2.map (⟨s.now, s.listener, ·⟩)).toList }
    else s
  | .finish firing => s.told (.finish firing s.now)

theorem react_begin {run : Nat} {job : ReportJob} (due : s.listener.timers.DueBy run job s.now) :
    s.react (.begin run job) =
      ⟨s.now, ⟨(s.listener.begin run job).1,
        s.reporting.firings ++ (s.listener.begin run job).2.toList⟩,
        s.begun ++ ((s.listener.begin run job).2.map (⟨s.now, s.listener, ·⟩)).toList⟩ := by
  have asleep : s.reporting.listener.timers.Asleep run job := due.asleep
  rw [react, if_pos due, told, Reporting.react, if_pos asleep]
  rfl

/-- What comes of anything that happens. -/
def reacts (s : Timeline) (events : List Event) : Timeline := events.foldl react s

/-- What comes of anything that happens, from the start. -/
def run (config : Config) (events : List Event) : Timeline := (start config).reacts events

theorem reacts_concat {events : List Event} {event : Event} :
    s.reacts (events ++ [event]) = (s.reacts events).react event := by
  simp [reacts]

theorem reacts_append {events later : List Event} :
    s.reacts (events ++ later) = (s.reacts events).reacts later := List.foldl_append

/-! ### No run oversleeps -/

/-- Records, alarms, runs and firings agree, and no run is to wake up in the past. -/
structure Timely (s : Timeline) : Prop where
  upkeep : s.reporting.Upkeep
  ahead : s.listener.timers.SleepUntil s.now

theorem Timely.start (config : Config) : (start config).Timely :=
  ⟨.start config, by simp [Timers.SleepUntil, Timers.DueIn, Timeline.start, Timeline.listener,
    Reporting.start, Listener.start, Timers.empty]⟩

theorem Timely.told (h : s.Timely) {event : Listener.Event} (current : event.IsAt s.now) :
    (s.told event).Timely := by
  refine ⟨h.upkeep.react event, h.upkeep.dueIn_react h.ahead fun due set => ?_⟩
  cases event with
  | call | query =>
    cases current
    obtain rfl := Option.some.inj set
    exact Nat.le_add_right ..
  | finish f now =>
    cases current
    obtain ⟨delay, -, rfl⟩ := Option.map_eq_some_iff.1 set
    exact Nat.le_add_right ..
  | _ => simp [Listener.sets?] at set

theorem Timely.react (h : s.Timely) (event : Event) : (s.react event).Timely := by
  cases event with
  | pass time =>
    simp only [Timeline.react]
    split
    · next sleep => exact ⟨h.upkeep, sleep⟩
    · exact h
  | begin run job =>
    simp only [Timeline.react]
    split
    · have told : (s.told (.begin run job)).Timely := h.told trivial
      exact ⟨told.upkeep, told.ahead⟩
    · exact h
  | cancelPending | shutdown => exact h.told trivial
  | call | query | finish => exact h.told rfl

/-- **No run oversleeps**, whatever happens. -/
theorem timely_run (config : Config) (events : List Event) : (run config events).Timely :=
  List.foldlRecOn events Timeline.react (.start config) fun _ h event _ => h.react event

namespace Timely

variable {run : Nat} {job : ReportJob}

/-- A run that wakes up is the one that its alarm is set for, and in time. -/
theorem set_of_dueBy (h : s.Timely) (wakes : s.listener.timers.DueBy run job s.now) :
    s.listener.alarm? job = some (.waiting run s.now) := by
  obtain ⟨due, ripe, asleep⟩ := wakes
  obtain rfl : due = s.now := Nat.le_antisymm ripe (h.ahead _ asleep due rfl)
  exact Listener.alarm?_of_waiting ((h.upkeep.listener.kept.asleep run job _).1 asleep)

theorem asleep_of_due (h : s.Timely) {due : Instant}
    (set : (s.listener.alarm job).due? = some due) :
    ∃ run, ⟨run, job, .asleep due⟩ ∈ s.listener.timers.live := by
  obtain ⟨run, waiting⟩ := Alarm.due?_eq_some_iff.1 set
  exact ⟨run, (h.upkeep.listener.kept.asleep run job due).2 waiting⟩

theorem now_le (h : s.Timely) {due : Instant}
    (set : (s.listener.alarm job).due? = some due) : s.now ≤ due := by
  obtain ⟨run, asleep⟩ := h.asleep_of_due set
  exact h.ahead _ asleep due rfl

end Timely

/-! ### The clock goes on -/

/-- Time passes and runs wake up, but nothing happens from outside. -/
def Event.IsInternal : Event → Prop
  | .pass _ | .begin _ _ => True
  | _ => False

theorem sleeping_begin {run : Nat} {job : ReportJob}
    (due : s.listener.timers.DueBy run job s.now) :
    (s.react (.begin run job)).listener.timers.sleeping < s.listener.timers.sleeping := by
  have fewer := Timers.sleeping_remove_lt due
  rw [react_begin due]
  rcases Listener.live_begin run job with removed | acting
  · exact Nat.lt_of_le_of_lt (Timers.sleeping_le removed) fewer
  · have same : (s.listener.timers.setPhase run .acting).sleeping = _ :=
      Timers.sleeping_setPhase_acting
    exact Nat.lt_of_le_of_lt (same ▸ Timers.sleeping_le acting) fewer

theorem exists_pass (s : Timeline) {due : Instant} (first : s.listener.timers.SleepUntil due) :
    ∃ time, due ≤ (s.react (.pass time)).now ∧
      (s.react (.pass time)).listener = s.listener := by
  rcases Nat.le_total s.now due with early | late
  · refine ⟨due - s.now, ?_⟩
    have sleep : s.listener.timers.SleepUntil (s.now + (due - s.now)) := by
      rwa [Nat.add_sub_cancel' early]
    rw [react, if_pos sleep]
    exact ⟨Nat.le_of_eq (Nat.add_sub_cancel' early).symm, rfl⟩
  · refine ⟨0, ?_⟩
    rw [react]
    split
    · exact ⟨late, rfl⟩
    · exact ⟨late, rfl⟩

/-- **The clock is never stuck**: whatever the time, runs can wake up such that it comes. -/
theorem exists_later (s : Timeline) (time : Instant) :
    ∃ events, (∀ e ∈ events, e.IsInternal) ∧ time ≤ (s.reacts events).now := by
  induction hn : s.listener.timers.sleeping using Nat.strongRecOn generalizing s with
  | ind n ih =>
    by_cases clear : s.listener.timers.SleepUntil time
    · obtain ⟨pass, later, -⟩ := s.exists_pass clear
      exact ⟨[.pass pass], by simp [Event.IsInternal], later⟩
    · obtain ⟨run, job, due, asleep, first⟩ := Timers.exists_first clear
      obtain ⟨pass, ripe, same⟩ := s.exists_pass first
      generalize hs' : s.react (.pass pass) = s' at ripe same
      have wakes : s'.listener.timers.DueBy run job s'.now := same ▸ ⟨due, ripe, asleep⟩
      have fewer := sleeping_begin wakes
      rw [same, hn] at fewer
      obtain ⟨events, internal, later⟩ := ih _ fewer _ rfl
      refine ⟨.pass pass :: .begin run job :: events, ?_, ?_⟩
      · simpa [Event.IsInternal] using internal
      · simpa [reacts, hs'] using later

end Timeline

end MulticastTunnel
