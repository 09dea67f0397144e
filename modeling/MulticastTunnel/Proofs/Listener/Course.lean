import Mathlib.Data.Option.Basic
import MulticastTunnel.Proofs.Listener.Interest
import MulticastTunnel.Proofs.Listener.Outlook

/-!
# The course of a group's reports

When the changes of a group are reported is decided by very little: the filter of the group, the
change that is still to be reported, the time at which its next report is due, and how long it takes
to send a report. All of this is the `Course` of the group. It goes on by itself, at times that it
determines, and hears of the calls for its group and of the end of the tunnel; nothing else concerns
it.

How long the sending of reports takes is given by a `Pace`. `Timeline.reactAt` is `Timeline.react`
for the events that keep the pace of one group; those of other groups may take any time.

* `Course.step`, `Course.hear` : how a course goes on, and what it hears.
* `Timeline.OnPace.course_react` : **what an event does to the course of a group**.
* `Timeline.OnPace.exists_step` : a course is never stuck.
-/

namespace MulticastTunnel

/-- How long it takes to send reports, when that begins at some time. -/
abbrev Pace := Instant → List Report → Duration

/-- What the reports of a group's change depend on, and those that have begun to be sent. -/
structure Course where
  closed : Bool
  filter : SourceFilter
  /-- A change that waits for its next report. -/
  change : Option PendingChange
  /-- When that is due, unless a report of it is being sent. -/
  due : Option Instant
  /-- The reports that have begun to be sent, and when. -/
  sent : List (Instant × List Report)
  deriving DecidableEq

namespace Course

/-- What a course hears of. -/
inductive Word where
  /-- A call for the group. -/
  | call (call : Listener.Call)
  | cancelPending
  | shutdown
  deriving DecidableEq

/-- Until when a report is being sent that is not the last one of its change. -/
def sendsUntil? (pace : Pace) (c : Course) : Option Instant :=
  if c.due = none ∧ c.change.isSome then
    some (c.sent.getLast?.elim 0 fun last => last.1 + pace last.1 last.2)
  else none

/-- When the course goes on by itself. -/
def next? (pace : Pace) (c : Course) : Option Instant := c.due.or (c.sendsUntil? pace)

/-- The records that report the change. -/
def records (group : Address) (c : Course) : List Record :=
  c.change.elim [] (·.records group c.filter)

/-- The course goes on by itself: the report of the change begins, or it has been sent and the next
one is due after the configured time. -/
def step (config : Config) (pace : Pace) (group : Address) (c : Course) : Course :=
  match c.due with
  | some due =>
    { c with
      change := c.change.bind PendingChange.transmitted
      due := none
      sent := c.sent ++ [(due, (Report.mk (c.records group)).splitToFit config.maxReportLength)] }
  | none => { c with due := (c.sendsUntil? pace).map (· + config.changeReportInterval) }

/-- The group gets another filter, if it is one. -/
def move (config : Config) (now : Instant) (filter : SourceFilter) (c : Course) : Course :=
  if c.filter = filter then c
  else
    { c with
      filter
      change := some (.record c.change c.filter filter config.robustness.toNat)
      due := some (c.due.elim (now + config.changeReportDelay)
        (min · (now + config.changeReportDelay))) }

/-- What comes of a word at some time. -/
def hear (config : Config) (group : Address) (now : Instant) (c : Course) : Word → Course
  | .call call =>
    if c.closed = false ∧ call.filter.problemFor group = none then
      c.move config now (call.outcome c.filter)
    else c
  | .cancelPending => { c with change := none, due := none }
  | .shutdown => { c with closed := true, filter := .noInterest, change := none, due := none }

variable {config : Config} {pace : Pace} {group : Address} {c : Course}

theorem sendsUntil?_eq_some {time : Instant} (h : c.sendsUntil? pace = some time) :
    c.due = none ∧ c.change.isSome := by
  unfold sendsUntil? at h
  split at h
  · assumption
  · simp at h

theorem next?_of_due {due : Instant} (h : c.due = some due) : c.next? pace = some due := by
  rw [next?, h, Option.some_or]

theorem next?_of_due_eq_none (h : c.due = none) : c.next? pace = c.sendsUntil? pace := by
  rw [next?, h, Option.none_or]

theorem sendsUntil?_of_change (h : c.change = none) : c.sendsUntil? pace = none :=
  if_neg (by simp [h])

@[simp] theorem filter_step : (c.step config pace group).filter = c.filter := by
  unfold step
  split
  · rfl
  · rfl

theorem le_sendsUntil?_step {now last : Instant} (next : c.next? pace = some now)
    (h : (c.step config pace group).sendsUntil? pace = some last) : now ≤ last := by
  obtain ⟨unset, pending⟩ := sendsUntil?_eq_some h
  cases due : c.due with
  | some due' =>
    obtain rfl := Option.some.inj ((next?_of_due due).symm.trans next)
    simp only [step, due] at h pending
    rw [sendsUntil?, if_pos ⟨rfl, pending⟩] at h
    obtain rfl := Option.some.inj h
    simp
  | none =>
    rw [next?_of_due_eq_none due] at next
    simp [step, due, next] at unset

theorem hear_call (config : Config) (group : Address) (now : Instant) (c : Course)
    (call : Listener.Call) : c.hear config group now (.call call) = c ∨
      (c.hear config group now (.call call)).due.isSome := by
  simp only [hear, move]
  split
  · split
    · exact .inl rfl
    · exact .inr rfl
  · exact .inl rfl

theorem sendsUntil?_hear {now last : Instant} {word : Word}
    (h : (c.hear config group now word).sendsUntil? pace = some last) :
    c.sendsUntil? pace = some last := by
  obtain ⟨unset, pending⟩ := sendsUntil?_eq_some h
  cases word with
  | call call =>
    rcases hear_call config group now c call with same | moved
    · rwa [same] at h
    · rw [unset] at moved
      nomatch moved
  | cancelPending | shutdown => nomatch pending

end Course

namespace Timeline

open Course (Word)

variable {s : Timeline} {config : Config} {pace : Pace} {group : Address}

/-! ### What the listener is told -/

theorem reporting_react (s : Timeline) (event : Event) :
    (s.react event).reporting = s.reporting ∨ ∃ told : Listener.Event,
      (told = .shutdown → event = .shutdown) ∧
        (s.react event).reporting = s.reporting.react told := by
  cases event with
  | pass time =>
    rw [react]
    split
    · exact .inl rfl
    · exact .inl rfl
  | begin run job =>
    rw [react]
    split
    · exact .inr ⟨.begin run job, by simp, rfl⟩
    · exact .inl rfl
  | shutdown => exact .inr ⟨.shutdown, fun _ => rfl, rfl⟩
  | call other c => exact .inr ⟨.call s.now other c, by simp, rfl⟩
  | query random q => exact .inr ⟨.query s.now random q, by simp, rfl⟩
  | cancelPending => exact .inr ⟨.cancelPending, by simp, rfl⟩
  | finish f => exact .inr ⟨.finish f s.now, by simp, rfl⟩

theorem closed_react {event : Event} (notShut : event ≠ .shutdown) :
    (s.react event).listener.closed = s.listener.closed := by
  rcases s.reporting_react event with same | ⟨told, shut, same⟩
  · rw [listener, same]
    rfl
  · rw [listener, same]
    exact s.reporting.closed_react_of_ne told fun h => notShut (shut h)

theorem config_react {event : Event} :
    (s.react event).listener.config = s.listener.config := by
  rcases s.reporting_react event with same | ⟨told, -, same⟩
  · rw [listener, same]
    rfl
  · rw [listener, same]
    exact s.reporting.config_react told

/-! ### Timelines that keep a pace -/

/-- The course of a group's reports. -/
def course (s : Timeline) (group : Address) : Course where
  closed := s.listener.closed
  filter := (s.outlook group).filter
  change := (s.outlook group).change
  due := (s.outlook group).changeDue
  sent := (s.begunFor (.change group)).map fun b => (b.time, b.firing.reports)

theorem course_start (config : Config) (group : Address) :
    (start config).course group = ⟨false, .noInterest, none, none, []⟩ := rfl

/-- What the course of a group hears of an event. -/
def Event.word? (group : Address) : Event → Option Word
  | .call other c => if other = group then some (.call c) else none
  | .cancelPending => some .cancelPending
  | .shutdown => some .shutdown
  | _ => none

/-- The event keeps the pace of a group: the sending of a report of its change ends when it is over,
and not later. If the alarm was set anew meanwhile, it does not matter when the sending ends. -/
def Permits (s : Timeline) (pace : Pace) (group : Address) : Event → Prop
  | .pass time => ∀ last ∈ (s.course group).sendsUntil? pace, s.now + time ≤ last
  | .finish f => f.job = .change group ∧ s.listener.alarm f.job = .acting f.run →
      ∀ last ∈ (s.course group).sendsUntil? pace, s.now = last
  | _ => True

instance (event : Event) : Decidable (s.Permits pace group event) :=
  match event with
  | .pass _ => inferInstanceAs (Decidable (∀ last ∈ _, _))
  | .finish _ => inferInstanceAs (Decidable (_ ∧ _ → ∀ last ∈ _, _))
  | .call .. | .query .. | .cancelPending | .shutdown | .begin .. =>
    inferInstanceAs (Decidable True)

/-- What comes next, if it keeps the pace of the group. -/
def reactAt (pace : Pace) (group : Address) (s : Timeline) (event : Event) : Timeline :=
  if s.Permits pace group event then s.react event else s

/-- What comes of anything that keeps the pace. -/
def reactsAt (pace : Pace) (group : Address) (s : Timeline) (events : List Event) : Timeline :=
  events.foldl (reactAt pace group) s

/-- What comes of anything that keeps the pace, from the start. -/
def runAt (pace : Pace) (group : Address) (config : Config) (events : List Event) : Timeline :=
  (start config).reactsAt pace group events

theorem reactsAt_append {events later : List Event} : s.reactsAt pace group (events ++ later) =
    (s.reactsAt pace group events).reactsAt pace group later := List.foldl_append

theorem now_le_reactAt (s : Timeline) (pace : Pace) (group : Address) (event : Event) :
    s.now ≤ (s.reactAt pace group event).now := by
  rw [reactAt]
  split
  · exact s.now_le_react event
  · exact Nat.le_refl _

theorem now_le_reactsAt (s : Timeline) (pace : Pace) (group : Address) (events : List Event) :
    s.now ≤ (s.reactsAt pace group events).now :=
  List.foldlRecOn events (reactAt pace group) (motive := fun after => s.now ≤ after.now)
    (Nat.le_refl _) fun after passed event _ =>
      Nat.le_trans passed (after.now_le_reactAt pace group event)

/-- No run oversleeps, and no sending takes longer than it does. Only the configured interval is
used to set alarms again. -/
structure OnPace (config : Config) (pace : Pace) (group : Address) (s : Timeline) : Prop where
  timely : s.Timely
  settings : s.listener.config = config
  interval : ∀ f ∈ s.reporting.firings, ∀ delay, f.next = some delay →
    delay = config.changeReportInterval
  ahead : ∀ last, (s.course group).sendsUntil? pace = some last → s.now ≤ last

namespace OnPace

theorem start : (start config).OnPace config pace group where
  timely := .start config
  settings := rfl
  interval _ hf := nomatch hf
  ahead _ h := nomatch h

/-- A course does not go on in the past. -/
theorem now_le_next (h : s.OnPace config pace group) {time : Instant}
    (next : (s.course group).next? pace = some time) : s.now ≤ time := by
  cases due : (s.course group).due with
  | some due' =>
    obtain rfl := Option.some.inj ((Course.next?_of_due due).symm.trans next)
    have set : (s.listener.outlook group).changeDue = some due' := due
    rw [Listener.changeDue_outlook] at set
    exact h.timely.now_le set
  | none => exact h.ahead _ (Course.next?_of_due_eq_none due ▸ next)

/-! ### What an event does -/

theorem course_eq {event : Event} {asked : Option AskedSources} {answerDue : Option Instant}
    (notShut : event ≠ .shutdown)
    (after : (s.react event).outlook group = { s.outlook group with asked, answerDue })
    (sent : (s.react event).begunFor (.change group) = s.begunFor (.change group)) :
    (s.react event).course group = s.course group := by
  rw [course, closed_react notShut, after, sent]
  rfl

theorem course_call (h : s.OnPace config pace group) (c : Listener.Call) :
    (s.react (.call group c)).course group =
      (s.course group).hear config group s.now (.call c) := by
  have after := h.timely.outlook_call group group c
  have closed : (s.react (.call group c)).listener.closed = s.listener.closed :=
    closed_react (by simp)
  have permit : s.listener.permit group c.filter = .ok () ↔
      (s.course group).closed = false ∧ c.filter.problemFor group = none := by
    rw [Listener.permit_eq_ok_iff, and_comm]
    rfl
  have sent : (s.react (.call group c)).begunFor (.change group) = s.begunFor (.change group) :=
    begunFor_react (by simp)
  rw [h.settings] at after
  simp only [true_and, permit] at after
  rw [course, closed, after, sent, Course.hear]
  split
  · simp only [Outlook.move, Course.move]
    split
    · next same =>
      have same' : (s.course group).filter = c.outcome (s.course group).filter := same
      rw [if_pos same']
      rfl
    · next differs =>
      have differs' : ¬ (s.course group).filter = c.outcome (s.course group).filter := differs
      rw [if_neg differs']
      rfl
  · rfl

/-- When the alarm of the change goes off, the course goes on. -/
theorem course_begin (h : s.OnPace config pace group) {run : Nat}
    (wakes : s.listener.timers.DueBy run (.change group) s.now) :
    (s.course group).due = some s.now ∧
      (s.react (.begin run (.change group))).course group =
        (s.course group).step config pace group := by
  have set := h.timely.set_of_dueBy wakes
  obtain ⟨g, change, known, pending, begins⟩ := h.timely.upkeep.listener.begin_change set
  have before : s.outlook group = g.outlook := Listener.outlook_of_get? known
  have after := h.timely.outlook_begin group wakes
  have closed : (s.react (.begin run (.change group))).listener.closed = s.listener.closed :=
    closed_react (by simp)
  have sent := begunFor_begin wakes (congrArg Prod.snd begins)
  have due : (s.course group).due = some s.now := by
    show (s.listener.outlook group).changeDue = _
    rw [Listener.changeDue_outlook, Listener.alarm, set]
    rfl
  have records : (s.course group).records group = change.records group g.filter := by
    show (s.outlook group).change.elim [] (·.records group (s.outlook group).filter) = _
    rw [before]
    show g.change.elim [] _ = _
    rw [pending]
    rfl
  refine ⟨due, ?_⟩
  rw [if_neg (by simp), if_pos rfl] at after
  have settings : s.reporting.listener.config = config := h.settings
  rw [course, closed, after, sent, Course.step, due, records]
  simp only [List.map_append, List.map_singleton, Listener.parts, settings]
  rfl

/-- When a report of the change has been sent, the course goes on, unless that was the last one. -/
theorem course_finish (h : s.OnPace config pace group) {f : Firing}
    (permitted : s.Permits pace group (.finish f)) (sent : f ∈ s.reporting.firings)
    (job : f.job = .change group) (acting : s.listener.alarm f.job = .acting f.run) :
    if (s.course group).change.isSome then
      (s.course group).next? pace = some s.now ∧
        (s.react (.finish f)).course group = (s.course group).step config pace group
    else (s.react (.finish f)).course group = s.course group := by
  have after := h.timely.outlook_finish group f
  have closed : (s.react (.finish f)).listener.closed = s.listener.closed :=
    closed_react (by simp)
  have begun : (s.react (.finish f)).begunFor (.change group) = s.begunFor (.change group) :=
    begunFor_react (by simp)
  have unset : (s.course group).due = none := by
    show (s.listener.outlook group).changeDue = none
    rw [Listener.changeDue_outlook, ← job, acting]
    rfl
  rw [if_pos ⟨sent, job, acting⟩] at after
  -- the alarm acts for this firing, so that it is set again exactly if something is left
  have serves : f.next.isSome = (s.course group).change.isSome := by
    have alarm : s.listener.alarm (.change group) = .acting f.run := job ▸ acting
    cases known : s.listener.groups.get? group with
    | none => simp [Listener.alarm, Listener.alarm?, known] at alarm
    | some g =>
      have served := (h.timely.upkeep.listener.served group g known).change
      have owns := (Listener.Owns.of_get? known).change
      rw [← owns, Groups.group_of_get? known, alarm] at served
      have before : s.outlook group = g.outlook := Listener.outlook_of_get? known
      show _ = (s.outlook group).change.isSome
      rw [before]
      exact served f sent rfl
  split
  · next pending =>
    obtain ⟨delay, next⟩ := Option.isSome_iff_exists.1 (serves.trans pending)
    obtain rfl := h.interval f sent delay next
    obtain ⟨last, sends⟩ : ∃ last, (s.course group).sendsUntil? pace = some last :=
      ⟨_, if_pos ⟨unset, pending⟩⟩
    obtain rfl : s.now = last := permitted ⟨job, acting⟩ last sends
    refine ⟨Course.next?_of_due_eq_none unset ▸ sends, ?_⟩
    rw [course, closed, after, begun, next, Course.step, unset, sends]
    rfl
  · next nothing =>
    have next : f.next = none := by
      rw [← Option.not_isSome_iff_eq_none, serves]
      exact nothing
    rw [course, closed, after, begun, next, Option.map_none, ← unset]
    rfl

/-- **What an event does to the course of a group.** The course hears of it, or it goes on, at its
time, or it does not change. -/
theorem course_react (h : s.OnPace config pace group) {event : Event}
    (permitted : s.Permits pace group event) :
    (∃ word, event.word? group = some word ∧ (s.react event).now = s.now ∧
      (s.react event).course group = (s.course group).hear config group s.now word) ∨
    event.word? group = none ∧ ((s.react event).course group = s.course group ∨
      (s.course group).next? pace = some s.now ∧ (s.react event).now = s.now ∧
      (s.react event).course group = (s.course group).step config pace group) := by
  cases event with
  | pass time =>
    exact .inr ⟨rfl, .inl (course_eq (by simp) (outlook_pass time) (begunFor_react (by simp)))⟩
  | call other c =>
    by_cases same : other = group
    · subst same
      exact .inl ⟨.call c, if_pos rfl, rfl, h.course_call c⟩
    · have after := h.timely.outlook_call group other c
      rw [if_neg (same ·.1)] at after
      exact .inr ⟨if_neg same, .inl (course_eq (by simp) after (begunFor_react (by simp)))⟩
  | query random q =>
    have after := outlook_query s group random q
    refine .inr ⟨rfl, .inl ?_⟩
    split at after
    · obtain ⟨asked, answerDue, same⟩ := Outlook.ask_eq (s.outlook group)
        s.listener.generalAlarm.due? (s.now + Jitter.delay (s.listener.window q) random) q.sources
      exact course_eq (by simp) (after.trans same) (begunFor_react (by simp))
    · exact course_eq (by simp) after (begunFor_react (by simp))
  | cancelPending =>
    refine .inl ⟨.cancelPending, rfl, rfl, ?_⟩
    have closed : (s.react .cancelPending).listener.closed = s.listener.closed :=
      closed_react (by simp)
    rw [course, closed, h.timely.outlook_cancelPending]
    rfl
  | shutdown => exact .inl ⟨.shutdown, rfl, rfl, rfl⟩
  | begin run job =>
    refine .inr ⟨rfl, ?_⟩
    by_cases wakes : s.listener.timers.DueBy run job s.now
    · by_cases change : job = .change group
      · subst change
        obtain ⟨due, after⟩ := h.course_begin wakes
        exact .inr ⟨Course.next?_of_due due, by rw [react_begin wakes], after⟩
      -- any other report leaves the change alone
      · have after := h.timely.outlook_begin group wakes
        have other : (s.react (.begin run job)).begunFor (.change group) =
            s.begunFor (.change group) :=
          begunFor_react fun run' same => absurd (Event.begin.inj same).2 change
        rw [if_neg change] at after
        split at after
        · exact .inl (course_eq (by simp) after other)
        · exact .inl (course_eq (by simp) after other)
    · rw [Timeline.react, if_neg wakes]
      exact .inl rfl
  | finish f =>
    refine .inr ⟨rfl, ?_⟩
    by_cases concerns : f ∈ s.reporting.firings ∧ f.job = .change group ∧
        s.listener.alarm f.job = .acting f.run
    · obtain ⟨sent, job, acting⟩ := concerns
      have after := h.course_finish permitted sent job acting
      split at after
      · exact .inr ⟨after.1, rfl, after.2⟩
      · exact .inl after
    · have after := h.timely.outlook_finish group f
      rw [if_neg concerns] at after
      exact .inl (course_eq (by simp) after (begunFor_react (by simp)))

/-! ### Every run keeps the pace -/

theorem of_mem_firings {event : Event} {f : Firing}
    (h : f ∈ (s.react event).reporting.firings) : f ∈ s.reporting.firings ∨
      ∃ run job, s.listener.timers.DueBy run job s.now ∧ (s.listener.begin run job).2 = some f := by
  cases event with
  | pass time =>
    rw [Timeline.react] at h
    split at h
    · exact .inl h
    · exact .inl h
  | begin run job =>
    by_cases wakes : s.listener.timers.DueBy run job s.now
    · rw [react_begin wakes] at h
      rcases List.mem_append.1 h with h | h
      · exact .inl h
      · exact .inr ⟨run, job, wakes, Option.mem_toList.1 h⟩
    · rw [Timeline.react, if_neg wakes] at h
      exact .inl h
  | finish f' =>
    have left : f ∈ (s.reporting.react (.finish f' s.now)).firings := h
    rw [Reporting.react] at left
    split at left
    · exact .inl (List.mem_filter.1 left).1
    · exact .inl left
  | _ => exact .inl h

theorem now_react_le {event : Event} (permitted : s.Permits pace group event) {last : Instant}
    (sends : (s.course group).sendsUntil? pace = some last) (early : s.now ≤ last) :
    (s.react event).now ≤ last := by
  cases event with
  | pass time =>
    rw [Timeline.react]
    split
    · exact permitted last sends
    · exact early
  | begin run job =>
    rw [Timeline.react]
    split
    · exact early
    · exact early
  | _ => exact early

theorem react (h : s.OnPace config pace group) {event : Event}
    (permitted : s.Permits pace group event) : (s.react event).OnPace config pace group where
  timely := h.timely.react event
  settings := config_react.trans h.settings
  interval f hf delay next := by
    rcases of_mem_firings hf with hf | ⟨run, job, wakes, fires⟩
    · exact h.interval f hf delay next
    · rw [← h.settings]
      exact h.timely.upkeep.listener.next_begin (h.timely.set_of_dueBy wakes) fires next
  ahead last sends := by
    rcases h.course_react permitted with
      ⟨word, -, now, after⟩ | ⟨-, after | ⟨next, now, after⟩⟩
    · rw [after] at sends
      exact now ▸ h.ahead last (Course.sendsUntil?_hear sends)
    · rw [after] at sends
      exact now_react_le permitted sends (h.ahead last sends)
    · rw [after] at sends
      exact now ▸ Course.le_sendsUntil?_step next sends

theorem reactAt (h : s.OnPace config pace group) (event : Event) :
    (s.reactAt pace group event).OnPace config pace group := by
  rw [Timeline.reactAt]
  split
  · next permitted => exact h.react permitted
  · exact h

theorem reactsAt (h : s.OnPace config pace group) (events : List Event) :
    (s.reactsAt pace group events).OnPace config pace group :=
  List.foldlRecOn events (Timeline.reactAt pace group) h fun _ h event _ => h.reactAt event

theorem runAt (config : Config) (pace : Pace) (group : Address) (events : List Event) :
    (Timeline.runAt pace group config events).OnPace config pace group := start.reactsAt events

end OnPace

/-! ### A course is never stuck -/

/-- Nothing happens from outside: time passes, runs wake up, and reports have been sent. -/
def Event.IsOwn : Event → Prop
  | .pass _ | .begin _ _ | .finish _ => True
  | _ => False

theorem reactAt_pass {time : Instant} (ahead : s.now ≤ time)
    (clear : s.listener.timers.SleepUntil time)
    (sends : ∀ last, (s.course group).sendsUntil? pace = some last → time ≤ last) :
    s.reactAt pace group (.pass (time - s.now)) = { s with now := time } := by
  have passed : s.now + (time - s.now) = time := Nat.add_sub_cancel' ahead
  have permitted : s.Permits pace group (.pass (time - s.now)) := by
    intro last hlast
    rw [passed]
    exact sends last hlast
  rw [reactAt, if_pos permitted, react, passed, if_pos clear]

theorem reactAt_begin (run : Nat) (job : ReportJob) :
    s.reactAt pace group (.begin run job) = s.react (.begin run job) := if_pos trivial

namespace OnPace

/-- While a report is sent that is not the last one of its change, there is a firing for it. -/
theorem exists_firing (h : s.OnPace config pace group) (unset : (s.course group).due = none)
    (pending : (s.course group).change.isSome) :
    ∃ f ∈ s.reporting.firings, f.job = .change group ∧ s.listener.alarm f.job = .acting f.run := by
  cases known : s.listener.groups.get? group with
  | none =>
    have unknown : s.outlook group = .unknown := by simp [outlook, Listener.outlook, known]
    simp [course, unknown, Outlook.unknown] at pending
  | some g =>
    have before : s.outlook group = g.outlook := Listener.outlook_of_get? known
    have alarm := (Listener.Owns.of_get? known).change
    obtain rfl := Groups.group_of_get? known
    simp only [course, before] at unset pending
    rcases (h.timely.upkeep.change_iff (List.mem_of_find?_eq_some known)).1 pending with
      set | ⟨f, hf, acting, job, -⟩
    · have unset' : g.changeAlarm.due? = none := unset
      simp [Alarm.isSet, unset'] at set
    · exact ⟨f, hf, job, job ▸ alarm.trans acting⟩

theorem exists_own (h : s.OnPace config pace group)
    (next : (s.course group).next? pace = some s.now) :
    ∃ event : Event, event.IsOwn ∧ (s.reactAt pace group event).now = s.now ∧
      (s.reactAt pace group event).course group = (s.course group).step config pace group := by
  cases due : (s.course group).due with
  | some due' =>
    obtain rfl := Option.some.inj ((Course.next?_of_due due).symm.trans next)
    have set : (s.listener.outlook group).changeDue = some s.now := due
    rw [Listener.changeDue_outlook] at set
    obtain ⟨run, asleep⟩ := h.timely.asleep_of_due set
    have wakes : s.listener.timers.DueBy run (.change group) s.now := ⟨_, Nat.le_refl _, asleep⟩
    refine ⟨.begin run (.change group), trivial, ?_⟩
    rw [reactAt_begin]
    exact ⟨by rw [react_begin wakes], (h.course_begin wakes).2⟩
  | none =>
    -- a report is being sent, and the course goes on when that is done
    have sends := next
    rw [Course.next?_of_due_eq_none due] at sends
    obtain ⟨-, pending⟩ := Course.sendsUntil?_eq_some sends
    obtain ⟨f, sent, job, acting⟩ := h.exists_firing due pending
    have permitted : s.Permits pace group (.finish f) := by
      rintro - last hlast
      exact Option.some.inj (sends.symm.trans hlast)
    refine ⟨.finish f, trivial, ?_⟩
    rw [Timeline.reactAt, if_pos permitted]
    have after := h.course_finish permitted sent job acting
    rw [if_pos pending] at after
    exact ⟨rfl, after.2⟩

/-- **A course is never stuck**: however things stand, time can pass and runs can wake up such that
the course goes on at its time. -/
theorem exists_step (h : s.OnPace config pace group) {time : Instant}
    (next : (s.course group).next? pace = some time) :
    ∃ more, (∀ e ∈ more, e.IsOwn) ∧ (s.reactsAt pace group more).now = time ∧
      (s.reactsAt pace group more).course group = (s.course group).step config pace group := by
  -- runs that wake up before do not concern the course, and there are fewer of them each time
  induction hn : s.listener.timers.sleeping using Nat.strongRecOn generalizing s with
  | ind n ih =>
    have sends : ∀ last, (s.course group).sendsUntil? pace = some last → time = last := by
      intro last hlast
      obtain ⟨unset, -⟩ := Course.sendsUntil?_eq_some hlast
      exact Option.some.inj (next.symm.trans (Course.next?_of_due_eq_none unset ▸ hlast))
    -- if nobody wakes up before, time passes at once, and otherwise until the first one does
    by_cases clear : s.listener.timers.SleepUntil time
    · have passed := reactAt_pass (h.now_le_next next) clear
        fun last hlast => Nat.le_of_eq (sends last hlast)
      have h' := h.reactAt (.pass (time - s.now))
      rw [passed] at h'
      obtain ⟨event, own, now, after⟩ := h'.exists_own next
      refine ⟨[.pass (time - s.now), event], ?_, ?_⟩
      · simpa [Event.IsOwn] using own
      · show ((s.reactAt pace group (.pass (time - s.now))).reactAt pace group event).now = time ∧
          ((s.reactAt pace group (.pass (time - s.now))).reactAt pace group event).course group = _
        rw [passed]
        exact ⟨now, after⟩
    · obtain ⟨run, job, due, asleep, first⟩ := Timers.exists_first clear
      have early : due < time := by
        by_contra late
        exact clear fun r hr d hd => Nat.le_trans (Nat.le_of_not_lt late) (first r hr d hd)
      have passed := reactAt_pass (h.timely.ahead _ asleep due rfl) first
        fun last hlast => sends last hlast ▸ Nat.le_of_lt early
      have h' := h.reactAt (.pass (due - s.now))
      rw [passed] at h'
      have wakes : Timers.DueBy s.listener.timers run job due := ⟨due, Nat.le_refl _, asleep⟩
      have fewer := sleeping_begin (s := { s with now := due }) wakes
      have permitted : Permits { s with now := due } pace group (.begin run job) := trivial
      have same : (Timeline.react { s with now := due } (.begin run job)).course group =
          s.course group := by
        rcases h'.course_react permitted with
          ⟨word, heard, -⟩ | ⟨-, same | ⟨now, -⟩⟩
        · nomatch heard
        · exact same
        · have now' : (s.course group).next? pace = some due := now
          exact absurd (Option.some.inj (now'.symm.trans next)) (Nat.ne_of_lt early)
      obtain ⟨more, own, now, after⟩ :=
        ih _ (hn ▸ fewer) (h'.react permitted) (same ▸ next) rfl
      refine ⟨.pass (due - s.now) :: .begin run job :: more, ?_, ?_⟩
      · simpa [Event.IsOwn] using own
      · show (((s.reactAt pace group (.pass (due - s.now))).reactAt pace group
            (.begin run job)).reactsAt pace group more).now = time ∧
          (((s.reactAt pace group (.pass (due - s.now))).reactAt pace group
            (.begin run job)).reactsAt pace group more).course group = _
        rw [passed, reactAt_begin]
        exact ⟨now, same ▸ after⟩

end OnPace

end Timeline

end MulticastTunnel
