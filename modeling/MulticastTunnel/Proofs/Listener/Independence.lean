import MulticastTunnel.Proofs.Clockwork
import MulticastTunnel.Proofs.Listener.Transmissions

/-!
# Reports of changes do not depend on anything else

Queries keep records alive that would be dropped otherwise, and all groups share one listener and
one register of runs. Nothing of this shows in the reports of a group's changes: the course of a
group is a clockwork, and what it hears is all that matters.

* `Course.clockwork` : a course is a clockwork.
* `Timeline.OnPace.runs` : what happens in time is a run of it.
* `Timeline.change_reports_independent` : **the reports depend only on the calls for the group and
  the ends of tunnels**.
-/

namespace MulticastTunnel

namespace Course

variable {config : Config} {pace : Pace} {group : Address} {c : Course} {time : Instant}

/-- How far the reports of one time have come: by how many have begun, and whether the last one is
still being sent. -/
def rank (time : Instant) (c : Course) : Nat :=
  2 * c.sent.countP (·.1 = time) + if c.due = none ∧ c.change.isSome then 0 else 1

theorem rank_lt (next : c.next? pace = some time) :
    c.rank time < (c.step config pace group).rank time := by
  -- one more report has begun, or the last one is no longer being sent
  cases due : c.due with
  | some due' =>
    obtain rfl := Option.some.inj ((next?_of_due due).symm.trans next)
    have more : (c.step config pace group).sent.countP (·.1 = due') =
        c.sent.countP (·.1 = due') + 1 := by
      simp [step, due]
    rw [rank, rank, more, if_neg (by simp [due])]
    omega
  | none =>
    have sends := next
    rw [next?_of_due_eq_none due] at sends
    have after : c.step config pace group =
        { c with due := some (time + config.changeReportInterval) } := by
      rw [step, due, sends]
      rfl
    rw [after, rank, rank, if_pos (sendsUntil?_eq_some sends), if_neg (by simp)]
    exact Nat.lt_succ_self _

/-- A course is a clockwork. -/
def clockwork (config : Config) (pace : Pace) (group : Address) : Clockwork Course Word where
  next? := next? pace
  step := step config pace group
  hear := hear config group
  rank := rank
  rank_lt := rank_lt

/-- As long as nothing is heard, further reports may begin, but none of them before. -/
theorem sent_of_runs {now : Instant} {c' : Course}
    (h : (clockwork config pace group).Runs now c [] c') :
    ∃ new, c'.sent = c.sent ++ new ∧ ∀ t ∈ new, now ≤ t.1 := by
  generalize hnone : ([] : List (Heard Word)) = none at h
  induction h with
  | rest => exact ⟨[], by simp, by simp⟩
  | @step now time c last heard next later rest ih =>
    obtain ⟨new, sent, ahead⟩ := ih hnone
    have ahead' : ∀ t ∈ new, now ≤ t.1 := fun t ht => Nat.le_trans later (ahead t ht)
    have sent' : last.sent = (c.step config pace group).sent ++ new := sent
    cases due : c.due with
    | some due' =>
      obtain rfl := Option.some.inj ((next?_of_due due).symm.trans next)
      simp only [step, due, List.append_assoc] at sent'
      refine ⟨_, sent', ?_⟩
      rintro t (_ | ⟨_, ht⟩)
      · exact later
      · exact ahead' t ht
    | none =>
      simp only [step, due] at sent'
      exact ⟨new, sent', ahead'⟩
  | hear => exact absurd hnone.symm (List.cons_ne_nil _ _)

end Course

namespace Timeline

open Course (Word)

variable {s : Timeline} {config : Config} {pace : Pace} {group : Address}

/-- What the course of a group hears. -/
def heard (config : Config) (pace : Pace) (group : Address) :
    Timeline → List Event → List (Heard Word)
  | _, [] => []
  | s, event :: later =>
    ((event.word? group).map
      ((Course.clockwork config pace group).heardAt s.now (s.course group))).toList ++
      heard config pace group (s.reactAt pace group event) later

/-- What the course of a group hears from the start. -/
def hears (config : Config) (pace : Pace) (group : Address) (events : List Event) :
    List (Heard Word) :=
  heard config pace group (start config) events

/-- **What happens in time is a run of the clockwork.** -/
theorem OnPace.runs (h : s.OnPace config pace group) (events : List Event) :
    (Course.clockwork config pace group).Runs s.now (s.course group)
      (heard config pace group s events) ((s.reactsAt pace group events).course group) := by
  -- an event that the course does not hear of is a rest, unless it makes the course go on
  induction events generalizing s with
  | nil => exact .rest _ _
  | cons event later ih =>
    have runs := ih (h.reactAt event)
    have passes := s.now_le_reactAt pace group event
    rw [heard]
    show Clockwork.Runs _ _ _ _
      (((s.reactAt pace group event).reactsAt pace group later).course group)
    by_cases permitted : s.Permits pace group event
    · have same : s.reactAt pace group event = s.react event := if_pos permitted
      rcases h.course_react permitted with
        ⟨word, hears, now, after⟩ | ⟨silent, after | ⟨next, now, after⟩⟩
      · rw [same, now, after] at runs
        rw [hears, same]
        exact .hear (Nat.le_refl _) (fun due next => h.now_le_next next) runs
      · rw [same, after] at runs
        rw [silent, same]
        exact runs.earlier (same ▸ passes)
      · rw [same, now, after] at runs
        rw [silent, same]
        exact .step next (Nat.le_refl _) runs
    · have same : s.reactAt pace group event = s := if_neg permitted
      have silent : event.word? group = none := by
        cases event with
        | pass | finish => rfl
        | _ => exact absurd trivial permitted
      rw [same] at runs ⊢
      rw [silent]
      exact runs

/-- Where a run of the clockwork is continued by another one, no more reports have begun before. -/
theorem OnPace.sent_of_runs (h : s.OnPace config pace group) {c : Course} {time : Instant}
    (runs : (Course.clockwork config pace group).Runs time (s.course group) [] c) :
    (s.course group).sent <+: c.sent ∧ ∀ time ≤ s.now,
      c.sent.filter (·.1 < time) = (s.course group).sent.filter (·.1 < time) := by
  have runs' := runs.start_at fun due next => h.now_le_next next
  obtain ⟨new, sent, ahead⟩ := Course.sent_of_runs runs'
  refine ⟨sent ▸ List.prefix_append _ _, fun time reached => ?_⟩
  have none : new.filter (·.1 < time) = [] := by
    refine List.filter_eq_nil_iff.2 fun t ht => ?_
    simpa using Nat.le_trans reached (ahead t ht)
  rw [sent, List.filter_append, none, List.append_nil]

/-- The calls and their times are not enough: a call may come at the very moment at which a report
of the group is due. If the report has begun, it tells of the earlier calls alone; otherwise of this
one, too. -/
theorem change_reports_ne_of_tie :
    let group := Address.ofOctets 232 1 1 1
    let source (n : UInt8) := Address.ofOctets 10 0 0 n
    let join (n : UInt8) : Event := .call group (.join ⟨.including, .ofList [source n]⟩)
    let goesOff : Event := .begin 0 (.change group)
    let pause := Event.pass (.ofMillis 50)
    let events := [join 1, pause, join 2, goesOff, pause]
    let events' := [join 1, pause, goesOff, join 2, pause]
    let sent events := ((runAt .instant group Config.quick events).course group).sent
    (hears Config.quick .instant group events).map Heard.said =
      (hears Config.quick .instant group events').map Heard.said ∧
    sent events =
      [(Duration.ofMillis 50, [⟨[⟨.allow, group, [source 1, source 2]⟩]⟩])] ∧
    sent events' = [(Duration.ofMillis 50, [⟨[⟨.allow, group, [source 1]⟩]⟩])] := by
  decide +kernel

/-- **Reports of changes do not depend on anything else.** Take any two runs with the same settings,
and one group, for which sending keeps the same pace in both. Let them agree on the calls for the
group and on the ends of tunnels, with times. If a report of the group is due, or has been sent, at
such a time, let them also agree on whether that comes first. Besides this they may differ in
everything: in queries and their delays, in the calls for other groups, and in the order and time in
which runs wake up and reports are sent.

Then the reports of the group's changes are the same in both, with times, as far as both runs go. -/
theorem change_reports_independent (config : Config) (pace : Pace) (group : Address)
    (events events' : List Event)
    (agree : (hears config pace group events).map Heard.said =
      (hears config pace group events').map Heard.said)
    (order : (hears config pace group events).map Heard.rank =
      (hears config pace group events').map Heard.rank) :
    let s := runAt pace group config events
    let s' := runAt pace group config events'
    ((s.course group).sent <+: (s'.course group).sent ∨
      (s'.course group).sent <+: (s.course group).sent) ∧
    ∀ time, time ≤ s.now → time ≤ s'.now →
      (s.course group).sent.filter (·.1 < time) = (s'.course group).sent.filter (·.1 < time) := by
  intro s s'
  have onPace : s.OnPace config pace group := .runAt config pace group events
  have onPace' : s'.OnPace config pace group := .runAt config pace group events'
  have start : (start config).OnPace config pace group := .start
  have runs := start.runs events
  have runs' := start.runs events'
  rw [← hears, ← Heard.eq_of_said agree order, hears] at runs'
  rcases runs.compare runs' with ⟨time, more⟩ | ⟨time, more⟩
  · obtain ⟨front, same⟩ := onPace.sent_of_runs more
    exact ⟨.inl front, fun time reached _ => (same time reached).symm⟩
  · obtain ⟨front, same⟩ := onPace'.sent_of_runs more
    exact ⟨.inr front, fun time _ reached => same time reached⟩

/-- A group is joined, left and joined again, in one of two runs with a query in between. There the
query keeps the record of the group while nothing is wanted of it; the other run drops it. -/
theorem change_reports_independent_recordKept :
    let config := { Config.quick with robustness := 1 }
    let group := Address.ofOctets 239 1 1 1
    let query : Query := ⟨some group, [], .ofSeconds 1, false, none, none⟩
    let pause := Event.pass (.ofMillis 50)
    let join := Event.call group (.join .allSources)
    let left : List Event :=
      [join, pause, .begin 0 (.change group), .query 900 query, pause, .call group .leave, pause,
        .begin 2 (.change group), pause]
    let left' : List Event :=
      [join, pause, .begin 0 (.change group), pause, .call group .leave, pause,
        .begin 1 (.change group), pause]
    let events := left ++ [join, pause, .begin 3 (.change group), pause]
    let events' := left' ++ [join, pause, .begin 2 (.change group), pause]
    (runAt .instant group config left).listener.groups.get? group ≠ none ∧
    (runAt .instant group config left').listener.groups.get? group = none ∧
    ((runAt .instant group config events).course group).sent.map (·.1) =
      [Duration.ofMillis 50, Duration.ofMillis 150, Duration.ofMillis 250] ∧
    (hears config .instant group events).map Heard.said =
      (hears config .instant group events').map Heard.said ∧
    (hears config .instant group events).map Heard.rank =
      (hears config .instant group events').map Heard.rank ∧
    ∀ time ≤ Duration.ofMillis 300,
      ((runAt .instant group config events).course group).sent.filter (·.1 < time) =
        ((runAt .instant group config events').course group).sent.filter (·.1 < time) := by
  intro config group query pause join left left' events events'
  have agree : (hears config .instant group events).map Heard.said =
      (hears config .instant group events').map Heard.said := by decide +kernel
  have order : (hears config .instant group events).map Heard.rank =
      (hears config .instant group events').map Heard.rank := by decide +kernel
  have now : (runAt .instant group config events).now = Duration.ofMillis 300 := by decide +kernel
  have now' : (runAt .instant group config events').now = Duration.ofMillis 300 := by decide +kernel
  obtain ⟨-, same⟩ := change_reports_independent config .instant group events events' agree order
  refine ⟨by decide +kernel, by decide +kernel, by decide +kernel, agree, order,
    fun time reached => ?_⟩
  exact same time (now ▸ reached) (now' ▸ reached)

end Timeline

end MulticastTunnel
