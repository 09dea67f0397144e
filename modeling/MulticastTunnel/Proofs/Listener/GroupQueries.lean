import MulticastTunnel.Proofs.Interest.Coalescing
import MulticastTunnel.Proofs.Listener.Outlook

/-!
# Queries about a group are answered

A query about a group of which anything is wanted joins a response about the group that is waiting,
or counts on the response to general queries if that is due in time, or gets a response of its own.
Whatever happens to the group meanwhile, a response that is waiting is not put off, and answers all
queries that have joined it.

* `SourceFilter.answer` : what queries about a group are answered with.
* `Timeline.unanswered` : the queries about a group that wait for a response, by the events.
* `Timeline.Timely.reacts_asked` : a response that is waiting begins in time.
* `Timeline.group_queries_answered` : **no query about a group is lost**.
-/

namespace MulticastTunnel

/-- What queries about a group that named these sources are answered with: all that is wanted of the
group if one of them named none, and otherwise which of the sources are wanted. -/
def SourceFilter.answer (f : SourceFilter) (group : Address) (queries : List (List Address)) :
    Option Record :=
  if AskedSources.SomeAll queries then
    if f.isEmpty then none else some (f.currentState group)
  else
    let wanted := AddressSet.ofList (queries.flatten.filter f.accepts)
    if wanted.isEmpty then none else some ⟨.isInclude, group, wanted.toList⟩

theorem GroupState.response_together (g : GroupState) (queries : List (List Address)) :
    g.response (.together queries) = g.filter.answer g.group queries := by
  by_cases whole : AskedSources.SomeAll queries
  · rw [AskedSources.together, if_pos whole, SourceFilter.answer, if_pos whole]
    refine Option.ext fun r => ?_
    show g.currentState = some r ↔ _
    rw [GroupState.currentState_eq_some_iff]
    cases empty : g.filter.isEmpty <;> simp [eq_comm]
  · have wanted : g.wantedAmong (AddressSet.ofList queries.flatten) =
        AddressSet.ofList (queries.flatten.filter g.filter.accepts) := by
      refine AddressSet.eq_of_mem_iff fun a => ?_
      rw [mem_wantedAmong, AddressSet.mem_ofList, AddressSet.mem_ofList, List.mem_filter]
    rw [AskedSources.together, if_neg whole, SourceFilter.answer, if_neg whole, ← wanted]
    rfl

namespace Listener

variable {l : Listener} {now : Instant} {group : Address}

theorem groupQuery_of_isEmpty (nothing : (l.interest group).isEmpty = true) (delay : Duration)
    (sources : List Address) : l.groupQuery now delay group sources = l := by
  unfold groupQuery
  split
  · rfl
  · next g known =>
    have same : l.interest group = g.filter := by simp [interest, filter?, known]
    rw [if_pos (same ▸ nothing)]

end Listener

namespace Timeline

variable {s : Timeline} {group : Address} {asked : AskedSources} {due : Instant}
variable {waiting : List (List Address)}

/-! ### Queries that wait -/

/-- The query is handled, it is about the group, and of the group something is wanted. It joins the
queries that are waiting, or waits for a response of its own: it does not count on the response to
general queries. -/
def Heeds (s : Timeline) (group : Address) (waiting : List (List Address)) (random : Nat)
    (q : Query) : Prop :=
  (s.listener.closed = false ∧ q.group = some group) ∧
    (s.listener.interest group).isEmpty = false ∧ (waiting ≠ [] ∨
      s.responseDue?.any (· ≤ s.now + Jitter.delay (s.listener.window q) random) = false)

instance {random : Nat} {q : Query} : Decidable (s.Heeds group waiting random q) :=
  inferInstanceAs (Decidable (_ ∧ _ ∧ _))

/-- The queries about a group that wait for a response, after one more event. -/
def heed (s : Timeline) (group : Address) (waiting : List (List Address)) :
    Event → List (List Address)
  | .query random q => if s.Heeds group waiting random q then waiting ++ [q.sources] else waiting
  | .begin run job =>
    if job = .query group ∧ s.listener.timers.DueBy run job s.now then [] else waiting
  | .cancelPending | .shutdown => []
  | _ => waiting

/-- The queries about a group that wait for a response, after more events. -/
def heeds (group : Address) : Timeline → List (List Address) → List Event → List (List Address)
  | _, waiting, [] => waiting
  | s, waiting, event :: later => heeds group (s.react event) (s.heed group waiting event) later

/-- The queries about a group that wait for a response after all events, by their sources: those
that were heeded since the last response, or since everything was forgotten. -/
def unanswered (config : Config) (group : Address) (events : List Event) : List (List Address) :=
  heeds group (start config) [] events

theorem heeds_concat {events : List Event} {event : Event} :
    heeds group s waiting (events ++ [event]) =
      (s.reacts events).heed group (heeds group s waiting events) event := by
  induction events generalizing s waiting with
  | nil => rfl
  | cons first later ih => exact ih

/-- **The queries that wait** are those that the record of the group tells of. -/
theorem Timely.asked_react (h : s.Timely)
    (same : (s.outlook group).asked = AskedSources.ofQueries waiting) (event : Event) :
    ((s.react event).outlook group).asked =
      AskedSources.ofQueries (s.heed group waiting event) := by
  cases event with
  | pass time => rw [outlook_pass]; exact same
  | call other c =>
    rw [h.outlook_call]
    split
    · rw [Outlook.move]
      split
      · exact same
      · exact same
    · exact same
  | query random q =>
    rw [outlook_query, heed]
    -- whether a query is heeded can be told by the record, and need not be told by past queries
    by_cases about : s.listener.closed = false ∧ q.group = some group
    · have heeded : s.Heeds group waiting random q ↔ (s.outlook group).filter.isEmpty = false ∧
          ((s.outlook group).asked.isSome ∨ s.listener.generalAlarm.due?.any
            (· ≤ s.now + Jitter.delay (s.listener.window q) random) = false) := by
        rw [Heeds, same, filter_outlook, responseDue?]
        cases waiting <;> simp [about, AskedSources.ofQueries]
      simp only [if_pos about, Outlook.asked_ask, ← heeded]
      split
      · rw [AskedSources.ofQueries_concat, same]
      · exact same
    · rw [if_neg about, if_neg fun heeded => about heeded.1]
      exact same
  | cancelPending => rw [h.outlook_cancelPending]; rfl
  | shutdown => rfl
  | begin run job =>
    by_cases wakes : s.listener.timers.DueBy run job s.now
    · rw [h.outlook_begin group wakes, heed]
      by_cases response : job = .query group
      · rw [if_pos response, if_pos (And.intro response wakes)]
        rfl
      · have other : ¬ (job = .query group ∧ s.listener.timers.DueBy run job s.now) :=
          fun both => response both.1
        rw [if_neg response, if_neg other]
        split
        · exact same
        · exact same
    · rw [Timeline.react, if_neg wakes, heed, if_neg (wakes ·.2)]
      exact same
  | finish f =>
    rw [h.outlook_finish]
    split
    · exact same
    · exact same

theorem asked_run (config : Config) (group : Address) (events : List Event) :
    ((run config events).outlook group).asked =
      AskedSources.ofQueries (unanswered config group events) := by
  induction events using List.reverseRecOn with
  | nil => rfl
  | append_singleton events event ih =>
    rw [run, unanswered, reacts_concat, heeds_concat]
    exact (timely_run config events).asked_react ih event

/-- Queries wait for a response exactly if it is due at some time. -/
theorem Timely.asked_isSome_iff (h : s.Timely) :
    (s.outlook group).asked.isSome ↔ (s.outlook group).answerDue.isSome := by
  cases known : s.listener.groups.get? group with
  | none =>
    have unknown : s.outlook group = .unknown := by simp [outlook, Listener.outlook, known]
    simp [unknown, Outlook.unknown]
  | some g =>
    have same : s.outlook group = g.outlook := Listener.outlook_of_get? known
    rw [same]
    exact h.upkeep.asked_iff (List.mem_of_find?_eq_some known)

/-! ### What a query does -/

/-- A query about a group of which something is wanted waits for its response, with those that are
waiting already, or the response to general queries is due in time. -/
theorem asked_query (running : s.listener.closed = false) {q : Query} (about : q.group = some group)
    (wanted : (s.outlook group).filter.isEmpty = false) (random : Nat) {delay : Duration}
    (drawn : Jitter.delay (s.listener.window q) random = delay) :
    let s' := s.react (.query random q)
    ((s.outlook group).asked = none ∧ (s'.outlook group).asked = none ∧
      ∃ due ≤ s.now + delay, s'.responseDue? = some due) ∨
    ∃ asked, (s'.outlook group).asked = some asked ∧
      (AskedSources.ofQuery q.sources).Within asked ∧
      (∀ before, (s.outlook group).asked = some before → before.Within asked) ∧
      (s'.outlook group).answerDue =
        if (s.outlook group).asked.isSome then (s.outlook group).answerDue
        else some (s.now + delay) := by
  intro s'
  have after : s'.outlook group =
      (s.outlook group).ask s.responseDue? (s.now + delay) q.sources := by
    show (s.react (.query random q)).outlook group = _
    rw [outlook_query, if_pos ⟨running, about⟩, drawn]
    rfl
  have untouched : s'.responseDue? = s.responseDue? := by
    show (s.listener.query s.now random q).generalAlarm.due? = s.listener.generalAlarm.due?
    rw [Listener.query, if_neg (by simp [running]), about]
    exact congrArg Alarm.due? (Listener.generalAlarm_groupQuery _ _)
  rw [after, untouched, Outlook.ask, if_neg (by simp [wanted])]
  cases pending : (s.outlook group).asked with
  | some asked =>
    refine .inr ⟨asked.merge q.sources, rfl, .ofQuery_merge _ _, ?_, rfl⟩
    rintro before same
    obtain rfl := Option.some.inj same
    exact .merge asked q.sources
  | none =>
    dsimp only
    split
    · next soon =>
      obtain ⟨due, set, early⟩ := (Option.any_eq_true _ _).1 soon
      exact .inl ⟨rfl, pending, due, by simpa using early, set⟩
    · exact .inr ⟨_, rfl, .refl _, by simp, rfl⟩

/-! ### Until the response begins -/

/-- A response about the group is due at some time, and answers at least what is asked here. -/
structure Awaits (s : Timeline) (group : Address) (asked : AskedSources) (due : Instant) :
    Prop where
  asked : ∃ more, (s.outlook group).asked = some more ∧ asked.Within more
  due : (s.outlook group).answerDue = some due

/-- Since `s`, a response about the group has begun at `due`, and it was the first one. -/
def Answered (s : Timeline) (group : Address) (due : Instant) (s' : Timeline) : Prop :=
  ∃ b more, b.time = due ∧ s'.begunFor (.query group) = s.begunFor (.query group) ++ b :: more

theorem Awaits.now_le (waits : s.Awaits group asked due) (h : s.Timely) : s.now ≤ due := by
  have set : (s.listener.outlook group).answerDue = some due := waits.due
  rw [Listener.answerDue_outlook] at set
  exact h.now_le set

theorem Awaits.of_outlook {s' : Timeline} (waits : s.Awaits group asked due)
    (same : (s'.outlook group).asked = (s.outlook group).asked)
    (same' : (s'.outlook group).answerDue = (s.outlook group).answerDue) :
    s'.Awaits group asked due :=
  ⟨same ▸ waits.asked, same'.trans waits.due⟩

theorem Timely.begins_answer (h : s.Timely) {run : Nat}
    (wakes : s.listener.timers.DueBy run (.query group) s.now)
    (same : (s.outlook group).asked = AskedSources.ofQueries waiting) :
    waiting ≠ [] ∧ (s.listener.begin run (.query group)).2 = some ⟨run, .query group,
      s.listener.parts ((s.outlook group).filter.answer group waiting).toList, none⟩ := by
  obtain ⟨g, asked, known, pending, begins⟩ := h.upkeep.listener.begin_query (h.set_of_dueBy wakes)
  have state : s.outlook group = g.outlook := Listener.outlook_of_get? known
  obtain rfl := Groups.group_of_get? known
  have some : waiting ≠ [] := by
    rintro rfl
    rw [state, AskedSources.ofQueries] at same
    exact absurd (same.symm.trans pending) (by simp)
  have together : asked = .together waiting := by
    rw [state, AskedSources.ofQueries_eq some] at same
    exact Option.some.inj (pending.symm.trans same)
  refine ⟨some, ?_⟩
  have begins' : (s.listener.begin run (.query g.group)).2 = _ := congrArg Prod.snd begins
  rw [begins', together, GroupState.response_together, state]
  rfl

theorem Awaits.eq_now (waits : s.Awaits group asked due) (h : s.Timely) {run : Nat}
    (wakes : s.listener.timers.DueBy run (.query group) s.now) : due = s.now := by
  have set : (s.listener.outlook group).answerDue = some due := waits.due
  rw [Listener.answerDue_outlook, Listener.alarm, h.set_of_dueBy wakes] at set
  exact (Option.some.inj set).symm

/-- **Nothing but the response ends the wait for it**, unless it is forgotten. -/
theorem Timely.react_awaits (h : s.Timely) (waits : s.Awaits group asked due) {event : Event}
    (notForgotten : event ≠ .cancelPending ∧ event ≠ .shutdown) :
    ((s.react event).Awaits group asked due ∧
      (s.react event).begunFor (.query group) = s.begunFor (.query group)) ∨
    s.Answered group due (s.react event) := by
  -- only queries about the group and the response itself touch what is waiting
  have quiet (same : ((s.react event).outlook group).asked = (s.outlook group).asked)
      (same' : ((s.react event).outlook group).answerDue = (s.outlook group).answerDue)
      (other : ∀ run, event = .begin run (.query group) →
        ¬ s.listener.timers.DueBy run (.query group) s.now) :
      (s.react event).Awaits group asked due ∧
        (s.react event).begunFor (.query group) = s.begunFor (.query group) :=
    ⟨waits.of_outlook same same', begunFor_react other⟩
  cases event with
  | pass time =>
    have same : (s.react (.pass time)).outlook group = s.outlook group := outlook_pass time
    exact .inl (quiet (by rw [same]) (by rw [same]) (by simp))
  | call other c =>
    have same := h.outlook_call group other c
    refine .inl (quiet ?_ ?_ (by simp))
    all_goals
      rw [same, Outlook.move]
      split
      · split
        · rfl
        · rfl
      · rfl
  | query random q =>
    obtain ⟨before, pending, within'⟩ := waits.asked
    refine .inl ⟨?_, begunFor_react (by simp)⟩
    have after := outlook_query s group random q
    split at after
    · rw [Outlook.ask, pending] at after
      split at after
      · exact waits.of_outlook (by rw [after]) (by rw [after])
      · exact ⟨⟨_, by rw [after], within'.trans (.merge before q.sources)⟩,
          by rw [after]; exact waits.due⟩
    · exact waits.of_outlook (by rw [after]) (by rw [after])
  | cancelPending => exact absurd rfl notForgotten.1
  | shutdown => exact absurd rfl notForgotten.2
  | begin run job =>
    by_cases wakes : s.listener.timers.DueBy run job s.now
    · by_cases response : job = .query group
      · subst response
        obtain ⟨g, asked, -, -, begins⟩ := h.upkeep.listener.begin_query (h.set_of_dueBy wakes)
        exact .inr ⟨_, [], (waits.eq_now h wakes).symm,
          begunFor_begin wakes (congrArg Prod.snd begins)⟩
      · have after := h.outlook_begin group wakes
        rw [if_neg response] at after
        refine .inl (quiet ?_ ?_ fun run' same => absurd (Event.begin.inj same).2 response)
        all_goals
          rw [after]
          split
          · rfl
          · rfl
    · have same : s.react (.begin run job) = s := by rw [Timeline.react, if_neg wakes]
      refine .inl (quiet (by rw [same]) (by rw [same]) ?_)
      rintro run' event
      obtain ⟨rfl, rfl⟩ := Event.begin.inj event
      exact wakes
  | finish f =>
    have same := h.outlook_finish group f
    refine .inl (quiet ?_ ?_ (by simp))
    all_goals
      rw [same]
      split
      · rfl
      · rfl

theorem begunFor_prefix (s : Timeline) (job : ReportJob) (event : Event) :
    s.begunFor job <+: (s.react event).begunFor job := by
  obtain ⟨new, begun⟩ := s.begun_react event
  rw [begunFor, begunFor, begun, List.filter_append]
  exact List.prefix_append _ _

/-- As long as it is not forgotten, the response is still to come, or it has begun in time. -/
theorem Timely.reacts_awaits (h : s.Timely) (waits : s.Awaits group asked due) {later : List Event}
    (notForgotten : .cancelPending ∉ later ∧ .shutdown ∉ later) :
    ((s.reacts later).Awaits group asked due ∧
      (s.reacts later).begunFor (.query group) = s.begunFor (.query group)) ∨
    s.Answered group due (s.reacts later) := by
  induction later using List.reverseRecOn with
  | nil => exact .inl ⟨waits, rfl⟩
  | append_singleton later event ih =>
    simp only [List.mem_append, List.mem_singleton, not_or] at notForgotten
    obtain ⟨⟨notCanceled, ne⟩, ⟨notShut, ne'⟩⟩ := notForgotten
    have timely := h.reacts later
    have fate := ih ⟨notCanceled, notShut⟩
    rw [reacts_concat]
    generalize s.reacts later = s' at timely fate ⊢
    -- a response that has begun stays the first one, whatever comes after it
    rcases fate with ⟨waits', same⟩ | ⟨b, more, time, begun⟩
    · rcases timely.react_awaits waits' ⟨Ne.symm ne, Ne.symm ne'⟩ with
        ⟨waits'', same'⟩ | ⟨b, more, time, begun⟩
      · exact .inl ⟨waits'', same'.trans same⟩
      · exact .inr ⟨b, more, time, by rw [begun, same]⟩
    · obtain ⟨new, begun'⟩ := s'.begunFor_prefix (.query group) event
      exact .inr ⟨b, more ++ new, time, by rw [← begun', begun]; simp⟩

theorem Timely.exists_answer (h : s.Timely) (waits : s.Awaits group asked due) {later : List Event}
    (notForgotten : .cancelPending ∉ later ∧ .shutdown ∉ later) :
    ∃ more, (∀ e ∈ more, e.IsInternal) ∧ s.Answered group due (s.reacts (later ++ more)) := by
  -- the response is not put off, so it has begun once its time is over
  obtain ⟨more, internal, late⟩ := (s.reacts later).exists_later (due + 1)
  refine ⟨more, internal, ?_⟩
  rw [← reacts_append] at late
  have notForgotten' : .cancelPending ∉ later ++ more ∧ .shutdown ∉ later ++ more := by
    simp only [List.mem_append, not_or]
    exact ⟨⟨notForgotten.1, fun h => internal _ h⟩, ⟨notForgotten.2, fun h => internal _ h⟩⟩
  rcases h.reacts_awaits waits notForgotten' with ⟨waits', -⟩ | answered
  · have early := waits'.now_le (h.reacts _)
    exact absurd (Nat.le_trans late early) (Nat.not_succ_le_self _)
  · exact answered

theorem query_of_isEmpty {q : Query} (about : q.group = some group)
    (nothing : (s.outlook group).filter.isEmpty = true) (random : Nat) :
    s.react (.query random q) = s := by
  have same : s.listener.query s.now random q = s.listener := by
    unfold Listener.query
    split
    · rfl
    · rw [about]
      exact Listener.groupQuery_of_isEmpty (filter_outlook ▸ nothing) _ _
  show { s with reporting := { s.reporting with listener := s.listener.query s.now random q } } = s
  rw [same]
  rfl

/-- **No query about a group is lost.** At any time of any run, the record of the group tells what
is asked by the queries that were heeded since the last response, or since everything was forgotten,
and if there are any, the response to them is due at some time.

A query about a group of which nothing is wanted changes nothing. Otherwise, unless the listener is
shut down, it counts on the response to general queries, which is due within the delay that is drawn
for the query, or it joins the queries that are waiting, with the time at which they get their
response, or its own response is due after the delay.

As long as they are not forgotten, the queries that wait remain so, and no less is asked by them,
until the response to them begins at the time it was due all along; and however things stand, runs
can wake up such that it begins. When the alarm goes off, the one response that begins answers all
of the queries, by what is wanted at that time, and none is left waiting. -/
theorem group_queries_answered (config : Config) (events : List Event) (group : Address) :
    let s := run config events
    let before := s.outlook group
    let queries := unanswered config group events
    before.asked = AskedSources.ofQueries queries ∧
    (before.asked.isSome ↔ before.answerDue.isSome) ∧
    (∀ random q, q.group = some group →
      let window := config.responseWindow q.maxResponseDelay
      let delay := Jitter.delay window random
      let s' := s.react (.query random q)
      let after := s'.outlook group
      delay ≤ window ∧
      (before.filter.isEmpty = true → s' = s) ∧
      (s.listener.closed = false → before.filter.isEmpty = false →
        (before.asked = none ∧ after.asked = none ∧
          ∃ due ≤ s.now + delay, s'.responseDue? = some due) ∨
        ∃ asked, after.asked = some asked ∧ (AskedSources.ofQuery q.sources).Within asked ∧
          (∀ earlier, before.asked = some earlier → earlier.Within asked) ∧
          after.answerDue =
            if before.asked.isSome then before.answerDue else some (s.now + delay))) ∧
    (∀ asked due, before.asked = some asked → before.answerDue = some due →
      ∀ later, .cancelPending ∉ later → .shutdown ∉ later →
      let s' := s.reacts later
      ((s'.Awaits group asked due ∧ s'.now ≤ due ∧
          s'.begunFor (.query group) = s.begunFor (.query group)) ∨ s.Answered group due s') ∧
      ∃ more, (∀ e ∈ more, e.IsInternal) ∧ s.Answered group due (s.reacts (later ++ more))) ∧
    ∀ run, s.listener.timers.DueBy run (.query group) s.now →
      let event := Event.begin run (.query group)
      let s' := s.react event
      let answer := (before.filter.answer group queries).toList
      queries ≠ [] ∧ before.answerDue = some s.now ∧
      s'.begunFor (.query group) = s.begunFor (.query group) ++ [⟨s.now, s.listener,
        ⟨run, .query group, (Report.mk answer).splitToFit config.maxReportLength, none⟩⟩] ∧
      (s'.outlook group).asked = none ∧ unanswered config group (events ++ [event]) = [] := by
  intro s before queries
  have timely : s.Timely := timely_run config events
  have settings : s.listener.config = config := (complete_run config events).settings
  have pending : before.asked = AskedSources.ofQueries queries := asked_run config group events
  refine ⟨pending, timely.asked_isSome_iff, fun random q about => ?_,
    fun asked due set due' later notCanceled notShut => ?_, fun run wakes => ?_⟩
  -- what a query does at once
  · have drawn : Jitter.delay (s.listener.window q) random =
        Jitter.delay (config.responseWindow q.maxResponseDelay) random := by
      rw [Listener.window, settings]
    exact ⟨Jitter.delay_le _ _, fun nothing => query_of_isEmpty about nothing random,
      fun running wanted => asked_query running about wanted random drawn⟩
  -- what becomes of queries that wait
  · have waits : s.Awaits group asked due := ⟨⟨asked, set, .refl asked⟩, due'⟩
    have notForgotten := And.intro notCanceled notShut
    refine ⟨?_, timely.exists_answer waits notForgotten⟩
    rcases timely.reacts_awaits waits notForgotten with ⟨waits', same⟩ | answered
    · exact .inl ⟨waits', waits'.now_le (timely.reacts later), same⟩
    · exact .inr answered
  -- what the alarm of the response does
  · obtain ⟨present, begins⟩ := timely.begins_answer wakes pending
    have due : before.answerDue = some s.now := by
      show (s.listener.outlook group).answerDue = _
      rw [Listener.answerDue_outlook, Listener.alarm, timely.set_of_dueBy wakes]
      rfl
    have after := timely.outlook_begin group wakes
    rw [if_pos rfl] at after
    refine ⟨present, due, ?_, by rw [after]; rfl, ?_⟩
    · rw [begunFor_begin wakes begins, Listener.parts, settings]
    · rw [unanswered, heeds_concat]
      exact if_pos ⟨rfl, wakes⟩

/-- Two queries about one source each come 100 ms apart. The second one asks for a response within
10 ms, but joins the first one, which gets its response after 800 ms; it is about both sources. -/
theorem group_queries_answered_merged :
    let group := Address.ofOctets 239 1 1 1
    let sources := [Address.ofOctets 10 0 0 1, Address.ofOctets 10 0 0 2]
    let query (source : Address) : Query := ⟨some group, [source], .ofSeconds 1, false, none, none⟩
    let events : List Event :=
      [.call group (.join .allSources), .query 800 (query sources[0]), .pass (.ofMillis 50),
        .begin 0 (.change group), .pass (.ofMillis 50), .query 10 (query sources[1])]
    let s := run Config.quick events
    let due := run Config.quick (events ++ [.pass (.ofMillis 700)])
    unanswered Config.quick group events = [[sources[0]], [sources[1]]] ∧
    (s.outlook group).answerDue = some (Duration.ofMillis 800) ∧
    (∃ later, s.Answered group (Duration.ofMillis 800) (s.reacts later)) ∧
    ∃ b, (due.react (.begin 1 (.query group))).begunFor (.query group) = [b] ∧
      b.firing.reports = [⟨[⟨.isInclude, group, sources⟩]⟩] := by
  intro group sources query events s due
  have answerDue : (s.outlook group).answerDue = some (Duration.ofMillis 800) := by decide
  obtain ⟨-, waiting, -, answered, -⟩ := group_queries_answered Config.quick events group
  obtain ⟨asked, pending⟩ := Option.isSome_iff_exists.1 (waiting.2 (by rw [answerDue]; rfl))
  obtain ⟨-, more, -, answered⟩ := answered asked _ pending answerDue [] (by simp) (by simp)
  obtain ⟨-, -, -, -, begins⟩ :=
    group_queries_answered Config.quick (events ++ [.pass (.ofMillis 700)]) group
  have wakes : due.listener.timers.DueBy 1 (.query group) due.now := by decide
  have first : due.begunFor (.query group) = [] := by decide
  obtain ⟨-, -, begun, -⟩ := begins 1 wakes
  rw [first] at begun
  exact ⟨by decide, answerDue, ⟨_, answered⟩, _, begun, by decide⟩

end Timeline

end MulticastTunnel
