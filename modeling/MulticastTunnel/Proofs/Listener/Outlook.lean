import MulticastTunnel.Proofs.Listener.General

/-!
# What lies ahead of a group

The record of a group says what is wanted of it, what queries have asked about and which change is
still to be reported; its alarms say when. An `Outlook` is all of this, whether or not the listener
has a record of the group: a record is dropped only when nothing lies ahead.

Each operation does one thing to the outlook of the group it is for, and nothing to any other.

* `Listener.Upkeep.outlook_apply`, `Listener.outlook_query` : the group gets a filter, or is asked
  about.
* `Listener.Upkeep.outlook_begin`, `Listener.outlook_finish` : an alarm goes off, and is set again.
* `Listener.outlook_cancelPending` : what lay ahead is forgotten.
-/

namespace MulticastTunnel

/-- What is wanted of a group, and what is to be told about it, and when. -/
@[ext]
structure Outlook where
  filter : SourceFilter
  /-- What the queries asked about that wait for a response. -/
  asked : Option AskedSources
  /-- When they get it. -/
  answerDue : Option Instant
  /-- A change that waits for its next report. -/
  change : Option PendingChange
  /-- When that is due, unless a report of it is being sent. -/
  changeDue : Option Instant
  deriving DecidableEq

namespace Outlook

/-- Nothing is known of the group. -/
def unknown : Outlook := ⟨.noInterest, none, none, none, none⟩

/-- The group gets another filter. The report of the change is due at `due`, unless it was due
earlier before. -/
def move (o : Outlook) (robustness : Nat) (due : Instant) (filter : SourceFilter) : Outlook :=
  if o.filter = filter then o
  else
    { o with
      filter
      change := some (.record o.change o.filter filter robustness)
      changeDue := some (o.changeDue.elim due (min · due)) }

/-- The group is asked about, while the response to general queries may be due at `general`. The
query joins a response that is waiting, or counts on the general one, or has its own at `due`. -/
def ask (o : Outlook) (general : Option Instant) (due : Instant) (sources : List Address) :
    Outlook :=
  if o.filter.isEmpty then o
  else
    match o.asked with
    | some asked => { o with asked := some (asked.merge sources) }
    | none =>
      if general.any (· ≤ due) then o
      else { o with asked := some (.ofQuery sources), answerDue := some due }

/-- The queries have got their response. -/
def answered (o : Outlook) : Outlook := { o with asked := none, answerDue := none }

/-- A report of the change was handed out. -/
def transmitted (o : Outlook) : Outlook :=
  { o with change := o.change.bind PendingChange.transmitted, changeDue := none }

/-- What was to be told is forgotten. -/
def forgotten (o : Outlook) : Outlook := { unknown with filter := o.filter }

theorem ask_eq (o : Outlook) (general : Option Instant) (due : Instant) (sources : List Address) :
    ∃ asked answerDue, o.ask general due sources = { o with asked, answerDue } := by
  unfold ask
  split
  · exact ⟨_, _, rfl⟩
  · split
    · exact ⟨_, _, rfl⟩
    · split
      · exact ⟨_, _, rfl⟩
      · exact ⟨_, _, rfl⟩

theorem asked_ask {o : Outlook} {general : Option Instant} {due : Instant}
    {sources : List Address} : (o.ask general due sources).asked =
      if o.filter.isEmpty = false ∧ (o.asked.isSome ∨ general.any (· ≤ due) = false) then
        some (o.asked.elim (.ofQuery sources) (·.merge sources))
      else o.asked := by
  unfold ask
  cases o.filter.isEmpty with
  | true => simp
  | false =>
    cases pending : o.asked with
    | some asked => simp
    | none => cases soon : general.any (· ≤ due) <;> simp [pending]

end Outlook

/-- What lies ahead of the group of a record. -/
def GroupState.outlook (g : GroupState) : Outlook :=
  ⟨g.filter, g.asked, g.queryAlarm.due?, g.change, g.changeAlarm.due?⟩

theorem Alarm.Serves.due?_eq_none {firings : List Firing} {a : Alarm}
    (h : a.Serves firings false) : a.due? = none := by
  cases a with
  | waiting run due => simp [Alarm.Serves] at h
  | _ => rfl

theorem Alarm.due?_finish {a : Alarm} {timers : Timers ReportJob} {run : Nat}
    {next : Option Duration} {now : Instant} :
    (a.finish timers run next now).2.due? =
      if a = .acting run then next.map (now + ·) else a.due? := by
  unfold Alarm.finish
  split
  · cases next with
    | none => rfl
    | some delay => rfl
  · rfl

theorem GroupState.Served.outlook_of_isEvictable {firings : List Firing} {g : GroupState}
    (h : g.Served firings) (evictable : g.isEvictable = true) : g.outlook = .unknown := by
  simp only [GroupState.isEvictable, Bool.and_eq_true, SourceFilter.isEmpty_iff,
    Option.isNone_iff_eq_none] at evictable
  obtain ⟨⟨filter, asked⟩, change⟩ := evictable
  have query := h.query
  have changes := h.change
  rw [asked] at query
  rw [change] at changes
  simp only [GroupState.outlook, filter, asked, change, query.due?_eq_none, changes.due?_eq_none,
    Outlook.unknown]

namespace Listener

variable {l : Listener} {g : GroupState} {group other : Address} {firings : List Firing}
variable {now due : Instant} {run : Nat} {job : ReportJob}

/-- What lies ahead of a group. -/
def outlook (l : Listener) (group : Address) : Outlook :=
  ((l.groups.get? group).map GroupState.outlook).getD .unknown

theorem outlook_of_get? (h : l.groups.get? group = some g) : l.outlook group = g.outlook := by
  simp [outlook, h]

theorem filter_outlook : (l.outlook group).filter = l.interest group := by
  cases h : l.groups.get? group <;> simp [outlook, interest, filter?, h] <;> rfl

theorem standing_outlook :
    l.standing group = ⟨(l.outlook group).filter, (l.outlook group).change⟩ := by
  cases h : l.groups.get? group <;> simp [outlook, standing, Groups.standing, h] <;> rfl

theorem answerDue_outlook : (l.outlook group).answerDue = (l.alarm (.query group)).due? := by
  cases h : l.groups.get? group <;> simp [outlook, alarm, alarm?, h] <;> rfl

theorem changeDue_outlook : (l.outlook group).changeDue = (l.alarm (.change group)).due? := by
  cases h : l.groups.get? group <;> simp [outlook, alarm, alarm?, h] <;> rfl

theorem outlook_getD_fresh (l : Listener) (group : Address) :
    ((l.groups.get? group).getD (.fresh group)).outlook = l.outlook group := by
  cases h : l.groups.get? group <;> simp [outlook, h]; rfl

theorem outlook_put :
    (l.put g).outlook other = if g.group = other then g.outlook else l.outlook other := by
  simp only [put, outlook, Groups.get?_put]
  split
  · rfl
  · rfl

/-- Putting a record into its place and dropping it are the same to what lies ahead. -/
theorem outlook_keepOrDrop (served : g.Served firings) :
    (l.keepOrDrop g).outlook other = if g.group = other then g.outlook else l.outlook other := by
  by_cases evictable : g.isEvictable = true
  · rw [keepOrDrop, if_pos evictable, served.outlook_of_isEvictable evictable]
    simp only [drop, outlook, Groups.get?_erase]
    split
    · rfl
    · rfl
  · rw [keepOrDrop, if_neg evictable, outlook_put]

theorem outlook_putAlarm (h : (l.alarm? job).isSome) (a : Alarm) :
    (l.putAlarm job a).outlook other =
      if job = .query other then { l.outlook other with answerDue := a.due? }
      else if job = .change other then { l.outlook other with changeDue := a.due? }
      else l.outlook other := by
  cases job with
  | general => rfl
  | query group | change group =>
    cases known : l.groups.get? group with
    | none => simp [alarm?, known] at h
    | some g =>
      obtain rfl := Groups.group_of_get? known
      simp only [putAlarm, known, outlook_put, ReportJob.query.injEq, ReportJob.change.injEq,
        reduceCtorEq, if_false]
      split
      · next same => rw [← same, outlook_of_get? known]; rfl
      · rfl

/-! ### Calls and queries -/

theorem Upkeep.outlook_apply (h : l.Upkeep firings) (filter : SourceFilter) :
    (l.apply now group filter).outlook other =
      if group = other then
        (l.outlook group).move l.config.robustness.toNat (now + l.config.changeReportDelay) filter
      else l.outlook other := by
  have served := h.served_getD_fresh group
  have same := group_getD_fresh l group
  have before := outlook_getD_fresh l group
  unfold Listener.apply
  generalize (l.groups.get? group).getD (.fresh group) = g at served same before ⊢
  subst same
  rw [← before]
  dsimp only
  split
  · next unchanged =>
    have same : g.outlook.filter = filter := unchanged
    rw [outlook_keepOrDrop served, Outlook.move, if_pos same]
  · next changed =>
    have differs : g.outlook.filter ≠ filter := changed
    rw [outlook_put, Outlook.move, if_neg differs]
    refine if_congr Iff.rfl ?_ rfl
    simp only [GroupState.outlook, Outlook.mk.injEq, true_and]
    -- an alarm that would go off later is set anew, any other is left where it is
    cases set : g.changeAlarm with
    | waiting run due =>
      by_cases late : l.config.changeReportDelay < due - now
      · have later : now + l.config.changeReportDelay ≤ due :=
          Nat.le_of_lt (Nat.add_lt_of_lt_sub' late)
        simp [Alarm.remaining?, Alarm.due?, Alarm.setAt, late, Nat.min_eq_right later]
      · have soon : due ≤ now + l.config.changeReportDelay :=
          Nat.sub_le_iff_le_add'.1 (Nat.le_of_not_lt late)
        simp [Alarm.remaining?, Alarm.due?, late, Nat.min_eq_left soon]
    | _ => rfl

/-- A call that is permitted gives the group the filter it asks for, or leaves the listener alone
if the group has that filter. -/
theorem Upkeep.call_eq (h : l.Upkeep firings) (now : Instant) {c : Call}
    (permitted : l.permit group c.filter = .ok ()) :
    (c.outcome (l.interest group) = l.interest group ∧ l.call now group c = .ok l) ∨
      l.call now group c = .ok (l.apply now group (c.outcome (l.interest group))) := by
  rcases call_cases l now group c with ⟨-, l', success, called⟩ | ⟨e, refused, -⟩
  · have outcome : l'.interest group = c.outcome (l.interest group) := by
      rw [called.interest, if_pos rfl]
    obtain ⟨-, rfl | ⟨filter, -, rfl⟩⟩ := h.tidy.call_cases success
    · exact .inl ⟨outcome.symm, success⟩
    · have given : (l.apply now group filter).interest group = filter := by
        rw [← filter_standing, standing_apply, if_pos rfl, Standing.filter_move]
      rw [given] at outcome
      exact .inr (outcome ▸ success)
  · simp [refused] at permitted

theorem Upkeep.call_of_interest (h : l.Upkeep firings) {c : Call}
    (same : ((l.call now group c).toOption.getD l).interest group = l.interest group) :
    (l.call now group c).toOption.getD l = l := by
  rcases call_cases l now group c with ⟨permitted, l', success, called⟩ | ⟨e, -, failure⟩
  · have outcome : l.interest group = c.outcome (l.interest group) := by
      have after : l'.interest group = _ := called.interest group
      rw [if_pos rfl] at after
      rw [success] at same
      exact same.symm.trans after
    rcases h.call_eq now permitted with ⟨-, success⟩ | success
    · rw [success]
      rfl
    · rw [success]
      exact h.tidy.apply_of_eq now outcome
  · rw [failure]
    rfl

/-- **A call** gives its group the filter that it asks for, if that is permitted. -/
theorem Upkeep.outlook_call (h : l.Upkeep firings) (c : Call) :
    ((l.call now group c).toOption.getD l).outlook other =
      if group = other ∧ l.permit group c.filter = .ok () then
        (l.outlook other).move l.config.robustness.toNat (now + l.config.changeReportDelay)
          (c.outcome (l.outlook other).filter)
      else l.outlook other := by
  rcases call_cases l now group c with ⟨permitted, -⟩ | ⟨e, refused, failure⟩
  · by_cases same : group = other
    · subst same
      rw [if_pos ⟨rfl, permitted⟩, filter_outlook]
      rcases h.call_eq now permitted with ⟨unchanged, success⟩ | success
      · have filter : (l.outlook group).filter = c.outcome (l.interest group) :=
          filter_outlook.trans unchanged.symm
        rw [success, Outlook.move, if_pos filter]
        rfl
      · rw [success]
        exact (h.outlook_apply _).trans (if_pos rfl)
    · rw [if_neg (by simp [same])]
      rcases h.call_eq now permitted with ⟨-, success⟩ | success
      · rw [success]
        rfl
      · rw [success]
        exact (h.outlook_apply _).trans (if_neg same)
  · rw [failure, if_neg (by simp [refused])]
    rfl

theorem outlook_groupQuery (delay : Duration) (sources : List Address) :
    (l.groupQuery now delay group sources).outlook group =
      (l.outlook group).ask l.generalAlarm.due? (now + delay) sources := by
  have soon : (l.generalAlarm.remaining? now).any (· ≤ delay) =
      l.generalAlarm.due?.any (· ≤ now + delay) := by
    cases due : l.generalAlarm.due? with
    | none => simp [Alarm.remaining?, due]
    | some due' =>
      simp only [Alarm.remaining?, due, Option.map_some, Option.any_some, Nat.sub_le_iff_le_add']
  unfold groupQuery
  rw [soon]
  split
  · next unknown =>
    have before : l.outlook group = .unknown := by simp [outlook, unknown]
    rw [before]
    rfl
  · next g known =>
    have before := outlook_of_get? known
    obtain rfl := Groups.group_of_get? known
    by_cases nothing : g.filter.isEmpty = true
    · have empty : g.outlook.filter.isEmpty = true := nothing
      rw [if_pos nothing, before, Outlook.ask, if_pos empty]
    · have wanted : ¬ g.outlook.filter.isEmpty = true := nothing
      rw [if_neg nothing, before, Outlook.ask, if_neg wanted]
      cases pending : g.asked with
      | some asked =>
        have pending' : g.outlook.asked = some asked := pending
        simp only [pending', outlook_put, if_true]
        rfl
      | none =>
        have pending' : g.outlook.asked = none := pending
        simp only [pending']
        split
        · exact before
        · simp only [outlook_put, if_true]
          rfl

theorem outlook_groupQuery_of_ne (differs : group ≠ other) (delay : Duration)
    (sources : List Address) : (l.groupQuery now delay group sources).outlook other =
      l.outlook other := by
  unfold groupQuery
  split
  · rfl
  · next g known =>
    have differs' : g.group ≠ other := Groups.group_of_get? known ▸ differs
    split
    · rfl
    · split
      · rw [outlook_put, if_neg differs']
      · split
        · rfl
        · exact outlook_put.trans (if_neg differs')

theorem outlook_query (random : Nat) (q : Query) :
    (l.query now random q).outlook other =
      if l.closed = false ∧ q.group = some other then
        (l.outlook other).ask l.generalAlarm.due? (now + Jitter.delay (l.window q) random) q.sources
      else l.outlook other := by
  unfold query
  split
  · next closed => simp [closed]
  · next running =>
    dsimp only
    split
    · next general =>
      rw [general]
      unfold generalQuery
      split
      · simp
      · simp only [reduceCtorEq, and_false, if_false]
        rfl
    · next group about =>
      rw [about]
      by_cases same : group = other
      · subst same
        simp [outlook_groupQuery, running]
      · rw [outlook_groupQuery_of_ne same, if_neg (by simp [same])]

/-! ### Alarms -/

theorem outlook_woken (set : l.alarm? job = some (.waiting run due)) :
    (l.woken run job).outlook other =
      if job = .query other then { l.outlook other with answerDue := none }
      else if job = .change other then { l.outlook other with changeDue := none }
      else l.outlook other := by
  rw [woken, outlook_putAlarm (by simp [alarm?_timers, set])]
  rfl

theorem Upkeep.begin_query (h : l.Upkeep firings)
    (set : l.alarm? (.query group) = some (.waiting run due)) :
    ∃ g asked, l.groups.get? group = some g ∧ g.asked = some asked ∧
      l.begin run (.query group) =
        ((l.woken run (.query group)).keepOrDrop
            { g with queryAlarm := .acting run, asked := none },
          some ⟨run, .query group, l.parts (g.response asked).toList, none⟩) := by
  obtain ⟨g, known, waiting⟩ := Option.map_eq_some_iff.1 set
  obtain ⟨asked, pending⟩ := (h.served _ g known).query.exists_of_waiting waiting
  have known' := get?_woken_query known run
  have running := (h.besides_woken set (.inl rfl) (f := ⟨run, default, [], none⟩) rfl).running
  have settings : (l.woken run (.query group)).config = l.config := config_putAlarm _ _
  refine ⟨g, asked, known, pending, ?_⟩
  rw [begin_of_set set]
  simp [report, running, groupResponse, known', pending, parts, settings]
  rfl

theorem Upkeep.begin_change (h : l.Upkeep firings)
    (set : l.alarm? (.change group) = some (.waiting run due)) :
    ∃ g change, l.groups.get? group = some g ∧ g.change = some change ∧
      l.begin run (.change group) =
        ((l.woken run (.change group)).keepOrDrop
          { g with changeAlarm := .acting run, change := change.transmitted },
          some ⟨run, .change group, l.parts (change.records group g.filter),
            change.transmitted.map fun _ => l.config.changeReportInterval⟩) := by
  obtain ⟨g, known, waiting⟩ := Option.map_eq_some_iff.1 set
  obtain ⟨change, pending⟩ := (h.served _ g known).change.exists_of_waiting waiting
  have known' := get?_woken_change known run
  have running := (h.besides_woken set (.inr rfl) (f := ⟨run, default, [], none⟩) rfl).running
  have settings : (l.woken run (.change group)).config = l.config := config_putAlarm _ _
  refine ⟨g, change, known, pending, ?_⟩
  rw [begin_of_set set]
  cases transmitted : change.transmitted with
  | none =>
    simp [report, running, changeReport, known', pending, transmitted, parts, settings]
  | some left =>
    simp [report, running, changeReport, known', pending, transmitted, parts, settings, keepOrDrop,
      GroupState.isEvictable]

/-- **When an alarm goes off**, the queries about its group have got their response, or a report of
its change was handed out. -/
theorem Upkeep.outlook_begin (h : l.Upkeep firings)
    (set : l.alarm? job = some (.waiting run due)) :
    (l.begin run job).1.outlook other =
      if job = .query other then (l.outlook other).answered
      else if job = .change other then (l.outlook other).transmitted
      else l.outlook other := by
  cases job with
  | general =>
    have running := h.running_of_set set
    have same : (l.begin run .general).1 = l.woken run .general := by
      rw [begin_of_set set]
      simp [report, woken, putAlarm, running]
    rw [same, outlook_woken set]
    rfl
  | query group =>
    obtain ⟨g, asked, known, -, begins⟩ := h.begin_query set
    have served := h.served_concat known (h.not_sent set)
      (f := ⟨run, .query group, l.parts (g.response asked).toList, none⟩)
    have answered : GroupState.Served _ { g with queryAlarm := .acting run, asked := none } :=
      ⟨h.serves_new set rfl, served.change⟩
    rw [begins, outlook_keepOrDrop answered, Groups.group_of_get? known, outlook_woken set]
    by_cases same : group = other
    · subst same
      rw [if_pos rfl, if_pos rfl, outlook_of_get? known]
      rfl
    · simp [same]
  | change group =>
    obtain ⟨g, change, known, pending, begins⟩ := h.begin_change set
    have served := h.served_concat known (h.not_sent set)
      (f := ⟨run, .change group, l.parts (change.records group g.filter),
        change.transmitted.map fun _ => l.config.changeReportInterval⟩)
    have transmitted : GroupState.Served _
        { g with changeAlarm := .acting run, change := change.transmitted } :=
      ⟨served.query, h.serves_new set Option.isSome_map⟩
    rw [begins, outlook_keepOrDrop transmitted, Groups.group_of_get? known, outlook_woken set]
    by_cases same : group = other
    · subst same
      rw [if_pos rfl, if_neg (by simp), if_pos rfl, outlook_of_get? known]
      simp [GroupState.outlook, Outlook.transmitted, pending, Alarm.due?]
    · simp [same]

/-- **When all reports of a firing are sent**, the next report of the change is due after the delay
that the firing names, unless the alarm has been set anew meanwhile. -/
theorem outlook_finish {f : Firing} (again : f.next.isSome → ∃ group, f.job = .change group) :
    (l.finish f now).outlook other =
      if f.job = .change other ∧ l.alarm f.job = .acting f.run then
        { l.outlook other with changeDue := f.next.map (now + ·) }
      else l.outlook other := by
  unfold Listener.finish
  cases known : l.alarm? f.job with
  | none => simp [alarm, known]; rfl
  | some a =>
    have same : l.alarm f.job = a := alarm_of_alarm? known
    dsimp only
    rw [outlook_putAlarm (by simp [alarm?_timers, known]), Alarm.due?_finish, same]
    have before : outlook { l with timers := (a.finish l.timers f.run f.next now).1 } other =
      l.outlook other := rfl
    rw [before]
    by_cases query : f.job = .query other
    · have never : f.next = none := by
        by_contra next
        obtain ⟨group, change⟩ := again (Option.isSome_iff_ne_none.2 next)
        simp [query] at change
      have unset : (l.outlook other).answerDue = a.due? := by
        rw [answerDue_outlook, ← query, same]
      have stays : (if a = .acting f.run then f.next.map (now + ·) else a.due?) = a.due? := by
        split
        · next acting => rw [acting, never]; rfl
        · rfl
      rw [if_pos query, stays, ← unset, if_neg (by simp [query])]
    · rw [if_neg query]
      by_cases change : f.job = .change other
      · have due : (l.outlook other).changeDue = a.due? := by
          rw [changeDue_outlook, ← change, same]
        by_cases acting : a = .acting f.run
        · simp [change, acting]
        · simp [change, acting, ← due]
      · simp [change]

theorem Upkeep.next_begin (h : l.Upkeep firings) (set : l.alarm? job = some (.waiting run due))
    {f : Firing} (fires : (l.begin run job).2 = some f) {delay : Duration}
    (next : f.next = some delay) : delay = l.config.changeReportInterval := by
  obtain ⟨group, change⟩ := change_of_next_begin fires (by rw [next]; rfl)
  obtain rfl : job = .change group := (job_of_begin fires).symm.trans change
  obtain ⟨g, change, -, -, begins⟩ := h.begin_change set
  rw [begins] at fires
  obtain rfl := Option.some.inj fires
  obtain ⟨-, -, rfl⟩ := Option.map_eq_some_iff.1 next
  rfl

/-! ### The end of a tunnel -/

theorem asked_cancelPending : (l.cancelPending.outlook group).asked = none := by
  cases known : l.cancelPending.groups.get? group with
  | none => simp [outlook, known]; rfl
  | some g =>
    obtain ⟨-, g', -, timers, rfl⟩ := of_mem_forgetAll (List.mem_of_find?_eq_some known)
    simp [outlook, known]
    rfl

theorem outlook_cancelPending (ordered : Groups.Ordered l.groups) :
    l.cancelPending.outlook group = (l.outlook group).forgotten := by
  have standing : l.cancelPending.standing group = _ := standing_cancelPending ordered
  simp only [standing_outlook, Standing.forgotten, Standing.mk.injEq] at standing
  have answerDue : (l.cancelPending.outlook group).answerDue = none := by
    rw [answerDue_outlook, alarm_cancelPending]
    rfl
  have changeDue : (l.cancelPending.outlook group).changeDue = none := by
    rw [changeDue_outlook, alarm_cancelPending]
    rfl
  exact Outlook.ext standing.1 asked_cancelPending answerDue standing.2 changeDue

theorem outlook_shutdown : l.shutdown.outlook group = .unknown := rfl

end Listener

/-! ### In time -/

namespace Timeline

variable {s : Timeline} {group : Address} {run : Nat} {job : ReportJob}

/-- What lies ahead of a group. -/
def outlook (s : Timeline) (group : Address) : Outlook := s.listener.outlook group

theorem filter_outlook : (s.outlook group).filter = s.listener.interest group :=
  Listener.filter_outlook

theorem outlook_pass (time : Duration) :
    (s.react (.pass time)).outlook group = s.outlook group := by
  rw [react]
  split
  · rfl
  · rfl

theorem Timely.outlook_call (h : s.Timely) (group other : Address) (c : Listener.Call) :
    (s.react (.call other c)).outlook group =
      if other = group ∧ s.listener.permit other c.filter = .ok () then
        (s.outlook group).move s.listener.config.robustness.toNat
          (s.now + s.listener.config.changeReportDelay) (c.outcome (s.outlook group).filter)
      else s.outlook group :=
  h.upkeep.listener.outlook_call c

theorem outlook_query (s : Timeline) (group : Address) (random : Nat) (q : Query) :
    (s.react (.query random q)).outlook group =
      if s.listener.closed = false ∧ q.group = some group then
        (s.outlook group).ask s.listener.generalAlarm.due?
          (s.now + Jitter.delay (s.listener.window q) random) q.sources
      else s.outlook group :=
  Listener.outlook_query random q

theorem Timely.outlook_cancelPending (h : s.Timely) :
    (s.react .cancelPending).outlook group = (s.outlook group).forgotten :=
  Listener.outlook_cancelPending h.upkeep.listener.tidy.ordered

theorem outlook_shutdown : (s.react .shutdown).outlook group = .unknown := rfl

theorem Timely.outlook_begin (h : s.Timely) (group : Address)
    (wakes : s.listener.timers.DueBy run job s.now) :
    (s.react (.begin run job)).outlook group =
      if job = .query group then (s.outlook group).answered
      else if job = .change group then (s.outlook group).transmitted
      else s.outlook group := by
  rw [react_begin wakes]
  exact h.upkeep.listener.outlook_begin (h.set_of_dueBy wakes)

theorem Timely.outlook_finish (h : s.Timely) (group : Address) (f : Firing) :
    (s.react (.finish f)).outlook group =
      if f ∈ s.reporting.firings ∧ f.job = .change group ∧
          s.listener.alarm f.job = .acting f.run then
        { s.outlook group with changeDue := f.next.map (s.now + ·) }
      else s.outlook group := by
  show (s.reporting.react (.finish f s.now)).listener.outlook group = _
  by_cases sent : f ∈ s.reporting.firings
  · rw [Reporting.react, if_pos sent]
    simp only [sent, true_and]
    exact Listener.outlook_finish (h.upkeep.again f sent)
  · rw [Reporting.react, if_neg sent]
    simp [sent]
    rfl

/-! ### What has begun -/

/-- The firings for a job that have begun. -/
def begunFor (s : Timeline) (job : ReportJob) : List Beginning :=
  s.begun.filter fun b => b.firing.job = job

theorem begunFor_react {event : Event}
    (other : ∀ run, event = .begin run job → ¬ s.listener.timers.DueBy run job s.now) :
    (s.react event).begunFor job = s.begunFor job := by
  cases event with
  | pass time =>
    rw [react]
    split
    · rfl
    · rfl
  | begin run job' =>
    by_cases wakes : s.listener.timers.DueBy run job' s.now
    · rw [react_begin wakes, begunFor, begunFor, List.filter_append, List.append_right_eq_self,
        List.filter_eq_nil_iff]
      intro b hb
      obtain ⟨f, fires, rfl⟩ := Option.map_eq_some_iff.1 (Option.mem_toList.1 hb)
      obtain rfl : f.job = job' := Listener.job_of_begin fires
      have differs : f.job ≠ job := fun same => other run (same ▸ rfl) (same ▸ wakes)
      simpa using differs
    · rw [react, if_neg wakes]
  | _ => rfl

theorem begunFor_begin (wakes : s.listener.timers.DueBy run job s.now) {f : Firing}
    (fires : (s.listener.begin run job).2 = some f) :
    (s.react (.begin run job)).begunFor job = s.begunFor job ++ [⟨s.now, s.listener, f⟩] := by
  obtain rfl := Listener.job_of_begin fires
  rw [react_begin wakes, begunFor, begunFor, fires, List.filter_append]
  simp

end Timeline

end MulticastTunnel
