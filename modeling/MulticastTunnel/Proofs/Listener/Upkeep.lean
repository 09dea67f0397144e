import MulticastTunnel.Proofs.Attempts
import MulticastTunnel.Proofs.Listener.Due

/-!
# Every report has its alarm

What a listener owes its querier is noted in the records of groups, and the alarms see to it. A
report without an alarm would never be sent; a record that nothing is wanted of and nothing owed
for would never be dropped. Neither happens, although sending reports takes time, and a listener
that is called meanwhile changes records whose alarms are acting.

An alarm can not be set to a time after the last one of the clock, though. What is to set it so late
breaks off, and then a report may be owed that no alarm sees to.

* `Listener.Upkeep` : what holds between records, alarms and registered runs.
* `Reporting` : a listener and the firings whose reports are being sent.
* `Reporting.attempts` : what happens to it, with a clock that ends.
* `Reporting.records_have_alarms` : **the invariant of all listeners**, as long as nothing breaks
  off.
-/

namespace MulticastTunnel

open Function (update_eq_self)

namespace Listener

variable {l : Listener} {g : GroupState} {group : Address} {job : ReportJob}
variable {firings : List Firing}

/-- Records, alarms and registered runs agree. -/
structure Upkeep (firings : List Firing) (l : Listener) : Prop where
  tidy : l.Tidy
  served : ∀ group g, l.groups.get? group = some g → g.Served firings
  kept : Alarm.Kept l.alarm (BeingSent firings) l.timers
  closed : l.closed = true → l.groups = [] ∧ l.generalAlarm = .idle

/-- The records of all groups but one are served. -/
structure Besides (firings : List Firing) (group : Address) (l : Listener) : Prop where
  tidy : l.Tidy
  served : ∀ other g, other ≠ group → l.groups.get? other = some g → g.Served firings
  running : l.closed = false

theorem Upkeep.besides (h : l.Upkeep firings) (running : l.closed = false) (group : Address) :
    l.Besides firings group :=
  ⟨h.tidy, fun other g _ => h.served other g, running⟩

namespace Besides

theorem put {timers : Timers ReportJob} (h : l.Besides firings group) (same : g.group = group)
    (sound : g.Sound) (keep : g.isEvictable = false) (served : g.Served firings)
    (kept : Alarm.Kept
      (Function.update (Function.update l.alarm (.query group) g.queryAlarm) (.change group)
        g.changeAlarm) (BeingSent firings) timers) :
    (Listener.put { l with timers } g).Upkeep firings where
  tidy := (h.tidy.timers _).put sound keep
  served other g' known := by
    rw [Listener.put, Groups.get?_put] at known
    split at known
    · cases known
      exact served
    · next differs => exact h.served other g' (same ▸ Ne.symm differs) known
  kept := by
    rw [alarm_put, alarm_timers, same]
    exact kept
  closed closed := by simp [Listener.put, h.running] at closed

theorem keepOrDrop (h : l.Besides firings group) (same : g.group = group) (sound : g.Sound)
    (served : g.Served firings) (owns : l.Owns g)
    (kept : Alarm.Kept l.alarm (BeingSent firings) l.timers) :
    (l.keepOrDrop g).Upkeep firings := by
  by_cases evictable : g.isEvictable = true
  · have tidy := h.tidy.keepOrDrop sound
    rw [Listener.keepOrDrop, if_pos evictable] at tidy ⊢
    refine ⟨tidy, fun other g' known => ?_, ?_, ?_⟩
    · rw [drop, Groups.get?_erase] at known
      split at known
      · simp at known
      · next differs => exact h.served other g' (same ▸ Ne.symm differs) known
    · have withdrawn := (kept.cancel (.query g.group)).cancel (.change g.group)
      rw [alarm_drop, drop, ← owns.query, ← owns.change]
      simpa using withdrawn
    · simp [drop, h.running]
  · rw [Listener.keepOrDrop, if_neg evictable]
    subst same
    exact h.put rfl sound (by simpa using evictable) served (by rwa [owns.update_self])

end Besides

namespace Upkeep

theorem start (config : Config) : (start config).Upkeep [] where
  tidy := .start config
  served := by simp [Listener.start, Groups.get?]
  kept := by
    have idle : (Listener.start config).alarm = fun _ => .idle := by
      funext job
      cases job <;> rfl
    rw [idle]
    exact .empty (by simp [BeingSent])
  closed := by simp [Listener.start]

theorem running_of_get? (h : l.Upkeep firings) (known : l.groups.get? group = some g) :
    l.closed = false := by
  by_contra closed
  simp [(h.closed (by simpa using closed)).1, Groups.get?] at known

theorem served_getD_fresh (h : l.Upkeep firings) (group : Address) :
    ((l.groups.get? group).getD (.fresh group)).Served firings := by
  cases known : l.groups.get? group with
  | none => exact ⟨rfl, rfl⟩
  | some g => exact h.served group g known

/-! ### Calls and queries -/

theorem apply (h : l.Upkeep firings) (running : l.closed = false) (now : Instant)
    {filter : SourceFilter} (permitted : filter.problemFor group = none) :
    (l.apply now group filter).Upkeep firings := by
  have sound := h.tidy.sound_getD_fresh (SourceFilter.problemFor_eq_none_iff.1 permitted).1
  have served := h.served_getD_fresh group
  have owns := Owns.getD_fresh l group
  have same := group_getD_fresh l group
  unfold Listener.apply
  generalize (l.groups.get? group).getD (.fresh group) = g at sound served owns same ⊢
  subst same
  have besides := h.besides running g.group
  dsimp only
  split
  · exact besides.keepOrDrop rfl sound served owns h.kept
  · refine besides.put rfl (sound.record permitted _ _) (by simp [GroupState.isEvictable])
      ⟨served.query, ?_⟩ ?_
    · split
      · rfl
      · next soon =>
        -- an alarm that is left where it is goes off in time, so it is set
        cases hchange : g.changeAlarm with
        | waiting run due => rfl
        | _ => simp [hchange, Alarm.remaining?, Alarm.due?] at soon
    · rw [owns.update_change]
      split
      · have := h.kept.setAt (.change g.group) (now + l.config.changeReportDelay)
        rwa [owns.change] at this
      · rw [← owns.change, update_eq_self]
        exact h.kept

theorem groupQuery (h : l.Upkeep firings) (now : Instant) (delay : Duration)
    (sources : List Address) : (l.groupQuery now delay group sources).Upkeep firings := by
  unfold Listener.groupQuery
  split
  · exact h
  · next g known =>
    obtain rfl := Groups.group_of_get? known
    have sound := h.tidy.sound_of_get? known
    have served := h.served _ g known
    have owns := Owns.of_get? known
    have besides := h.besides (h.running_of_get? known) g.group
    split
    · exact h
    · split
      · next asked pending =>
        have query := served.query
        rw [pending] at query
        refine besides.put rfl ⟨sound.filter, sound.change⟩ (by simp [GroupState.isEvictable])
          ⟨query, served.change⟩ ?_
        rw [owns.update_self]
        exact h.kept
      · split
        · exact h
        · refine besides.put rfl ⟨sound.filter, sound.change⟩ (by simp [GroupState.isEvictable])
            ⟨rfl, served.change⟩ ?_
          rw [owns.update_query]
          have := h.kept.setAt (.query g.group) (now + delay)
          rwa [owns.query] at this

theorem generalQuery (h : l.Upkeep firings) (running : l.closed = false) (now : Instant)
    (delay : Duration) : (l.generalQuery now delay).Upkeep firings := by
  unfold Listener.generalQuery
  split
  · exact h
  · refine ⟨⟨h.tidy.ordered, h.tidy.sound, h.tidy.kept⟩, h.served, ?_, by simp [running]⟩
    have := h.kept.setAt .general (now + delay)
    rwa [← alarm_general] at this

theorem query (h : l.Upkeep firings) (now : Instant) (random : Nat) (q : Query) :
    (l.query now random q).Upkeep firings := by
  unfold Listener.query
  split
  · exact h
  · next running =>
    dsimp only
    split
    · exact h.generalQuery (by simpa using running) ..
    · exact h.groupQuery ..

theorem call (h : l.Upkeep firings) (now : Instant) (group : Address) (c : Call) :
    ((l.call now group c).toOption.getD l).Upkeep firings := by
  cases success : l.call now group c with
  | error e => exact h
  | ok l' =>
    obtain ⟨running, rfl | ⟨filter, permitted, rfl⟩⟩ := h.tidy.call_cases success
    · exact h
    · exact h.apply running now permitted

/-! ### Reports -/

theorem not_sent (h : l.Upkeep firings) {run : Nat} {due : Instant}
    (set : l.alarm? job = some (.waiting run due)) : ∀ f ∈ firings, f.run ≠ run := by
  intro f hf same
  have waiting := alarm_of_alarm? set
  exact h.kept.not_working waiting f.job ⟨f, hf, same, rfl⟩

theorem serves_new (h : l.Upkeep firings) {run : Nat} {due : Instant}
    (set : l.alarm? job = some (.waiting run due)) {f : Firing} {pending : Bool}
    (owed : f.next.isSome = pending) : (Alarm.acting run).Serves (firings ++ [f]) pending := by
  intro f' hf' same
  rcases List.mem_append.1 hf' with hf' | hf'
  · exact absurd same (h.not_sent set f' hf')
  · rwa [List.mem_singleton.1 hf']

/-- A record is served by its alarms while the firing of another alarm begins. -/
theorem served_concat (h : l.Upkeep firings) (known : l.groups.get? group = some g) {f : Firing}
    (new : ∀ f' ∈ firings, f'.run ≠ f.run) : g.Served (firings ++ [f]) := by
  have owns := Owns.of_get? known
  -- an alarm that acts has a firing already, and the new one belongs to another run
  have older : ∀ {job run}, l.alarm job = .acting run → ∀ f' ∈ firings ++ [f], f'.run = run →
      f' ∈ firings := by
    rintro job run acting f' hf' rfl
    obtain ⟨f'', hf'', same, -⟩ := h.kept.acting _ job acting
    rcases List.mem_append.1 hf' with hf' | hf'
    · exact hf'
    · cases List.mem_singleton.1 hf'
      exact absurd same (new f'' hf'')
  have served := h.served group g known
  exact ⟨served.query.mono fun run acting => older (owns.query.trans acting),
    served.change.mono fun run acting => older (owns.change.trans acting)⟩

theorem running_of_set (h : l.Upkeep firings) {run : Nat} {due : Instant}
    (set : l.alarm? job = some (.waiting run due)) : l.closed = false := by
  by_contra closed
  obtain ⟨empty, idle⟩ := h.closed (by simpa using closed)
  cases job <;> simp [alarm?, Groups.get?, empty, idle] at set

theorem besides_woken (h : l.Upkeep firings) {run : Nat} {due : Instant}
    (set : l.alarm? job = some (.waiting run due))
    (concerns : job = .query group ∨ job = .change group) {f : Firing} (hrun : f.run = run) :
    (l.woken run job).Besides (firings ++ [f]) group where
  tidy := (h.tidy.timers _).putAlarm _ _
  served other g differs known := by
    rcases of_get?_putAlarm known with known | ⟨g', -, ⟨rfl, -⟩ | ⟨rfl, -⟩⟩
    · exact h.served_concat known (hrun ▸ h.not_sent set)
    · simp [differs] at concerns
    · simp [differs] at concerns
  running := (Continues.putAlarm job _).closed.trans (h.running_of_set set)

theorem kept_woken (h : l.Upkeep firings) {run : Nat} {due : Instant}
    (set : l.alarm? job = some (.waiting run due)) {f : Firing} (hrun : f.run = run)
    (hjob : f.job = job) :
    Alarm.Kept (l.woken run job).alarm (BeingSent (firings ++ [f])) (l.woken run job).timers := by
  subst hrun hjob
  rw [woken, timers_putAlarm, alarm_putAlarm (by simp [alarm?_timers, set]), alarm_timers]
  refine h.kept.wake (alarm_of_alarm? set) fun r j => ?_
  simp [BeingSent, or_and_right, exists_or, eq_comm]

theorem generalBegins (h : l.Upkeep firings) {run : Nat} {due : Instant}
    (set : l.alarm? .general = some (.waiting run due)) :
    (l.begin run .general).1.Upkeep (firings ++ (l.begin run .general).2.toList) := by
  have running := h.running_of_set set
  obtain ⟨reports, report⟩ : ∃ reports, (l.woken run .general).report .general =
      (l.woken run .general, reports, none) := by
    simp [report, woken, putAlarm, running]
  rw [begin_of_set set, report]
  exact ⟨(h.tidy.timers _).putAlarm .general _,
    fun group g known => h.served_concat known (h.not_sent set), h.kept_woken set rfl rfl,
    by simp [woken, putAlarm, running]⟩

theorem queryBegins (h : l.Upkeep firings) {run : Nat} {due : Instant}
    (set : l.alarm? (.query group) = some (.waiting run due)) :
    (l.begin run (.query group)).1.Upkeep (firings ++ (l.begin run (.query group)).2.toList) := by
  obtain ⟨g, known, waiting⟩ := Option.map_eq_some_iff.1 set
  obtain ⟨asked, pending⟩ := (h.served _ g known).query.exists_of_waiting waiting
  have known' := get?_woken_query known run
  obtain ⟨reports, report⟩ : ∃ reports, (l.woken run (.query group)).report (.query group) =
      ((l.woken run (.query group)).keepOrDrop { g with queryAlarm := .acting run, asked := none },
        reports, none) := by
    have running := (h.besides_woken set (.inl rfl) (f := ⟨run, default, [], none⟩) rfl).running
    simp [Listener.report, running, groupResponse, known', pending]
  have same := Groups.group_of_get? known
  have sound := h.tidy.sound_of_get? known
  have owns := Owns.of_get? known'
  rw [begin_of_set set, report]
  exact (h.besides_woken set (.inl rfl) rfl).keepOrDrop same ⟨sound.filter, sound.change⟩
    ⟨h.serves_new set rfl, (h.served_concat known (h.not_sent set)).change⟩
    ⟨owns.query, owns.change⟩ (h.kept_woken set rfl rfl)

theorem changeBegins (h : l.Upkeep firings) {run : Nat} {due : Instant}
    (set : l.alarm? (.change group) = some (.waiting run due)) :
    (l.begin run (.change group)).1.Upkeep
      (firings ++ (l.begin run (.change group)).2.toList) := by
  obtain ⟨g, known, waiting⟩ := Option.map_eq_some_iff.1 set
  obtain rfl := Groups.group_of_get? known
  obtain ⟨change, pending⟩ := (h.served _ g known).change.exists_of_waiting waiting
  have known' := get?_woken_change known run
  have running := (h.besides_woken set (.inr rfl) (f := ⟨run, default, [], none⟩) rfl).running
  have sound := h.tidy.sound_of_get? known
  have owns := Owns.of_get? known'
  rw [begin_of_set set]
  cases transmitted : change.transmitted with
  | some left =>
    -- the record keeps what is left of the change, and the firing is to set the alarm again
    obtain ⟨reports, delay, report⟩ : ∃ reports delay,
        (l.woken run (.change g.group)).report (.change g.group) =
          ((l.woken run (.change g.group)).put
            { g with changeAlarm := .acting run, change := some left }, reports, some delay) := by
      simp [Listener.report, running, changeReport, known', pending, transmitted]
    have sound' := sound.transmitted pending transmitted
    rw [report]
    refine (h.besides_woken set (.inr rfl) rfl).put rfl ⟨sound'.filter, sound'.change⟩
      (by simp [GroupState.isEvictable])
      ⟨(h.served_concat known (h.not_sent set)).query, h.serves_new set rfl⟩ ?_
    rw [owns.update_self]
    exact h.kept_woken set rfl rfl
  | none =>
    -- that was the last report, and the record stays only for a filter or for queries
    obtain ⟨reports, report⟩ : ∃ reports, (l.woken run (.change g.group)).report (.change g.group) =
        ((l.woken run (.change g.group)).keepOrDrop
          { g with changeAlarm := .acting run, change := none }, reports, none) := by
      simp [Listener.report, running, changeReport, known', pending, transmitted]
    rw [report]
    exact (h.besides_woken set (.inr rfl) rfl).keepOrDrop rfl ⟨sound.filter, by simp⟩
      ⟨(h.served_concat known (h.not_sent set)).query, h.serves_new set rfl⟩
      ⟨owns.query, owns.change⟩ (h.kept_woken set rfl rfl)

theorem begin (h : l.Upkeep firings) {run : Nat} {due : Instant}
    (asleep : ⟨run, job, .asleep due⟩ ∈ l.timers.live) :
    (l.begin run job).1.Upkeep (firings ++ (l.begin run job).2.toList) := by
  have set : l.alarm? job = some (.waiting run due) := by
    have := (h.kept.asleep run job due).1 asleep
    cases hset : l.alarm? job <;> simp_all [alarm]
  cases job with
  | general => exact h.generalBegins set
  | query group => exact h.queryBegins set
  | change group => exact h.changeBegins set

/-- Another alarm in the place of one that served what is owed. -/
theorem served_putAlarm (h : l.Upkeep firings) (timers : Timers ReportJob) {a : Alarm}
    (serves : ∀ pending, (l.alarm job).Serves firings pending → a.Serves firings pending) :
    ∀ group g, (Listener.putAlarm { l with timers } job a).groups.get? group = some g →
      g.Served firings := by
  intro other g' known'
  rcases of_get?_putAlarm known' with known | ⟨g, known, ⟨rfl, rfl⟩ | ⟨rfl, rfl⟩⟩
  · exact h.served other g' known
  · have served := h.served other g known
    refine ⟨serves _ ?_, served.change⟩
    simpa [alarm, alarm?, known] using served.query
  · have served := h.served other g known
    refine ⟨served.query, serves _ ?_⟩
    simpa [alarm, alarm?, known] using served.change

theorem finish (h : l.Upkeep firings) {f : Firing} (hf : f ∈ firings) (now : Instant) :
    (l.finish f now).Upkeep (firings.filter fun f' => f'.run ≠ f.run) := by
  have working : BeingSent firings f.run f.job := ⟨f, hf, rfl, rfl⟩
  have ended : ∀ run job, BeingSent (firings.filter fun f' => f'.run ≠ f.run) run job ↔
      BeingSent firings run job ∧ run ≠ f.run := by
    simp only [BeingSent, List.mem_filter]
    grind
  have fewer : ∀ {g : GroupState}, g.Served firings →
      g.Served (firings.filter fun f' => f'.run ≠ f.run) := fun served =>
    ⟨served.query.mono fun _ _ _ hf' _ => (List.mem_filter.1 hf').1,
      served.change.mono fun _ _ _ hf' _ => (List.mem_filter.1 hf').1⟩
  unfold Listener.finish
  cases halarm : l.alarm? f.job with
  | none =>
    -- the record was dropped while its reports were being sent, and its alarms with it
    have idle : l.alarm f.job = .idle := by rw [alarm, halarm]; rfl
    refine ⟨h.tidy.timers _, fun group g known => fewer (h.served group g known), ?_, h.closed⟩
    have := h.kept.remove working ended (a := .idle) (.inl ⟨idle.symm, by simp⟩)
    rwa [← idle, update_eq_self, ← alarm_timers] at this
  | some a =>
    have same := alarm_of_alarm? halarm
    have tidy := (h.tidy.timers (a.finish l.timers f.run f.next now).1).putAlarm f.job
      (a.finish l.timers f.run f.next now).2
    refine ⟨tidy, fun group g known => fewer ?_, ?_, fun closed => ?_⟩
    · exact h.served_putAlarm _ (fun _ serves => same ▸ serves.finish hf) group g known
    · have := h.kept.finish working ended f.next now
      rw [same] at this
      rw [alarm_putAlarm (by simp [alarm?_timers, halarm]), alarm_timers, timers_putAlarm]
      exact this
    · simp only [(Continues.putAlarm _ _).closed] at closed
      obtain ⟨empty, idle⟩ := h.closed closed
      cases hjob : f.job with
      | general =>
        have : a = .idle := by simpa [hjob, alarm?, idle, eq_comm] using halarm
        simp [putAlarm, empty, this, Alarm.finish]
      | query group | change group => simp [hjob, alarm?, empty, Groups.get?] at halarm

end Upkeep

/-! ### The end of a tunnel -/

/-- When the reports about some groups were forgotten, the register keeps alarms of which those of
the groups are idle, and the others what they were. -/
theorem kept_forgetAll {alarm : ReportJob → Alarm} {working : Nat → ReportJob → Prop}
    {groups : Groups} {timers : Timers ReportJob} (h : Alarm.Kept alarm working timers)
    (ordered : Groups.Ordered groups)
    (owned : ∀ g ∈ groups,
      alarm (.query g.group) = g.queryAlarm ∧ alarm (.change g.group) = g.changeAlarm) :
    ∃ alarm', Alarm.Kept alarm' working (forgetAll timers groups).1 ∧
      ∀ job, alarm' job = .idle ∨ alarm' job = alarm job ∧
        ∀ g ∈ groups, job ≠ .query g.group ∧ job ≠ .change g.group := by
  induction groups generalizing timers alarm with
  | nil => exact ⟨alarm, h, fun job => .inr ⟨rfl, by simp⟩⟩
  | cons g rest ih =>
    obtain ⟨after, ordered'⟩ := List.pairwise_cons.1 ordered
    obtain ⟨query, change⟩ := owned g (by simp)
    have forgotten := (h.cancel (.query g.group)).cancel (.change g.group)
    rw [query, Function.update_of_ne (by simp), change] at forgotten
    -- the alarms of this group are not those of a later one, which still owns its alarms
    obtain ⟨alarm', kept, idle⟩ := ih forgotten ordered' fun g' hg' => by
      have differs : g'.group ≠ g.group := fun same => Ascending.lt_irrefl _ (same ▸ after g' hg')
      simpa [differs] using owned g' (List.mem_cons_of_mem _ hg')
    refine ⟨alarm', kept, fun job => ?_⟩
    rcases idle job with idle | ⟨same, others⟩
    · exact .inl idle
    · rw [same]
      simp only [Function.update_apply, List.forall_mem_cons]
      split
      · exact .inl rfl
      · split
        · exact .inl rfl
        · next notChange notQuery => exact .inr ⟨rfl, ⟨notQuery, notChange⟩, others⟩

theorem alarm_cancelPending : l.cancelPending.alarm = fun _ => .idle := by
  have forgotten : ∀ g group, l.cancelPending.groups.get? group = some g →
      g.queryAlarm = .idle ∧ g.changeAlarm = .idle := fun g group known => by
    obtain ⟨-, g', -, timers, rfl⟩ := of_mem_forgetAll (List.mem_of_find?_eq_some known)
    exact ⟨rfl, rfl⟩
  funext job
  cases job with
  | general => rfl
  | query group | change group =>
    cases known : l.cancelPending.groups.get? group with
    | none => simp [alarm, alarm?, known]
    | some g => simp [alarm, alarm?, known, forgotten g group known]

theorem Upkeep.cancelPending (h : l.Upkeep firings) : l.cancelPending.Upkeep firings where
  tidy := h.tidy.cancelPending
  served group g known := by
    obtain ⟨-, g', -, timers, rfl⟩ := of_mem_forgetAll (List.mem_of_find?_eq_some known)
    exact ⟨rfl, rfl⟩
  kept := by
    obtain ⟨alarm', kept, idle⟩ := kept_forgetAll (h.kept.cancel .general) h.tidy.ordered
      fun g hg => by
        have owns := Owns.of_get? (h.tidy.get?_of_mem hg)
        simpa using And.intro owns.query owns.change
    have all : alarm' = l.cancelPending.alarm := by
      rw [alarm_cancelPending]
      funext job
      rcases idle job with idle | ⟨same, others⟩
      · exact idle
      · rw [same]
        cases job with
        | general => simp
        | query group | change group =>
          cases known : l.groups.get? group with
          | none => simp [alarm, alarm?, known]
          | some g =>
            have := others g (List.mem_of_find?_eq_some known)
            simp [Groups.group_of_get? known] at this
    rw [← all]
    exact kept
  closed closed := by
    obtain ⟨empty, -⟩ := h.closed closed
    exact ⟨by simp [Listener.cancelPending, empty, forgetAll], rfl⟩

theorem Upkeep.shutdown (h : l.Upkeep firings) : l.shutdown.Upkeep firings where
  tidy := ⟨List.Pairwise.nil, by simp [Listener.shutdown], by simp [Listener.shutdown]⟩
  served group g known := by simp [Listener.shutdown, Groups.get?] at known
  kept := by
    have same : l.shutdown.alarm = l.cancelPending.alarm := by
      rw [alarm_cancelPending]
      funext job
      cases job <;> rfl
    rw [same]
    exact h.cancelPending.kept
  closed _ := ⟨rfl, rfl⟩

theorem change_of_next_report (again : (l.report job).2.2.isSome) :
    ∃ group, job = .change group := by
  unfold report at again
  split at again
  · simp at again
  · cases job with
    | change group => exact ⟨group, rfl⟩
    | _ => simp at again

theorem change_of_next_begin {run : Nat} {f : Firing} (h : (l.begin run job).2 = some f)
    (again : f.next.isSome) : ∃ group, f.job = .change group := by
  unfold Listener.begin at h
  split at h
  · simp at h
  · obtain rfl := Option.some.inj h
    exact change_of_next_report again

end Listener

/-! ### Listeners that take their time -/

/-- A listener, and the firings whose reports are being sent. -/
structure Reporting where
  listener : Listener
  firings : List Firing
  deriving DecidableEq

namespace Reporting

open Listener (Event)

/-- Nothing is wanted yet, and nothing is being sent. -/
def start (config : Config) : Reporting := ⟨.start config, []⟩

/-- What an event leads to. Only runs that are asleep wake up, and only firings that are being sent
end; sending may take any time. A firing is complete if its end comes right after its begin. -/
def react (r : Reporting) : Event → Reporting
  | .begin run job =>
    if r.listener.timers.Asleep run job then
      ⟨(r.listener.begin run job).1, r.firings ++ (r.listener.begin run job).2.toList⟩
    else r
  | .finish f now =>
    if f ∈ r.firings then
      ⟨r.listener.finish f now, r.firings.filter fun other => other.run ≠ f.run⟩
    else r
  | event => { r with listener := (r.listener.react event).1 }

/-- What events lead to, from the start. -/
def run (config : Config) (events : List Event) : Reporting := events.foldl react (start config)

/-- Records, alarms, registered runs and firings agree, and only the report of a change is to be
sent again. -/
structure Upkeep (r : Reporting) : Prop where
  listener : r.listener.Upkeep r.firings
  again : ∀ f ∈ r.firings, f.next.isSome → ∃ group, f.job = .change group

variable {r : Reporting} {g : GroupState}

theorem Upkeep.start (config : Config) : (start config).Upkeep where
  listener := .start config
  again := by simp [Reporting.start]

theorem Upkeep.react (h : r.Upkeep) (event : Event) : (r.react event).Upkeep := by
  cases event with
  | call now group c => exact ⟨h.listener.call now group c, h.again⟩
  | query now random q => exact ⟨h.listener.query now random q, h.again⟩
  | cancelPending => exact ⟨h.listener.cancelPending, h.again⟩
  | shutdown => exact ⟨h.listener.shutdown, h.again⟩
  | begin run job =>
    simp only [Reporting.react]
    split
    · next asleep =>
      obtain ⟨due, asleep⟩ := Timers.asleep_iff.1 asleep
      refine ⟨h.listener.begin asleep, fun f hf => ?_⟩
      rcases List.mem_append.1 hf with hf | hf
      · exact h.again f hf
      · exact Listener.change_of_next_begin (Option.mem_toList.1 hf)
    · exact h
  | finish f now =>
    simp only [Reporting.react]
    split
    · next sent =>
      exact ⟨h.listener.finish sent now, fun f hf => h.again f (List.mem_filter.1 hf).1⟩
    · exact h

theorem Upkeep.dueIn_react {P : Instant → Prop} (h : r.Upkeep) (due : r.listener.timers.DueIn P)
    {event : Event} (hdue : ∀ due, r.listener.sets? event = some due → P due) :
    (r.react event).listener.timers.DueIn P := by
  have told := Listener.dueIn_react due h.listener.tidy hdue
  cases event with
  | begin run job | finish f now =>
    simp only [Reporting.react]
    split
    · exact told
    · exact due
  | _ => exact told

theorem upkeep_run (config : Config) (events : List Event) : (run config events).Upkeep :=
  List.foldlRecOn events react (.start config) fun _ h event _ => h.react event

theorem closed_react (h : r.listener.closed = true) (event : Event) :
    (r.react event).listener.closed = true := by
  cases event with
  | shutdown => rfl
  | begin run job =>
    simp only [react]
    split
    · exact (Listener.Continues.begin run job).closed.trans h
    · exact h
  | finish f now =>
    simp only [react]
    split
    · exact (Listener.Continues.finish f now).closed.trans h
    · exact h
  | _ => exact (Listener.react_continues (by simp)).closed.trans h

theorem closed_run {config : Config} {events : List Event} (h : .shutdown ∈ events) :
    (run config events).listener.closed = true := by
  obtain ⟨before, after, rfl⟩ := List.append_of_mem h
  have shut : ((run config before).react .shutdown).listener.closed = true := rfl
  rw [run, List.foldl_append, List.foldl_cons]
  exact List.foldlRecOn after react (motive := fun r => r.listener.closed = true) shut
    fun _ h event _ => closed_react h event

/-- Something is owed if its alarm is set, or if the firing that is being sent is to set it
again. -/
theorem Upkeep.pending_iff (h : r.Upkeep) {job : ReportJob} {pending : Bool}
    (serves : (r.listener.alarm job).Serves r.firings pending) : pending = true ↔
      (r.listener.alarm job).isSet ∨
        ∃ f ∈ r.firings, r.listener.alarm job = .acting f.run ∧ f.job = job ∧ f.next.isSome := by
  cases halarm : r.listener.alarm job with
  | idle =>
    obtain rfl : pending = false := by simpa [halarm, Alarm.Serves] using serves
    simp [Alarm.isSet, Alarm.due?]
  | waiting run due =>
    obtain rfl : pending = true := by simpa [halarm, Alarm.Serves] using serves
    simp [Alarm.isSet, Alarm.due?]
  | acting run =>
    obtain ⟨f, hf, rfl, hjob⟩ := h.listener.kept.acting run job halarm
    rw [halarm] at serves
    simp only [Alarm.isSet, Alarm.due?, Option.isSome_none, Bool.false_eq_true, false_or]
    constructor
    · rintro rfl
      exact ⟨f, hf, rfl, hjob, serves f hf rfl⟩
    · rintro ⟨f', hf', same, -, next⟩
      rw [← serves f' hf' (Alarm.acting.inj same).symm, next]

theorem Upkeep.asked_iff (h : r.Upkeep) (hg : g ∈ r.listener.groups) :
    g.asked.isSome ↔ g.queryAlarm.isSet := by
  have known := h.listener.tidy.get?_of_mem hg
  have owns := Listener.Owns.of_get? known
  have serves := (h.listener.served _ g known).query
  rw [← owns.query] at serves ⊢
  rw [h.pending_iff serves, or_iff_left_iff_imp]
  rintro ⟨f, hf, -, hjob, next⟩
  obtain ⟨group, other⟩ := h.again f hf next
  simp [hjob] at other

/-- A change waits for its next report if the alarm of the report is set, or while a report is being
sent that is not the last one. -/
theorem Upkeep.change_iff (h : r.Upkeep) (hg : g ∈ r.listener.groups) :
    g.change.isSome ↔ g.changeAlarm.isSet ∨ ∃ f ∈ r.firings, g.changeAlarm = .acting f.run ∧
      f.job = .change g.group ∧ f.next.isSome := by
  have known := h.listener.tidy.get?_of_mem hg
  have owns := Listener.Owns.of_get? known
  have serves := (h.listener.served _ g known).change
  rw [← owns.change] at serves ⊢
  exact h.pending_iff serves

/-! ### A clock that ends -/

/-- What happens to a listener whose clock ends at `last`. -/
def attempts (last : Instant) : Attempts Reporting Event where
  result := react
  fits r := r.listener.timers.fits last
  left r event := { r.react event with listener := r.listener.leftBy event }

variable {last : Instant}

theorem Upkeep.attempt (h : r.Upkeep) (fits : r.listener.timers.fits last) {event : Event}
    (inTime : ∀ due, r.listener.sets? event = some due → due ≤ last) :
    (attempts last).one r event = .ok (r.react event) :=
  Attempts.one_of_fits (Timers.fits_iff.2 (h.dueIn_react (Timers.fits_iff.1 fits) inTime))

/-- **Every report has its alarm**, and nothing else does. After any events of which none has broken
off, every record is found under its group. Its filter may be asked for the group, so it is not in
EXCLUDE mode if the group is source-specific, and its change names sources of the group's family
only. Something is left in it. A query waits for its response exactly if the alarm of the response
is set, and so does a change, unless a report of it is being sent that is not the last one. The runs
that are asleep are those that alarms wait for. A listener that was shut down has no records, and no
alarm is set.

The next event does not break off, either, if the clock can show the time to which it sets an alarm.
-/
theorem records_have_alarms (config : Config) {events : List Event} {r : Reporting}
    (reached : (attempts last).all (start config) events = .ok r) :
    let l := r.listener
    (∀ g ∈ l.groups,
      l.groups.get? g.group = some g ∧ g.filter.problemFor g.group = none ∧
      ¬ (g.group.isSourceSpecific ∧ g.filter.mode = .excluding) ∧
      (∀ p, g.change = some p → ∀ a, p.change.Mentions a → a.sameFamily g.group) ∧
      g.isEvictable = false ∧ (g.asked.isSome ↔ g.queryAlarm.isSet) ∧
      (g.change.isSome ↔ g.changeAlarm.isSet ∨ ∃ f ∈ r.firings,
        g.changeAlarm = .acting f.run ∧ f.job = .change g.group ∧ f.next.isSome)) ∧
    (r.firings = [] → ∀ g ∈ l.groups, g.change.isSome ↔ g.changeAlarm.isSet) ∧
    (∀ run job due,
      ⟨run, job, .asleep due⟩ ∈ l.timers.live ↔ l.alarm? job = some (.waiting run due)) ∧
    (.shutdown ∈ events →
      l.groups = [] ∧ l.generalAlarm = .idle ∧ ∀ run job, ¬ l.timers.Asleep run job) ∧
    ∀ event, (∀ due, l.sets? event = some due → due ≤ last) →
      (attempts last).one r event = .ok (r.react event) := by
  intro l
  have fits : l.timers.fits last := Attempts.fits_of_all reached rfl
  obtain rfl : run config events = r := Attempts.foldl_of_all reached
  have upkeep := upkeep_run config events
  have waiting : ∀ run job due,
      ⟨run, job, .asleep due⟩ ∈ l.timers.live ↔ l.alarm? job = some (.waiting run due) := by
    intro run job due
    rw [upkeep.listener.kept.asleep]
    cases halarm : l.alarm? job <;> simp [Listener.alarm, halarm, l]
  refine ⟨fun g hg => ?_, fun complete g hg => ?_, waiting, fun shut => ?_,
    fun event => upkeep.attempt fits⟩
  · have sound := upkeep.listener.tidy.sound g hg
    obtain ⟨-, -, mode⟩ := SourceFilter.problemFor_eq_none_iff.1 sound.filter
    refine ⟨upkeep.listener.tidy.get?_of_mem hg, sound.filter, fun bad => mode bad.symm,
      fun p pending a mentions => ?_, upkeep.listener.tidy.kept g hg, upkeep.asked_iff hg,
      upkeep.change_iff hg⟩
    exact SourceFilter.sameFamily_of_sourceProblem (sound.change p pending a mentions)
  · simpa [complete] using upkeep.change_iff hg
  · obtain ⟨empty, idle⟩ := upkeep.listener.closed (closed_run shut)
    refine ⟨empty, idle, fun run job asleep => ?_⟩
    obtain ⟨due, asleep⟩ := Timers.asleep_iff.1 asleep
    have set := (waiting run job due).1 asleep
    -- there is no record, so no alarm that a run could sleep for
    cases job <;> simp [Listener.alarm?, Groups.get?, l, empty, idle] at set

/-- While the response to a query is waiting and the first report of a change was sent, both alarms
are set; nothing is left of them after the end. -/
theorem records_have_alarms_queriedGroup :
    let group := Address.ofOctets 239 1 1 1
    let events : List Event :=
      [.call 0 group (.join .allSources), .begin 0 (.change group),
        .query 0 0 ⟨some group, [], .ofSeconds 1, false, none, none⟩,
        .finish ⟨0, .change group, [⟨[⟨.toExclude, group, []⟩]⟩], some (.ofSeconds 1)⟩ 0]
    let r := run Config.quick events
    let shut := run Config.quick (events ++ [.shutdown])
    (attempts .last).all (start Config.quick) events = .ok r ∧
      r.firings = [] ∧ r.listener.timers.registered = 2 ∧ shut.listener.groups = [] ∧
      ∀ g ∈ r.listener.groups, g.asked.isSome ∧ g.queryAlarm.isSet ∧
        g.change.isSome ∧ g.changeAlarm.isSet := by
  intro group events r shut
  have reached : (attempts .last).all (start Config.quick) events = .ok r := by decide +kernel
  have shutReached :
      (attempts .last).all (start Config.quick) (events ++ [.shutdown]) = .ok shut := by
    decide +kernel
  have complete : r.firings = [] := by decide
  have pending : ∀ g ∈ r.listener.groups, g.asked.isSome ∧ g.change.isSome := by decide
  obtain ⟨records, changes, -, -, -⟩ := records_have_alarms Config.quick reached
  obtain ⟨-, -, -, ended, -⟩ := records_have_alarms Config.quick shutReached
  refine ⟨reached, complete, by decide, (ended (by simp)).1, fun g hg => ?_⟩
  obtain ⟨asked, change⟩ := pending g hg
  obtain ⟨-, -, -, -, -, query, -⟩ := records g hg
  exact ⟨asked, query.1 asked, change, (changes complete g hg).1 change⟩

/-- With the longest delay before a change is reported, a group can not be joined: the call breaks
off, and the change is noted, but nothing is to report it. -/
theorem change_without_alarm :
    let config := { Config.quick with changeReportDelay := .longest }
    let group := Address.ofOctets 239 1 1 1
    config.problem = none ∧
      ∃ r, (attempts .last).all (start config) [.call 0 group (.join .allSources)] = .error r ∧
        r.firings = [] ∧ r.listener.timers.live = [] ∧
        ∃ g ∈ r.listener.groups, g.change.isSome ∧ g.changeAlarm = .idle := by
  intro config group
  refine ⟨by decide, _, rfl, by decide, by decide, ?_⟩
  decide

end Reporting

end MulticastTunnel
