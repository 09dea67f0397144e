import Mathlib.Data.List.Induction
import MulticastTunnel.Proofs.Listener.Delivery
import MulticastTunnel.Proofs.Listener.Timeline

/-!
# General queries are answered

There is one alarm for the responses to all general queries. A query sets it to a random time in
its own window, unless it is set to an earlier time already; so whatever queries come, none has to
wait past its window. The response is read from the records when the alarm goes off, and tells
what is wanted of all groups at that time.

* `Listener.Responds` : what a response to general queries has to tell.
* `Listener.due?_generalQuery` : when the response is due after a query.
* `Timeline.Timely.react_due` : **the response is not put off**, it becomes due earlier or begins in
  time.
* `Timeline.general_queries_answered` : every general query is answered within its window.
-/

namespace MulticastTunnel

theorem Jitter.delay_le (window : Duration) (random : Nat) : delay window random ≤ window := by
  have picked : random % (wholeMillis window + 1) ≤ wholeMillis window :=
    Nat.le_of_lt_succ (Nat.mod_lt _ (Nat.succ_pos _))
  calc delay window random
      ≤ wholeMillis window * 1000000 := Nat.mul_le_mul_right _ picked
    _ ≤ window / 1000000 * 1000000 := Nat.mul_le_mul_right _ (Nat.min_le_left _ _)
    _ ≤ window := Nat.div_mul_le_self ..

/-! ### What a response tells -/

/-- The record that tells that this is wanted of a group. -/
def SourceFilter.currentState (f : SourceFilter) (group : Address) : Record where
  kind := match f.mode with
    | .including => .isInclude
    | .excluding => .isExclude
  group
  sources := f.sources.toList

theorem GroupState.currentState_eq_some_iff {g : GroupState} {r : Record} :
    g.currentState = some r ↔ g.filter.isEmpty = false ∧ r = g.filter.currentState g.group := by
  cases empty : g.filter.isEmpty with
  | true => simp [currentState, empty]
  | false => cases mode : g.filter.mode <;>
      simp [currentState, SourceFilter.currentState, empty, mode, eq_comm]

theorem Address.isV4_of_lt {a b : Address} (h : a < b) (v4 : b.isV4) : a.isV4 := by
  match a, b with
  | .v4 _, _ => rfl
  | .v6 _, .v4 bits =>
    have := bits.isLt
    simp only [lt_iff_rank, rank] at h
    omega

/-- A list with all elements of a kind in front is the one that a partition puts together again. -/
theorem filter_append_filter_not {α : Type} {p : α → Bool} {l : List α}
    (h : l.Pairwise fun a b => p b → p a) : l.filter p ++ l.filter (fun a => !p a) = l := by
  induction l with
  | nil => rfl
  | cons a rest ih =>
    obtain ⟨front, rest'⟩ := List.pairwise_cons.1 h
    cases ha : p a with
    | true => simp [ha, ih rest']
    | false =>
      have none : ∀ b ∈ rest, p b = false := fun b hb => by
        by_contra hp
        simp [front b hb (by simpa using hp)] at ha
      have empty : rest.filter p = [] := by simpa using none
      simpa [ha, empty] using none

namespace Listener

variable {l : Listener} {now : Instant} {group : Address}

/-- The room for records in one report. -/
def room (l : Listener) : Nat := min l.config.maxReportLength Report.maxLength - Report.headerLength

/-- The reports tell, one after the other, what is wanted of each group of which anything is
wanted. There is one record for each, in parts if it has to be split, in the order of groups, which
is that of IPv4 first. No report mixes families. -/
structure Responds (l : Listener) (reports : List Report) : Prop where
  complete : ∃ groups : List Address,
    groups.Pairwise (fun a b => a < b ∧ (b.isV4 → a.isV4)) ∧
    (∀ a, a ∈ groups ↔ (l.interest a).isEmpty = false) ∧
    reports.flatMap Report.records =
      groups.flatMap fun a => ((l.interest a).currentState a).splitToFit l.room
  oneFamily : ∀ report ∈ reports, ∃ v4, ∀ r ∈ report.records, r.group.isV4 = v4 ∧
    r.IsOneFamily

theorem records_parts (records : List Record) :
    (l.parts records).flatMap Report.records = records.flatMap (·.splitToFit l.room) := by
  rw [parts, Report.splitToFit, Report.records_fill]
  rfl

theorem Tidy.interest_of_mem (h : l.Tidy) {g : GroupState} (hg : g ∈ l.groups) :
    l.interest g.group = g.filter := by
  simp [interest, filter?, h.get?_of_mem hg]

/-- The groups of which anything is wanted have records of their current state, and no others. -/
theorem Tidy.mem_currentStates (h : l.Tidy) {r : Record} :
    r ∈ l.groups.filterMap GroupState.currentState ↔
      (l.interest r.group).isEmpty = false ∧ r = (l.interest r.group).currentState r.group := by
  simp only [List.mem_filterMap, GroupState.currentState_eq_some_iff]
  constructor
  · rintro ⟨g, hg, wanted, rfl⟩
    rw [← h.interest_of_mem hg] at wanted ⊢
    exact ⟨wanted, rfl⟩
  · rintro ⟨wanted, hr⟩
    cases known : l.groups.get? r.group with
    | none =>
      have nothing : l.interest r.group = .noInterest := by simp [interest, filter?, known]
      rw [nothing] at wanted
      exact absurd wanted (by decide)
    | some g =>
      have hg := List.mem_of_find?_eq_some known
      have same := Groups.group_of_get? known
      rw [← same, h.interest_of_mem hg] at wanted hr
      exact ⟨g, hg, wanted, hr⟩

theorem Tidy.pairwise_currentStates (h : l.Tidy) :
    (l.groups.filterMap GroupState.currentState).Pairwise fun r r' => r.group < r'.group := by
  refine List.Pairwise.filterMap _ (fun g g' before r hr r' hr' => ?_) h.ordered
  obtain ⟨-, rfl⟩ := GroupState.currentState_eq_some_iff.1 hr
  obtain ⟨-, rfl⟩ := GroupState.currentState_eq_some_iff.1 hr'
  exact before

/-- **The response tells what is wanted of all groups.** -/
theorem Tidy.responds (h : l.Tidy) : l.Responds l.generalResponse := by
  have ordered := h.pairwise_currentStates
  have member {r : Record} := h.mem_currentStates (r := r)
  have family {r : Record} (hr : r ∈ l.groups.filterMap GroupState.currentState) :
      r.IsOneFamily := by
    obtain ⟨g, hg, current⟩ := List.mem_filterMap.1 hr
    exact ((h.sound g hg).currentState current).2
  unfold generalResponse
  generalize l.groups.filterMap GroupState.currentState = records at ordered member family
  simp only [List.partition_eq_filter_filter]
  -- the groups of the first family come before those of the other, as they do in the response
  refine ⟨⟨records.map Record.group, ?_, fun a => ?_, ?_⟩, fun report hreport => ?_⟩
  · exact List.pairwise_map.2
      (ordered.imp fun before => ⟨before, Address.isV4_of_lt before⟩)
  · constructor
    · rintro ha
      obtain ⟨r, hr, rfl⟩ := List.mem_map.1 ha
      exact (member.1 hr).1
    · intro wanted
      have current : (l.interest a).currentState a ∈ records := member.2 ⟨wanted, rfl⟩
      exact List.mem_map_of_mem current
  · calc (l.parts (records.filter fun r => r.group.isV4) ++
            l.parts (records.filter (not ∘ fun r => r.group.isV4))).flatMap Report.records
        = (records.filter (fun r => r.group.isV4) ++
            records.filter (fun r => !r.group.isV4)).flatMap (·.splitToFit l.room) := by
          rw [List.flatMap_append, records_parts, records_parts, List.flatMap_append]
          rfl
      _ = records.flatMap (·.splitToFit l.room) := by
          rw [filter_append_filter_not (ordered.imp Address.isV4_of_lt)]
      _ = (records.map Record.group).flatMap fun a =>
            ((l.interest a).currentState a).splitToFit l.room := by
          rw [List.flatMap_map]
          simp only [List.flatMap_def]
          refine congrArg List.flatten (List.map_congr_left fun r hr => ?_)
          rw [← (member.1 hr).2]
  · -- a report is a part of the records of one family
    have parted (v4 : Bool) (p : Record → Bool) (hp : ∀ r, p r → r.group.isV4 = v4)
        (hpart : report ∈ l.parts (records.filter p)) :
        ∀ r ∈ report.records, r.group.isV4 = v4 ∧ r.IsOneFamily := by
      intro r hr
      obtain ⟨r', hr', group, sources⟩ := Report.sources_splitToFit hpart hr
      obtain ⟨hr', kind⟩ := List.mem_filter.1 hr'
      exact ⟨group ▸ hp r' kind, fun s hs => group ▸ family hr' s (sources hs)⟩
    rcases List.mem_append.1 hreport with hpart | hpart
    · exact ⟨true, parted true _ (by simp) hpart⟩
    · exact ⟨false, parted false _ (by simp) hpart⟩

theorem Upkeep.begin_general {firings : List Firing} (h : l.Upkeep firings) {run : Nat}
    {due : Instant} (set : l.generalAlarm = .waiting run due) :
    (l.begin run .general).2 = some ⟨run, .general, l.generalResponse, none⟩ := by
  have waiting : l.alarm? .general = some (.waiting run due) := congrArg some set
  have running : (l.woken run .general).closed = false := h.running_of_set waiting
  rw [begin_of_set waiting, report, if_neg (by simp [running])]
  rfl

theorem job_of_begin {run : Nat} {job : ReportJob} {f : Firing}
    (h : (l.begin run job).2 = some f) : f.job = job := by
  unfold Listener.begin at h
  split at h
  · nomatch h
  · obtain rfl := Option.some.inj h
    rfl

/-! ### When the response is due -/

/-- **A query makes the response due at a time in its window**, unless it is due earlier. -/
theorem due?_generalQuery (delay : Duration) :
    (l.generalQuery now delay).generalAlarm.due? =
      some (l.generalAlarm.due?.elim (now + delay) (min · (now + delay))) := by
  unfold generalQuery
  cases set : l.generalAlarm with
  | waiting run due =>
    have soon : ((Alarm.waiting run due).remaining? now).any (· ≤ delay) = true ↔
        due ≤ now + delay := by
      simpa [Alarm.remaining?, Alarm.due?] using Nat.sub_le_iff_le_add'
    simp only [soon]
    by_cases sooner : due ≤ now + delay
    · rw [if_pos sooner, set]
      exact congrArg some (Nat.min_eq_left sooner).symm
    · rw [if_neg sooner]
      exact congrArg some (Nat.min_eq_right (Nat.le_of_not_le sooner)).symm
  | _ => rfl

/-! ### What does not change when it is due -/

theorem generalAlarm_apply (filter : SourceFilter) :
    (l.apply now group filter).generalAlarm = l.generalAlarm := by
  unfold Listener.apply
  dsimp only
  split
  · exact (Rests.keepOrDrop _).general
  · rfl

theorem generalAlarm_groupQuery (delay : Duration) (sources : List Address) :
    (l.groupQuery now delay group sources).generalAlarm = l.generalAlarm := by
  unfold groupQuery
  split
  · rfl
  · split
    · rfl
    · split
      · rfl
      · split
        · rfl
        · rfl

theorem generalAlarm_putAlarm {job : ReportJob} (other : job ≠ .general) (a : Alarm) :
    (l.putAlarm job a).generalAlarm = l.generalAlarm := by
  unfold putAlarm
  split
  · exact absurd rfl other
  all_goals
    split
    · rfl
    · rfl

theorem generalAlarm_begin {run : Nat} {job : ReportJob} (other : job ≠ .general) :
    (l.begin run job).1.generalAlarm = l.generalAlarm := by
  unfold Listener.begin
  split
  · rfl
  · exact (Rests.report job).general.trans (generalAlarm_putAlarm other _)

/-- The end of a firing is not for an alarm that was set again. -/
theorem generalAlarm_finish {run : Nat} {due : Instant} (set : l.generalAlarm = .waiting run due)
    (f : Firing) : (l.finish f now).generalAlarm = l.generalAlarm := by
  unfold Listener.finish
  split
  · rfl
  · next a known =>
    by_cases general : f.job = .general
    · obtain rfl : l.generalAlarm = a := by simpa [general, alarm?] using known
      simp [general, putAlarm, Alarm.finish, set]
    · exact generalAlarm_putAlarm general _

end Listener

theorem Reporting.config_react (r : Reporting) (event : Listener.Event) :
    (r.react event).listener.config = r.listener.config := by
  cases event with
  | shutdown => rfl
  | begin run job =>
    simp only [react]
    split
    · exact (Listener.Continues.begin run job).config
    · rfl
  | finish f now =>
    simp only [react]
    split
    · exact (Listener.Continues.finish f now).config
    · rfl
  | _ => exact (Listener.react_continues (by simp)).config

namespace Timeline

variable {s : Timeline} {config : Config} {due : Instant}

/-- The time at which the response to general queries is due. -/
def responseDue? (s : Timeline) : Option Instant := s.listener.generalAlarm.due?

/-! ### Every response is complete -/

/-- The settings are those of the start, and all responses to general queries told everything. -/
structure Complete (config : Config) (s : Timeline) : Prop where
  settings : s.listener.config = config
  begun : ∀ b ∈ s.begun, b.listener.config = config ∧
    (b.firing.job = .general → b.listener.Responds b.firing.reports)

theorem Complete.told (h : s.Complete config) (event : Listener.Event) :
    (s.told event).Complete config :=
  ⟨(s.reporting.config_react event).trans h.settings, h.begun⟩

theorem Timely.general_set (h : s.Timely) {run : Nat}
    (wakes : s.listener.timers.DueBy run .general s.now) :
    s.listener.generalAlarm = .waiting run s.now :=
  Option.some.inj (h.set_of_dueBy wakes)

theorem Timely.begun_general (h : s.Timely) {run : Nat}
    (wakes : s.listener.timers.DueBy run .general s.now) :
    (s.react (.begin run .general)).begun = s.begun ++
      [⟨s.now, s.listener, ⟨run, .general, s.listener.generalResponse, none⟩⟩] := by
  have fires : (s.listener.begin run .general).2 = _ :=
    h.upkeep.listener.begin_general (h.general_set wakes)
  rw [react_begin wakes, fires]
  rfl

theorem Complete.react (h : s.Complete config) (timely : s.Timely) (event : Event) :
    (s.react event).Complete config := by
  cases event with
  | pass time =>
    simp only [Timeline.react]
    split
    · exact ⟨h.settings, h.begun⟩
    · exact h
  | begin run job =>
    by_cases wakes : s.listener.timers.DueBy run job s.now
    · refine ⟨?_, fun b hb => ?_⟩
      · have told := h.told (.begin run job)
        rw [Timeline.react, if_pos wakes]
        exact told.settings
      · by_cases general : job = .general
        · subst general
          rw [timely.begun_general wakes] at hb
          rcases List.mem_append.1 hb with hb | hb
          · exact h.begun b hb
          · obtain rfl := List.mem_singleton.1 hb
            exact ⟨h.settings, fun _ => timely.upkeep.listener.tidy.responds⟩
        · rw [react_begin wakes] at hb
          rcases List.mem_append.1 hb with hb | hb
          · exact h.begun b hb
          · obtain ⟨f, hf, rfl⟩ := Option.map_eq_some_iff.1 (Option.mem_toList.1 hb)
            have same : f.job = job := Listener.job_of_begin hf
            exact ⟨h.settings, fun other => absurd (same.symm.trans other) general⟩
    · rwa [Timeline.react, if_neg wakes]
  | call | query | cancelPending | shutdown | finish => exact h.told _

theorem complete_run (config : Config) (events : List Event) :
    (run config events).Complete config := by
  induction events using List.reverseRecOn with
  | nil => exact ⟨rfl, fun b hb => nomatch hb⟩
  | append_singleton events event ih =>
    rw [run, reacts_concat]
    exact ih.react (timely_run config events) event

/-! ### No response is put off -/

theorem Timely.now_le_due (h : s.Timely) (set : s.responseDue? = some due) : s.now ≤ due := by
  obtain ⟨run, set⟩ := Alarm.due?_eq_some_iff.1 set
  have asleep := (h.upkeep.listener.kept.asleep run .general due).2 set
  exact h.ahead _ asleep due rfl

/-- **A query leaves the response due, and no later.** -/
theorem react_query_due (set : s.responseDue? = some due) (random : Nat) (q : Query) :
    ∃ due' ≤ due, (s.react (.query random q)).responseDue? = some due' := by
  have same : ∃ due' ≤ due, s.responseDue? = some due' := ⟨due, Nat.le_refl _, set⟩
  have before : s.listener.generalAlarm.due? = some due := set
  show ∃ due' ≤ due, (s.listener.query s.now random q).generalAlarm.due? = some due'
  unfold Listener.query
  split
  · exact same
  · dsimp only
    split
    · refine ⟨_, ?_, Listener.due?_generalQuery _⟩
      rw [before]
      exact Nat.min_le_left _ _
    · rw [Listener.generalAlarm_groupQuery]
      exact same

/-- **Nothing puts the response off**: as long as it is not forgotten, it remains due, and no later,
or begins at the time it is due. -/
theorem Timely.react_due (h : s.Timely) (set : s.responseDue? = some due) {event : Event}
    (notForgotten : event ≠ .cancelPending ∧ event ≠ .shutdown) :
    (∃ due' ≤ due, (s.react event).responseDue? = some due') ∨
      ∃ f : Firing, f.job = .general ∧
        (s.react event).begun = s.begun ++ [⟨due, s.listener, f⟩] := by
  -- most events do not touch the alarm of the response
  have same (untouched : (s.react event).listener.generalAlarm = s.listener.generalAlarm) :
      ∃ due' ≤ due, (s.react event).responseDue? = some due' :=
    ⟨due, Nat.le_refl _, (congrArg Alarm.due? untouched).trans set⟩
  cases event with
  | pass time =>
    refine .inl (same ?_)
    simp only [Timeline.react]
    split
    · rfl
    · rfl
  | call group c =>
    refine .inl (same ?_)
    show ((s.listener.call s.now group c).toOption.getD s.listener).generalAlarm = _
    cases success : s.listener.call s.now group c with
    | error e => rfl
    | ok l' =>
      obtain ⟨-, rfl | ⟨filter, -, rfl⟩⟩ := h.upkeep.listener.tidy.call_cases success
      · rfl
      · exact Listener.generalAlarm_apply filter
  | query random q => exact .inl (react_query_due set random q)
  | cancelPending => exact absurd rfl notForgotten.1
  | shutdown => exact absurd rfl notForgotten.2
  | begin run job =>
    by_cases wakes : s.listener.timers.DueBy run job s.now
    · by_cases general : job = .general
      · subst general
        obtain rfl : s.now = due := by
          simpa [responseDue?, h.general_set wakes, Alarm.due?] using set
        exact .inr ⟨_, rfl, h.begun_general wakes⟩
      · refine .inl (same ?_)
        rw [react_begin wakes]
        exact Listener.generalAlarm_begin general
    · refine .inl (same ?_)
      rw [Timeline.react, if_neg wakes]
  | finish f =>
    refine .inl (same ?_)
    obtain ⟨run, waiting⟩ := Alarm.due?_eq_some_iff.1 set
    show (s.reporting.react (.finish f s.now)).listener.generalAlarm = _
    simp only [Reporting.react]
    split
    · exact Listener.generalAlarm_finish waiting f
    · rfl

/-! ### Every query is answered -/

/-- Since `s`, a response to general queries has begun, and no later than at `last`. -/
def AnsweredBy (s : Timeline) (last : Instant) (s' : Timeline) : Prop :=
  ∃ new, s'.begun = s.begun ++ new ∧
    ∃ b ∈ new, b.firing.job = .general ∧ s.now ≤ b.time ∧ b.time ≤ last

theorem Timely.reacts (h : s.Timely) (events : List Event) : (s.reacts events).Timely :=
  List.foldlRecOn events Timeline.react h fun _ h event _ => h.react event

theorem now_le_react (s : Timeline) (event : Event) : s.now ≤ (s.react event).now := by
  cases event with
  | pass time =>
    simp only [react]
    split
    · exact Nat.le_add_right ..
    · exact Nat.le_refl _
  | begin run job =>
    simp only [react]
    split
    · exact Nat.le_refl _
    · exact Nat.le_refl _
  | _ => exact Nat.le_refl _

theorem begun_react (s : Timeline) (event : Event) :
    ∃ new, (s.react event).begun = s.begun ++ new := by
  cases event with
  | pass time =>
    refine ⟨[], ?_⟩
    simp only [react]
    split
    · simp
    · simp
  | begin run job =>
    simp only [react]
    split
    · exact ⟨_, rfl⟩
    · exact ⟨[], by simp⟩
  | _ => exact ⟨[], by simp [react, told]⟩

/-- As long as the response is not forgotten, it remains due, and no later, or has begun in time. -/
theorem Timely.reacts_due (h : s.Timely) (set : s.responseDue? = some due) {later : List Event}
    (notForgotten : .cancelPending ∉ later ∧ .shutdown ∉ later) :
    s.now ≤ (s.reacts later).now ∧
      ((∃ due' ≤ due, (s.reacts later).responseDue? = some due') ∨
        s.AnsweredBy due (s.reacts later)) ∧
      ∃ new, (s.reacts later).begun = s.begun ++ new := by
  induction later using List.reverseRecOn with
  | nil => exact ⟨Nat.le_refl _, .inl ⟨due, Nat.le_refl _, set⟩, [], by simp [Timeline.reacts]⟩
  | append_singleton later event ih =>
    simp only [List.mem_append, List.mem_singleton, not_or] at notForgotten
    obtain ⟨⟨notCanceled, ne⟩, ⟨notShut, ne'⟩⟩ := notForgotten
    have timely := h.reacts later
    obtain ⟨passed, fate, new, begun⟩ := ih ⟨notCanceled, notShut⟩
    rw [reacts_concat]
    generalize s.reacts later = s' at timely passed fate begun ⊢
    obtain ⟨more, begun'⟩ := s'.begun_react event
    have all : (s'.react event).begun = s.begun ++ (new ++ more) := by
      rw [begun', begun, List.append_assoc]
    refine ⟨Nat.le_trans passed (s'.now_le_react event), ?_, _, all⟩
    rcases fate with ⟨due', sooner, set'⟩ | ⟨new', already, b, hb, answers⟩
    · rcases timely.react_due set' ⟨Ne.symm ne, Ne.symm ne'⟩ with
        ⟨due'', sooner', set''⟩ | ⟨f, general, begins⟩
      · exact .inl ⟨due'', Nat.le_trans sooner' sooner, set''⟩
      · refine .inr ⟨_, all, ⟨due', s'.listener, f⟩, List.mem_append_right _ ?_, general,
          Nat.le_trans passed (timely.now_le_due set'), sooner⟩
        rw [List.append_cancel_left (begun'.symm.trans begins)]
        exact List.mem_singleton_self _
    · obtain rfl := List.append_cancel_left (already.symm.trans begun)
      exact .inr ⟨_, all, b, List.mem_append_left _ hb, answers⟩

theorem Timely.due_or_answered (h : s.Timely) (set : s.responseDue? = some due) {last : Instant}
    (soon : due ≤ last) {later : List Event}
    (notForgotten : .cancelPending ∉ later ∧ .shutdown ∉ later) :
    (∃ due', (s.reacts later).responseDue? = some due' ∧ (s.reacts later).now ≤ due' ∧
      due' ≤ last) ∨ s.AnsweredBy last (s.reacts later) := by
  obtain ⟨-, ⟨due', sooner, set'⟩ | ⟨new, begun, b, hb, general, late, early⟩, -⟩ :=
    h.reacts_due set notForgotten
  · exact .inl ⟨due', set', (h.reacts later).now_le_due set', Nat.le_trans sooner soon⟩
  · exact .inr ⟨new, begun, b, hb, general, late, Nat.le_trans early soon⟩

/-- However things stand, runs can wake up such that the response begins. -/
theorem Timely.exists_answered (h : s.Timely) (set : s.responseDue? = some due) {last : Instant}
    (soon : due ≤ last) {later : List Event}
    (notForgotten : .cancelPending ∉ later ∧ .shutdown ∉ later) :
    ∃ more, (∀ e ∈ more, e.IsInternal) ∧ s.AnsweredBy last ((s.reacts later).reacts more) := by
  obtain ⟨more, internal, late⟩ := (s.reacts later).exists_later (last + 1)
  refine ⟨more, internal, ?_⟩
  rw [← reacts_append] at late ⊢
  have notForgotten' : .cancelPending ∉ later ++ more ∧ .shutdown ∉ later ++ more := by
    simp only [List.mem_append, not_or]
    exact ⟨⟨notForgotten.1, fun h => internal _ h⟩, ⟨notForgotten.2, fun h => internal _ h⟩⟩
  rcases h.due_or_answered set soon notForgotten' with ⟨due', -, early, early'⟩ | answered
  · exact absurd (Nat.le_trans late (Nat.le_trans early early')) (Nat.not_succ_le_self _)
  · exact answered

theorem responseDue?_query (s : Timeline) (running : s.listener.closed = false) (random : Nat)
    {q : Query} (general : q.group = none) {delay : Duration}
    (drawn : Jitter.delay (s.listener.window q) random = delay) :
    (s.react (.query random q)).responseDue? =
      some (s.responseDue?.elim (s.now + delay) (min · (s.now + delay))) := by
  show (s.listener.query s.now random q).generalAlarm.due? = _
  rw [Listener.query, if_neg (by simp [running]), general, drawn]
  exact Listener.due?_generalQuery delay

theorem earlier_le (before : Option Instant) (due : Instant) :
    before.elim due (min · due) ≤ due := by
  cases before with
  | none => exact Nat.le_refl _
  | some before => exact Nat.min_le_right _ _

/-- **Every general query is answered within its window.** Let a general query be handled at some
time of any run, while the listener is not shut down. The delay that is drawn for it is in the
window. Afterwards the response is due after that delay, or earlier if it was due earlier before,
and whatever happens later, queries only make it due earlier. Unless it is forgotten, it remains
due or has begun by then, and however things stand, runs can wake up such that it begins. A response
that begins, in any run, tells of all groups what is wanted of them at that time. -/
theorem general_queries_answered (config : Config) (events : List Event) (random : Nat) (q : Query)
    (general : q.group = none) (running : (run config events).listener.closed = false) :
    let s := run config events
    let window := config.responseWindow q.maxResponseDelay
    let delay := Jitter.delay window random
    let asked := s.react (.query random q)
    delay ≤ window ∧
    asked.responseDue? = some (s.responseDue?.elim (s.now + delay) (min · (s.now + delay))) ∧
    (∀ later due random' q', (asked.reacts later).responseDue? = some due →
      ∃ due' ≤ due, ((asked.reacts later).react (.query random' q')).responseDue? = some due') ∧
    (∀ later, .cancelPending ∉ later → .shutdown ∉ later →
      let s' := asked.reacts later
      ((∃ due, s'.responseDue? = some due ∧ s'.now ≤ due ∧ due ≤ s.now + delay) ∨
        s.AnsweredBy (s.now + delay) s') ∧
      ∃ more, (∀ e ∈ more, e.IsInternal) ∧ s.AnsweredBy (s.now + delay) (s'.reacts more)) ∧
    ∀ later, ∀ b ∈ (asked.reacts later).begun, b.listener.config = config ∧
      (b.firing.job = .general → b.listener.Responds b.firing.reports) := by
  intro s window delay asked
  have settings : s.listener.config = config := (complete_run config events).settings
  have drawn : Jitter.delay (s.listener.window q) random = delay := by
    rw [Listener.window, settings]
  have set := s.responseDue?_query running random general drawn
  have soon : s.responseDue?.elim (s.now + delay) (min · (s.now + delay)) ≤ s.now + delay :=
    earlier_le _ _
  have timely : asked.Timely := (timely_run config events).react _
  refine ⟨Jitter.delay_le _ _, set, fun later due random' q' => (react_query_due · random' q'),
    fun later notCanceled notShut => ?_, fun later => ?_⟩
  · have notForgotten := And.intro notCanceled notShut
    exact ⟨timely.due_or_answered set soon notForgotten,
      timely.exists_answered set soon notForgotten⟩
  · have complete := complete_run config (events ++ [.query random q] ++ later)
    rw [run, reacts_append, reacts_concat] at complete
    exact complete.begun

/-- A query comes 50 ms after the start, when the response is due after 800 ms. It is to be answered
within 200 ms, so the response is due after 250 ms, and remains so when a query that can wait
follows. -/
theorem general_queries_answered_overlapping :
    let group := Address.ofOctets 239 1 1 1
    let q : Query := ⟨none, [], .ofSeconds 1, false, none, none⟩
    let events : List Event :=
      [.call group (.join .allSources), .query 800 q, .pass (.ofMillis 50)]
    let s := run Config.quick events
    let asked := s.react (.query 200 q)
    s.responseDue? = some (Duration.ofMillis 800) ∧
    asked.responseDue? = some (Duration.ofMillis 250) ∧
    (asked.react (.query 900 q)).responseDue? = some (Duration.ofMillis 250) ∧
    ∃ later, ∃ b ∈ (asked.reacts later).begun, b.firing.job = .general ∧
      Duration.ofMillis 50 ≤ b.time ∧ b.time ≤ Duration.ofMillis 250 ∧
      b.listener.Responds b.firing.reports := by
  intro group q events s asked
  have now : s.now = Duration.ofMillis 50 := by decide
  have delay : Jitter.delay (Config.quick.responseWindow q.maxResponseDelay) 200 =
      Duration.ofMillis 200 := by decide
  obtain ⟨-, -, -, answered, complete⟩ :=
    general_queries_answered Config.quick events 200 q rfl (by decide)
  obtain ⟨-, later, -, new, begun, b, hb, general, late, early⟩ := answered [] (by simp) (by simp)
  have hb' : b ∈ (asked.reacts later).begun := begun ▸ List.mem_append_right _ hb
  refine ⟨by decide, by decide, by decide, later, b, hb', general, now ▸ late, ?_,
    (complete later b hb').2 general⟩
  calc b.time
      ≤ s.now + Jitter.delay (Config.quick.responseWindow q.maxResponseDelay) 200 := early
    _ = Duration.ofMillis 250 := by rw [now, delay]; rfl

end Timeline

end MulticastTunnel
