import MulticastTunnel.Proofs.Listener.General
import MulticastTunnel.Proofs.Listener.Interest
import MulticastTunnel.Proofs.Listener.Outlook

/-!
# Reports that can come up

Whatever filters may be asked for some groups, a host can ask for them, and when a relay then asks
about all groups, the response tells just that. Likewise, the first join of a group is reported
with whatever sources may be asked for.

* `Reporting.interest_asks` : what is wanted after a host has asked for some filters.
* `Reporting.exists_response` : **every report of current states that fits the settings** is handed
  out in some run.
* `Reporting.exists_join_report` : every report of new sources that fits the settings is handed
  out.
-/

namespace MulticastTunnel

namespace Listener

variable {l : Listener} {groups : List Address}

theorem Tidy.currentStates_eq (h : l.Tidy) (ascending : Ascending groups)
    (wanted : ∀ a, a ∈ groups ↔ (l.interest a).isEmpty = false) :
    l.groups.filterMap GroupState.currentState =
      groups.map fun a => (l.interest a).currentState a := by
  have listed : (l.groups.filterMap GroupState.currentState).map Record.group = groups := by
    refine Ascending.eq_of_mem_iff (List.pairwise_map.2 h.pairwise_currentStates) ascending ?_
    intro a
    rw [wanted, List.mem_map]
    constructor
    · rintro ⟨r, hr, rfl⟩
      exact (h.mem_currentStates.1 hr).1
    · intro some
      exact ⟨(l.interest a).currentState a, h.mem_currentStates.2 ⟨some, rfl⟩, rfl⟩
  rw [← listed, List.map_map]
  conv_lhs => rw [← List.map_id (l.groups.filterMap GroupState.currentState)]
  exact List.map_congr_left fun r hr => (h.mem_currentStates.1 hr).2

theorem generalResponse_of_fits {records : List Record}
    (current : l.groups.filterMap GroupState.currentState = records) (some : records ≠ [])
    (v6 : ∀ r ∈ records, r.group.isV4 = false)
    (fits : (Report.mk records).encodedLength ≤ min l.config.maxReportLength Report.maxLength) :
    l.generalResponse = [⟨records⟩] := by
  have parted : records.partition (fun r => r.group.isV4) = ([], records) := by
    rw [List.partition_eq_filter_filter]
    refine Prod.ext (List.filter_eq_nil_iff.2 fun r hr => ?_) (List.filter_eq_self.2 fun r hr => ?_)
    · simp [v6 r hr]
    · simp [v6 r hr]
  rw [generalResponse, current, parted]
  dsimp only
  rw [parts_nil, List.nil_append, parts, Report.splitToFit_of_fits fits, if_neg some]

end Listener

namespace Reporting

open Listener (Event)

variable {config : Config} {groups : List Address} {wants : Address → SourceFilter}

/-- A host asks for filters of some groups. -/
def asks (wants : Address → SourceFilter) (groups : List Address) : List Event :=
  groups.map fun group => .call 0 group (.update (wants group))

/-- What is wanted after a host has asked for filters that may be asked for. -/
theorem interest_asks (config : Config)
    (permitted : ∀ group ∈ groups, (wants group).problemFor group = none) (a : Address) :
    (run config (asks wants groups)).listener.interest a =
      if a ∈ groups then wants a else .noInterest := by
  induction groups using List.reverseRecOn with
  | nil => rfl
  | append_singleton groups group ih =>
    have before := ih fun g hg => permitted g (List.mem_append_left _ hg)
    have quiet : Event.shutdown ∉ asks wants groups := by simp [asks]
    obtain ⟨running, -⟩ := interest_run config a quiet
    obtain ⟨l', success⟩ := Listener.exists_call (c := .update (wants group)) 0
      (permitted group (by simp)) running
    have all : run config (asks wants (groups ++ [group])) =
        (run config (asks wants groups)).react (.call 0 group (.update (wants group))) := by
      simp [run, asks]
    rw [all, (upkeep_run config _).interest_react a (by simp), before, call?, success]
    by_cases same : group = a
    · subst same
      simp [Except.isOk, Except.toBool, Listener.Call.outcome]
    · have other : a ≠ group := fun h => same h.symm
      simp [same, other]

theorem config_run (config : Config) (events : List Event) :
    (run config events).listener.config = config :=
  List.foldlRecOn events react (motive := fun r => r.listener.config = config) rfl
    fun r h event _ => (r.config_react event).trans h

theorem exists_general_waiting {r : Reporting} (running : r.listener.closed = false) {q : Query}
    (general : q.group = none) (now : Instant) (random : Nat) : ∃ id due,
      (r.react (.query now random q)).listener.generalAlarm = .waiting id due := by
  have asked : (r.react (.query now random q)).listener =
      r.listener.generalQuery now (Jitter.delay (r.listener.window q) random) := by
    simp only [react, Listener.react, Listener.query, running, general]
    rfl
  have due : ((r.react (.query now random q)).listener.generalAlarm.due?).isSome := by
    rw [asked, Listener.due?_generalQuery]
    rfl
  cases set : (r.react (.query now random q)).listener.generalAlarm with
  | waiting id due => exact ⟨id, due, rfl⟩
  | _ => simp [set, Alarm.due?] at due

theorem Upkeep.firings_begin {r : Reporting} (h : r.Upkeep) {id : Nat} {job : ReportJob}
    {due : Instant} (set : r.listener.alarm? job = some (.waiting id due)) :
    (r.react (.begin id job)).firings = r.firings ++ (r.listener.begin id job).2.toList := by
  have waiting := Listener.alarm_of_alarm? set
  have asleep : r.listener.timers.Asleep id job :=
    Timers.asleep_iff.2 ⟨due, (h.listener.kept.asleep id job due).2 waiting⟩
  rw [Reporting.react, if_pos asleep]

/-- **Every report of current states that fits the settings is handed out in some run**, here for
IPv6 groups: the host asks for the filters, a relay asks about all groups, and the alarm of the
response goes off. -/
theorem exists_response (ascending : Ascending groups) (filled : groups ≠ [])
    (v6 : ∀ group ∈ groups, group.isV4 = false)
    (permitted : ∀ group ∈ groups, (wants group).problemFor group = none)
    (anything : ∀ group ∈ groups, (wants group).isEmpty = false)
    (fits : (Report.mk (groups.map fun a => (wants a).currentState a)).encodedLength ≤
      min config.maxReportLength Report.maxLength) {q : Query} (general : q.group = none) :
    ∃ id, ∃ f ∈ (run config (asks wants groups ++ [.query 0 0 q, .begin id .general])).firings,
      f.reports = [⟨groups.map fun a => (wants a).currentState a⟩] := by
  let before := run config (asks wants groups)
  let r := before.react (.query 0 0 q)
  have upkeep : r.Upkeep := (upkeep_run config _).react _
  have settings : r.listener.config = config :=
    (before.config_react _).trans (config_run config _)
  have running : before.listener.closed = false :=
    (interest_run config (.v6 0) (by simp [asks])).1
  obtain ⟨id, due, set⟩ := exists_general_waiting running general 0 0
  have interest (a : Address) :
      r.listener.interest a = if a ∈ groups then wants a else .noInterest :=
    ((upkeep_run config _).interest_react a (by simp)).trans (interest_asks config permitted a)
  have wanted (a : Address) : a ∈ groups ↔ (r.listener.interest a).isEmpty = false := by
    rw [interest]
    split
    · next ha => exact iff_of_true ha (anything a ha)
    · next ha => exact iff_of_false ha (by decide)
  have current : r.listener.groups.filterMap GroupState.currentState =
      groups.map fun a => (wants a).currentState a := by
    rw [upkeep.listener.tidy.currentStates_eq ascending wanted]
    exact List.map_congr_left fun a ha => by rw [interest, if_pos ha]
  have response := Listener.generalResponse_of_fits current (by simpa using filled)
    (by simpa [SourceFilter.currentState] using v6) (settings ▸ fits)
  have last : run config (asks wants groups ++ [.query 0 0 q, .begin id .general]) =
      r.react (.begin id .general) := by
    simp [run, r, before]
  have waiting : r.listener.alarm? .general = some (.waiting id due) := congrArg _ set
  have begun := upkeep.firings_begin waiting
  rw [upkeep.listener.begin_general set] at begun
  refine ⟨id, ⟨id, .general, r.listener.generalResponse, none⟩, ?_, response⟩
  rw [last, begun]
  exact List.mem_append_right _ (List.mem_singleton_self _)

/-! ### The first join of a group -/

section Join

variable {group : Address} {sources : AddressSet}

/-- The record of a group that has been joined. -/
def joined (config : Config) (group : Address) (sources : AddressSet) : GroupState where
  group
  filter := .including sources
  asked := none
  queryAlarm := .idle
  change := some ⟨.sources sources ∅, config.robustness.toNat⟩
  changeAlarm := .waiting 0 (0 + config.changeReportDelay)

theorem groups_join (permitted : (SourceFilter.including sources).problemFor group = none)
    (filled : sources.isEmpty = false) :
    (run config [.call 0 group (.join (.including sources))]).listener.groups =
      [joined config group sources] := by
  have wanted : SourceFilter.noInterest ≠ .including sources := by
    intro same
    obtain rfl : ∅ = sources := congrArg SourceFilter.sources same
    cases filled
  have added : sources \ ∅ = sources := AddressSet.eq_of_mem_iff fun a => by simp
  have removed : (∅ : AddressSet) \ sources = ∅ := AddressSet.eq_of_mem_iff fun a => by simp
  have change : PendingChange.record none .noInterest (.including sources)
      config.robustness.toNat = ⟨.sources sources ∅, config.robustness.toNat⟩ := by
    simp [PendingChange.record, StateChange.fold, StateChange.between, SourceFilter.noInterest,
      SourceFilter.including, added, removed]
  have permit : (Listener.start config).permit group (.including sources) = .ok () := by
    rw [Listener.permit, permitted]
    rfl
  have applied : ((Listener.start config).apply 0 group (.including sources)).groups =
      [joined config group sources] := by
    simp only [Listener.apply, Listener.start, Groups.get?, List.find?_nil, Option.getD_none,
      GroupState.fresh, wanted, ↓reduceIte, change]
    rfl
  simp only [run, List.foldl_cons, List.foldl_nil, react, Listener.react, Listener.call,
    Listener.join, start, permit, bind, Except.bind]
  exact applied

/-- **The first join of a group is reported**, here if all sources fit one report. -/
theorem exists_join_report
    (permitted : (SourceFilter.including sources).problemFor group = none)
    (filled : sources.isEmpty = false)
    (fits : (Report.mk [⟨.allow, group, sources.toList⟩]).encodedLength ≤
      min config.maxReportLength Report.maxLength) :
    ∃ f ∈ (run config
        [.call 0 group (.join (.including sources)), .begin 0 (.change group)]).firings,
      f.reports = [⟨[⟨.allow, group, sources.toList⟩]⟩] := by
  let r := run config [.call 0 group (.join (.including sources))]
  have groups : r.listener.groups = [joined config group sources] := groups_join permitted filled
  have upkeep : r.Upkeep := upkeep_run config _
  have settings : r.listener.config = config := config_run config _
  have set : r.listener.alarm? (.change group) =
      some (.waiting 0 (0 + config.changeReportDelay)) := by
    simp [Listener.alarm?, groups, Groups.get?, joined]
  obtain ⟨g, change, known, pending, begun⟩ := upkeep.listener.begin_change set
  obtain rfl : joined config group sources = g := by
    simpa [groups, Groups.get?, joined] using known
  obtain rfl : PendingChange.mk (.sources sources ∅) config.robustness.toNat = change := by
    simpa [joined] using pending
  have told := upkeep.firings_begin set
  rw [begun] at told
  refine ⟨_, told ▸ List.mem_append_right _ (List.mem_singleton_self _), ?_⟩
  have gone : (∅ : AddressSet).isEmpty = true := rfl
  simp [PendingChange.records, filled, gone, Listener.parts, settings,
    Report.splitToFit_of_fits fits]

end Join

end Reporting

end MulticastTunnel
