import MulticastTunnel.Proofs.Listener.Standing
import MulticastTunnel.Proofs.Report.Split

/-!
# What the listener hands out

The records of a report that the listener hands out are of a kind and about a group that its alarm
is for, whether or not the report had to be split.

* `Listener.records_of_begin` : every record handed out answers queries, or reports the change of
  its own group.
-/

namespace MulticastTunnel

namespace Listener

variable {l : Listener} {group : Address} {records : List Record} {part : Report} {r : Record}

theorem mem_parts (hpart : part ∈ l.parts records) (hr : r ∈ part.records) :
    ∃ r' ∈ records, r.kind = r'.kind ∧ r.group = r'.group :=
  Report.mem_splitToFit hpart hr

theorem isCurrentState_of_currentState {g : GroupState} (h : g.currentState = some r) :
    r.kind.isCurrentState := by
  unfold GroupState.currentState at h
  split at h
  · simp at h
  · obtain rfl := Option.some.inj h
    cases g.filter.mode <;> rfl

theorem isCurrentState_of_response {g : GroupState} {asked : AskedSources}
    (h : g.response asked = some r) : r.kind.isCurrentState := by
  cases asked with
  | all => exact isCurrentState_of_currentState h
  | only sources =>
    simp only [GroupState.response] at h
    split at h
    · simp at h
    · obtain rfl := Option.some.inj h
      rfl

theorem isCurrentState_of_generalResponse (hpart : part ∈ l.generalResponse)
    (hr : r ∈ part.records) : r.kind.isCurrentState := by
  have sent : ∃ r' ∈ l.groups.filterMap GroupState.currentState, r.kind = r'.kind := by
    simp only [generalResponse, List.partition_eq_filter_filter, List.mem_append] at hpart
    rcases hpart with hpart | hpart
    all_goals
      obtain ⟨r', hr', kind, -⟩ := mem_parts hpart hr
      exact ⟨r', (List.mem_filter.1 hr').1, kind⟩
  obtain ⟨r', hr', kind⟩ := sent
  obtain ⟨g, -, hg⟩ := List.mem_filterMap.1 hr'
  exact kind ▸ isCurrentState_of_currentState hg

theorem isCurrentState_of_groupResponse (hpart : part ∈ (l.groupResponse group).2)
    (hr : r ∈ part.records) : r.kind.isCurrentState := by
  unfold groupResponse at hpart
  split at hpart
  · simp at hpart
  · split at hpart
    · simp at hpart
    · obtain ⟨r', hr', kind, -⟩ := mem_parts hpart hr
      exact kind ▸ isCurrentState_of_response (Option.mem_toList.1 hr')

theorem group_of_changeRecords {s : Standing} (h : r ∈ s.changeRecords group) :
    r.group = group := by
  obtain ⟨filter, pending⟩ := s
  cases pending with
  | none => simp [Standing.changeRecords] at h
  | some pending =>
    obtain ⟨change, left⟩ := pending
    cases change with
    | mode =>
      obtain rfl : r = _ := by simpa [Standing.changeRecords, PendingChange.records] using h
      rfl
    | sources allow block =>
      simp only [Standing.changeRecords, PendingChange.records, Option.elim_some,
        List.mem_append] at h
      rcases h with h | h <;> split at h <;> simp_all

/-- What is handed out answers queries, or reports the change of the group it is about. -/
theorem records_of_begin {run : Nat} {job : ReportJob}
    (hpart : part ∈ handedOut (l.begin run job).2) (hr : r ∈ part.records) :
    r.kind.isCurrentState ∨ job = .change r.group := by
  cases job with
  | change group =>
    rcases begin_change l group run with ⟨-, nothing⟩ | ⟨-, reports⟩
    · simp [nothing] at hpart
    · rw [reports] at hpart
      obtain ⟨r', hr', -, same⟩ := mem_parts hpart hr
      exact .inr (by rw [same, group_of_changeRecords hr'])
  | general =>
    unfold begin at hpart
    split at hpart
    · simp [handedOut] at hpart
    · simp only [report, handedOut, Option.elim_some] at hpart
      split at hpart
      · simp at hpart
      · exact .inl (isCurrentState_of_generalResponse hpart hr)
  | query group =>
    unfold begin at hpart
    split at hpart
    · simp [handedOut] at hpart
    · simp only [report, handedOut, Option.elim_some] at hpart
      split at hpart
      · simp at hpart
      · exact .inl (isCurrentState_of_groupResponse hpart hr)

end Listener

end MulticastTunnel
