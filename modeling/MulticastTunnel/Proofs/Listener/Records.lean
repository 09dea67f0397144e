import MulticastTunnel.Proofs.Listener.Run

/-!
# What is in the records of groups

A listener refuses filters that can not be asked for a group, but it does not check again what it
makes of those it has accepted: the union with the filter of a group, or the sources that are
folded into a change. It drops a record when nothing is left in it.

* `GroupState.Sound` : what the filter and the pending change of a group may contain.
* `Listener.Tidy` : the records are in order, sound, and worth keeping.
* `Listener.Tidy.react` : every event leaves the records tidy, in any order of runs.
-/

namespace MulticastTunnel

/-! ### Sound records -/

namespace GroupState

/-- The filter may be asked for the group, and the change names sources of such filters only. -/
structure Sound (g : GroupState) : Prop where
  filter : g.filter.problemFor g.group = none
  change : ∀ p, g.change = some p → ∀ a, p.change.Mentions a →
    SourceFilter.sourceProblem g.group a = none

namespace Sound

variable {g : GroupState} {group : Address}

theorem fresh (h : group.isMulticast) : (fresh group).Sound where
  filter := SourceFilter.problemFor_noInterest h
  change p pending := by simp [GroupState.fresh] at pending

theorem record (h : g.Sound) {filter : SourceFilter} (permitted : filter.problemFor g.group = none)
    (robustness : Nat) (changeAlarm : Alarm) :
    Sound { g with
      filter, change := some (.record g.change g.filter filter robustness), changeAlarm } where
  filter := permitted
  change p pending a mentions := by
    have sources := (SourceFilter.problemFor_eq_none_iff.1 permitted).2.1
    have oldSources := (SourceFilter.problemFor_eq_none_iff.1 h.filter).2.1
    obtain rfl := Option.some.inj pending
    rcases StateChange.mentions_fold mentions with ⟨change, hchange, mentioned⟩ | old | new
    · obtain ⟨p, pending, rfl⟩ := Option.map_eq_some_iff.1 hchange
      exact h.change p pending a mentioned
    · exact oldSources a old
    · exact sources a new

theorem transmitted (h : g.Sound) {change left : PendingChange} (pending : g.change = some change)
    (hleft : change.transmitted = some left) : Sound { g with change := some left } where
  filter := h.filter
  change p hp a mentions := by
    obtain rfl := Option.some.inj hp
    refine h.change change pending a ?_
    simp only [PendingChange.transmitted, Option.ite_none_left_eq_some, Option.some.injEq] at hleft
    rwa [← hleft.2] at mentions

theorem forgetChange (h : g.Sound) : Sound { g with change := none } := ⟨h.filter, by simp⟩

end Sound

end GroupState

/-! ### Tidy records -/

namespace Listener

/-- The records are in order, and each is sound and worth keeping. -/
structure Tidy (l : Listener) : Prop where
  ordered : Groups.Ordered l.groups
  sound : ∀ g ∈ l.groups, g.Sound
  kept : ∀ g ∈ l.groups, g.isEvictable = false

theorem Tidy.start (config : Config) : (start config).Tidy :=
  ⟨List.Pairwise.nil, by simp [Listener.start], by simp [Listener.start]⟩

namespace Tidy

variable {l : Listener} {g : GroupState} {group : Address}

theorem timers (h : l.Tidy) (timers : Timers ReportJob) : Tidy { l with timers } :=
  ⟨h.ordered, h.sound, h.kept⟩

theorem put (h : l.Tidy) (sound : g.Sound) (kept : g.isEvictable = false) : (l.put g).Tidy where
  ordered := h.ordered.put
  sound g' hg' := by
    rcases Groups.mem_put hg' with rfl | hg'
    · exact sound
    · exact h.sound g' hg'
  kept g' hg' := by
    rcases Groups.mem_put hg' with rfl | hg'
    · exact kept
    · exact h.kept g' hg'

theorem keepOrDrop (h : l.Tidy) (sound : g.Sound) : (l.keepOrDrop g).Tidy := by
  unfold Listener.keepOrDrop
  split
  · exact ⟨h.ordered.erase, fun g' hg' => h.sound g' (List.mem_filter.1 hg').1,
      fun g' hg' => h.kept g' (List.mem_filter.1 hg').1⟩
  · next keep => exact h.put sound (by simpa using keep)

theorem get?_of_mem (h : l.Tidy) (hg : g ∈ l.groups) : l.groups.get? g.group = some g :=
  h.ordered.get?_of_mem hg

theorem sound_of_get? (h : l.Tidy) (known : l.groups.get? group = some g) : g.Sound :=
  h.sound g (List.mem_of_find?_eq_some known)

theorem kept_of_get? (h : l.Tidy) (known : l.groups.get? group = some g) :
    g.isEvictable = false :=
  h.kept g (List.mem_of_find?_eq_some known)

theorem putAlarm (h : l.Tidy) (job : ReportJob) (alarm : Alarm) : (l.putAlarm job alarm).Tidy := by
  unfold Listener.putAlarm
  split
  · exact ⟨h.ordered, h.sound, h.kept⟩
  all_goals
    split
    · next g known =>
      have sound := h.sound_of_get? known
      have kept := h.kept_of_get? known
      exact h.put ⟨sound.filter, sound.change⟩ kept
    · exact h

theorem sound_getD_fresh (h : l.Tidy) (multicast : group.isMulticast) :
    ((l.groups.get? group).getD (.fresh group)).Sound := by
  cases known : l.groups.get? group with
  | none => exact .fresh multicast
  | some g => exact h.sound_of_get? known

theorem apply (h : l.Tidy) (now : Instant) {filter : SourceFilter}
    (permitted : filter.problemFor group = none) : (l.apply now group filter).Tidy := by
  have sound := h.sound_getD_fresh (SourceFilter.problemFor_eq_none_iff.1 permitted).1
  have same := group_getD_fresh l group
  unfold Listener.apply
  generalize (l.groups.get? group).getD (.fresh group) = g at sound same ⊢
  dsimp only
  split
  · exact h.keepOrDrop sound
  · exact (h.timers _).put (sound.record (same ▸ permitted) _ _) (by simp [GroupState.isEvictable])

theorem apply_of_eq (h : l.Tidy) (now : Instant) {filter : SourceFilter}
    (same : l.interest group = filter) : l.apply now group filter = l := by
  cases known : l.groups.get? group with
  | none =>
    have none : filter = .noInterest := by simp [← same, interest, filter?, known]
    have evictable : (GroupState.fresh group).isEvictable = true := rfl
    have erased : l.groups.erase (GroupState.fresh group).group = l.groups :=
      Groups.erase_of_get?_eq_none known
    have unchanged : (GroupState.fresh group).filter = .noInterest := rfl
    simp only [Listener.apply, known, Option.getD_none, none]
    rw [if_pos unchanged, Listener.keepOrDrop, if_pos evictable, drop, erased]
    rfl
  | some g =>
    have unchanged : g.filter = filter := by simp [← same, interest, filter?, known]
    have keep : ¬ g.isEvictable = true := by simp [h.kept_of_get? known]
    simp only [Listener.apply, known, Option.getD_some]
    rw [if_pos unchanged, Listener.keepOrDrop, if_neg keep, Listener.put,
      h.ordered.put_of_get? known]

/-- A call that succeeds does nothing, or gives the group a filter that may be asked for it. -/
theorem call_cases (h : l.Tidy) {now : Instant} {c : Call} {l' : Listener}
    (success : l.call now group c = .ok l') : l.closed = false ∧
      (l' = l ∨ ∃ filter, filter.problemFor group = none ∧ l' = l.apply now group filter) := by
  rcases Listener.call_cases l now group c with ⟨permit, -⟩ | ⟨e, -, failure⟩
  · obtain ⟨permitted, running⟩ := permit_eq_ok_iff.1 permit
    refine ⟨running, ?_⟩
    cases c with
    | join filter =>
      simp only [Call.filter] at permit permitted
      simp only [Listener.call, join, permit, bind, Except.bind, pure, Except.pure,
        Except.ok.injEq] at success
      refine .inr ⟨_, ?_, success.symm⟩
      -- the union is not checked again, but both of its parts were
      unfold filter?
      cases known : l.groups.get? group with
      | none => exact permitted
      | some g =>
        have own := (h.sound_of_get? known).filter
        rw [Groups.group_of_get? known] at own
        exact SourceFilter.problemFor_union own permitted
    | leave =>
      simp only [Call.filter] at permit permitted
      simp only [Listener.call, leave, permit, bind, Except.bind, pure, Except.pure] at success
      split at success <;> have same := Except.ok.inj success
      · exact .inl same.symm
      · exact .inr ⟨_, permitted, same.symm⟩
    | update filter =>
      simp only [Call.filter] at permit permitted
      simp only [Listener.call, update, permit, bind, Except.bind, pure, Except.pure] at success
      split at success <;> have same := Except.ok.inj success
      · exact .inl same.symm
      · exact .inr ⟨_, permitted, same.symm⟩
  · simp [failure] at success

theorem groupQuery (h : l.Tidy) (now : Instant) (delay : Duration) (sources : List Address) :
    (l.groupQuery now delay group sources).Tidy := by
  unfold Listener.groupQuery
  split
  · exact h
  · next g known =>
    have sound := h.sound_of_get? known
    split
    · exact h
    · split
      · exact h.put ⟨sound.filter, sound.change⟩ (by simp [GroupState.isEvictable])
      · split
        · exact h
        · exact (h.timers _).put ⟨sound.filter, sound.change⟩ (by simp [GroupState.isEvictable])

theorem query (h : l.Tidy) (now : Instant) (random : Nat) (q : Query) :
    (l.query now random q).Tidy := by
  unfold Listener.query
  split
  · exact h
  · dsimp only
    split
    · unfold generalQuery
      split
      · exact h
      · exact ⟨h.ordered, h.sound, h.kept⟩
    · exact h.groupQuery ..

theorem report (h : l.Tidy) (job : ReportJob) : (l.report job).1.Tidy := by
  unfold Listener.report
  split
  · exact h
  · split
    · exact h
    · dsimp only
      unfold groupResponse
      split
      · exact h
      · next g known =>
        have sound := h.sound_of_get? known
        split
        · exact h
        · exact h.keepOrDrop ⟨sound.filter, sound.change⟩
    · unfold changeReport
      split
      · exact h
      · next g known =>
        have sound := h.sound_of_get? known
        split
        · exact h
        · next change pending =>
          dsimp only
          split
          · next left hleft =>
            exact h.put (sound.transmitted pending hleft) (by simp [GroupState.isEvictable])
          · exact h.keepOrDrop sound.forgetChange

theorem begin (h : l.Tidy) (run : Nat) (job : ReportJob) : (l.begin run job).1.Tidy := by
  unfold Listener.begin
  split
  · exact h.timers _
  · exact ((h.timers _).putAlarm _ _).report _

theorem finish (h : l.Tidy) (f : Firing) (now : Instant) : (l.finish f now).Tidy := by
  unfold Listener.finish
  split
  · exact h.timers _
  · exact (h.timers _).putAlarm _ _

end Tidy

theorem of_mem_forgetAll {g : GroupState} {groups : Groups} {timers : Timers ReportJob}
    (h : g ∈ (forgetAll timers groups).2) :
    g.isEvictable = false ∧ ∃ g' ∈ groups, ∃ timers', g = (forget timers' g').2 := by
  induction groups generalizing timers with
  | nil => simp [forgetAll] at h
  | cons first rest ih =>
    simp only [forgetAll] at h
    have later : ∀ {timers}, g ∈ (forgetAll timers rest).2 →
        g.isEvictable = false ∧ ∃ g' ∈ first :: rest, ∃ timers', g = (forget timers' g').2 := by
      intro timers h
      obtain ⟨keep, g', hg', forgotten⟩ := ih h
      exact ⟨keep, g', List.mem_cons_of_mem _ hg', forgotten⟩
    split at h
    · exact later h
    · next keep =>
      rcases List.mem_cons.1 h with rfl | h
      · exact ⟨by simpa using keep, first, by simp, timers, rfl⟩
      · exact later h

theorem Tidy.cancelPending {l : Listener} (h : l.Tidy) : l.cancelPending.Tidy where
  ordered := ordered_forgetAll h.ordered _
  sound g hg := by
    obtain ⟨-, g', hg', timers, rfl⟩ := of_mem_forgetAll hg
    exact ⟨(h.sound g' hg').filter, by simp [forget]⟩
  kept g hg := (of_mem_forgetAll hg).1

/-- **Every event leaves the records tidy**, whatever runs it begins or ends. -/
theorem Tidy.react {l : Listener} (h : l.Tidy) (event : Event) : (l.react event).1.Tidy := by
  cases event with
  | call now group c =>
    cases success : l.call now group c with
    | error e => simpa [Listener.react, success, Except.toOption] using h
    | ok l' =>
      have tidy : l'.Tidy := by
        obtain ⟨-, rfl | ⟨filter, permitted, rfl⟩⟩ := h.call_cases success
        · exact h
        · exact h.apply now permitted
      simpa [Listener.react, success, Except.toOption] using tidy
  | query now random query => exact h.query now random query
  | cancelPending => exact h.cancelPending
  | shutdown =>
    exact ⟨List.Pairwise.nil, by simp [Listener.react, shutdown],
      by simp [Listener.react, shutdown]⟩
  | begin run job => exact h.begin run job
  | finish firing now => exact h.finish firing now

end Listener

end MulticastTunnel
