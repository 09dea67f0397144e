import Mathlib.Data.List.Nodup
import Mathlib.Logic.Function.Basic
import MulticastTunnel.Alarm

/-!
# The register of runs

The alarms that share a register of runs are kept by it if the runs that are asleep are exactly
those that the alarms wait for, and the runs that are acting are exactly those whose work is in
progress. Which work that is, is known to the owner of the alarms only; here it is any relation
`working` of runs to jobs.

* `Alarm.Kept` : the invariant.
* `Alarm.Kept.setAt`, `Alarm.Kept.cancel`, `Alarm.Kept.wake`, `Alarm.Kept.finish` : each operation
  on an alarm keeps it, whatever other runs are doing meanwhile.
-/

namespace MulticastTunnel

namespace Timers

variable {J : Type} {timers : Timers J} {r : Run J} {id : Nat}

@[simp] theorem mem_spawn {job : J} {due : Instant} : r ∈ (timers.spawn job due).1.live ↔
    r ∈ timers.live ∨ r = ⟨timers.nextId, job, .asleep due⟩ := by
  simp [spawn]

@[simp] theorem mem_remove : r ∈ (timers.remove id).live ↔ r ∈ timers.live ∧ r.id ≠ id := by
  simp [remove]

theorem mem_setPhase {phase : RunPhase} : r ∈ (timers.setPhase id phase).live ↔
    (∃ s ∈ timers.live, s.id = id ∧ r = { s with phase }) ∨ (r ∈ timers.live ∧ r.id ≠ id) := by
  simp only [setPhase, List.mem_map]
  constructor
  · rintro ⟨s, hs, rfl⟩
    split
    · next same => exact .inl ⟨s, hs, same, rfl⟩
    · next other => exact .inr ⟨hs, other⟩
  · rintro (⟨s, hs, same, rfl⟩ | ⟨hr, other⟩)
    · exact ⟨s, hs, if_pos same⟩
    · exact ⟨r, hr, if_neg other⟩

/-- The run with this number is asleep, and for this job. -/
def Asleep (timers : Timers J) (run : Nat) (job : J) : Prop :=
  ∃ r ∈ timers.live, r.id = run ∧ r.job = job ∧ r.phase ≠ .acting

instance [DecidableEq J] (run : Nat) (job : J) : Decidable (timers.Asleep run job) :=
  inferInstanceAs (Decidable (∃ r ∈ timers.live, r.id = run ∧ r.job = job ∧ r.phase ≠ .acting))

theorem asleep_iff {run : Nat} {job : J} :
    timers.Asleep run job ↔ ∃ due, ⟨run, job, .asleep due⟩ ∈ timers.live := by
  constructor
  · rintro ⟨⟨id, other, due | _⟩, hr, rfl, rfl, asleep⟩
    · exact ⟨due, hr⟩
    · exact absurd rfl asleep
  · rintro ⟨due, hr⟩
    exact ⟨_, hr, rfl, rfl, by simp⟩

/-- Runs have numbers of their own, all of which have been given out. -/
structure Numbered (timers : Timers J) : Prop where
  distinct : (timers.live.map Run.id).Nodup
  givenOut : ∀ r ∈ timers.live, r.id < timers.nextId

namespace Numbered

theorem eq_of_id (h : timers.Numbered) {s : Run J} (hr : r ∈ timers.live) (hs : s ∈ timers.live)
    (same : r.id = s.id) : r = s :=
  List.inj_on_of_nodup_map h.distinct hr hs same

theorem id_eq_iff (h : timers.Numbered) {s : Run J} (hr : r ∈ timers.live) (hs : s ∈ timers.live) :
    r.id = s.id ↔ r = s :=
  ⟨h.eq_of_id hr hs, congrArg Run.id⟩

theorem mem_remove (h : timers.Numbered) {s : Run J} (hs : s ∈ timers.live) :
    r ∈ (timers.remove s.id).live ↔ r ∈ timers.live ∧ r ≠ s := by
  simp only [Timers.mem_remove, ne_eq, and_congr_right_iff, not_iff_not]
  exact fun hr => h.id_eq_iff hr hs

theorem mem_setPhase (h : timers.Numbered) {s : Run J} (hs : s ∈ timers.live) {phase : RunPhase} :
    r ∈ (timers.setPhase s.id phase).live ↔
      r = { s with phase } ∨ (r ∈ timers.live ∧ r ≠ s) := by
  rw [Timers.mem_setPhase]
  refine or_congr ⟨?_, fun eq => ⟨s, hs, rfl, eq⟩⟩
    (and_congr_right fun hr => not_congr (h.id_eq_iff hr hs))
  rintro ⟨s', hs', same, rfl⟩
  rw [h.eq_of_id hs' hs same]

theorem spawn (h : timers.Numbered) (job : J) (due : Instant) :
    (timers.spawn job due).1.Numbered where
  distinct := by
    simp only [Timers.spawn, List.map_append, List.map_cons, List.map_nil]
    refine List.nodup_append.2 ⟨h.distinct, by simp, ?_⟩
    simp only [List.mem_map, List.mem_singleton]
    rintro _ ⟨r, hr, rfl⟩ _ rfl
    exact Nat.ne_of_lt (h.givenOut r hr)
  givenOut r hr := by
    rcases mem_spawn.1 hr with hr | rfl
    · exact Nat.lt_succ_of_lt (h.givenOut r hr)
    · exact Nat.lt_succ_self _

theorem remove (h : timers.Numbered) (id : Nat) : (timers.remove id).Numbered where
  distinct := h.distinct.sublist (List.filter_sublist.map _)
  givenOut r hr := h.givenOut r (Timers.mem_remove.1 hr).1

theorem setPhase (h : timers.Numbered) (id : Nat) (phase : RunPhase) :
    (timers.setPhase id phase).Numbered where
  distinct := by
    have same : (timers.setPhase id phase).live.map Run.id = timers.live.map Run.id := by
      simp only [Timers.setPhase, List.map_map]
      refine List.map_congr_left fun r _ => ?_
      simp only [Function.comp_apply]
      split <;> rfl
    rw [same]
    exact h.distinct
  givenOut r hr := by
    rcases Timers.mem_setPhase.1 hr with ⟨s, hs, -, rfl⟩ | ⟨hr, -⟩
    · exact h.givenOut s hs
    · exact h.givenOut r hr

end Numbered

end Timers

namespace Alarm

open Function

variable {J : Type} {alarm : J → Alarm} {working working' : Nat → J → Prop} {timers : Timers J}
variable {run : Nat} {job : J} {due : Instant}

theorem due?_eq_some_iff {a : Alarm} : a.due? = some due ↔ ∃ run, a = .waiting run due := by
  cases a <;> simp [due?]

/-- The end of work leaves an alarm idle only if it was idle before, or does not set it again. -/
theorem idle_of_finish {a : Alarm} {next : Option Duration} {now : Instant}
    (h : (a.finish timers run next now).2 = .idle) :
    a = .idle ∨ (a = .acting run ∧ next = none) := by
  unfold Alarm.finish at h
  split at h
  · next belongs => cases next <;> simp_all
  · exact .inl h

/-- The register agrees with the alarms, and with the work in progress. -/
structure Kept (alarm : J → Alarm) (working : Nat → J → Prop) (timers : Timers J) : Prop where
  numbered : timers.Numbered
  asleep : ∀ run job due, ⟨run, job, .asleep due⟩ ∈ timers.live ↔ alarm job = .waiting run due
  atWork : ∀ run job, ⟨run, job, .acting⟩ ∈ timers.live ↔ working run job
  acting : ∀ run job, alarm job = .acting run → working run job

namespace Kept

theorem empty (none : ∀ run job, ¬ working run job) : Kept (fun _ : J => .idle) working .empty where
  numbered := ⟨List.nodup_nil, by simp [Timers.empty]⟩
  asleep := by simp [Timers.empty]
  atWork := by simp [Timers.empty, none]
  acting := by simp

theorem job_unique (h : Kept alarm working timers) {job' : J} (hwork : working run job)
    (hwork' : working run job') : job = job' := by
  rw [← h.atWork] at hwork hwork'
  exact congrArg Run.job (h.numbered.eq_of_id hwork hwork' rfl)

theorem not_working (h : Kept alarm working timers) (set : alarm job = .waiting run due)
    (job' : J) : ¬ working run job' := by
  intro hwork
  rw [← h.atWork] at hwork
  rw [← h.asleep] at set
  cases h.numbered.eq_of_id set hwork rfl

theorem mem_withdraw (h : Kept alarm working timers) {r : Run J} :
    r ∈ ((alarm job).withdraw timers).live ↔
      r ∈ timers.live ∧ ¬ (r.job = job ∧ r.phase ≠ .acting) := by
  obtain ⟨id, other, phase⟩ := r
  cases hset : alarm job with
  | waiting run due =>
    rw [withdraw, h.numbered.mem_remove ((h.asleep run job due).2 hset)]
    refine and_congr_right fun hr => not_congr ?_
    cases phase with
    | acting => simp
    | asleep due' =>
      rw [h.asleep] at hr
      by_cases same : other = job <;> simp_all [eq_comm]
  | _ =>
    -- nothing is withdrawn, since no run of the job is asleep
    simp only [withdraw, iff_self_and]
    rintro hr ⟨rfl, asleep⟩
    cases phase with
    | acting => exact asleep rfl
    | asleep due => simp [h.asleep, hset] at hr

variable [DecidableEq J]

theorem cancel (h : Kept alarm working timers) (job : J) :
    Kept (update alarm job .idle) working ((alarm job).withdraw timers) where
  numbered := by
    cases alarm job with
    | waiting run due => exact h.numbered.remove run
    | _ => exact h.numbered
  asleep run other due := by
    by_cases same : other = job
    · simp [h.mem_withdraw, same]
    · simp [h.mem_withdraw, same, h.asleep]
  atWork run other := by simp [h.mem_withdraw, h.atWork]
  acting run other belongs := by
    by_cases same : other = job
    · simp [same] at belongs
    · exact h.acting run other (by simpa [same] using belongs)

theorem spawn (h : Kept alarm working timers) (idle : alarm job = .idle) (due : Instant) :
    Kept (update alarm job (.waiting timers.nextId due)) working (timers.spawn job due).1 where
  numbered := h.numbered.spawn job due
  asleep run other due' := by
    by_cases same : other = job
    · simp [same, h.asleep, idle, eq_comm]
    · simp [same, h.asleep]
  atWork run other := by simp [h.atWork]
  acting run other belongs := by
    by_cases same : other = job
    · simp [same] at belongs
    · exact h.acting run other (by simpa [same] using belongs)

theorem setAt (h : Kept alarm working timers) (job : J) (due : Instant) :
    Kept (update alarm job ((alarm job).setAt timers job due).2) working
      ((alarm job).setAt timers job due).1 := by
  have := (h.cancel job).spawn (update_self ..) due
  rwa [update_idem] at this

theorem wake (h : Kept alarm working timers) (set : alarm job = .waiting run due)
    (begun : ∀ r j, working' r j ↔ working r j ∨ (r = run ∧ j = job)) :
    Kept (update alarm job (.acting run)) working' (timers.setPhase run .acting) where
  numbered := h.numbered.setPhase run .acting
  asleep r other due' := by
    rw [h.numbered.mem_setPhase ((h.asleep run job due).2 set)]
    by_cases same : other = job
    · subst same
      simp [h.asleep, set, eq_comm]
    · simp [h.asleep, same]
  atWork r other := by
    rw [h.numbered.mem_setPhase ((h.asleep run job due).2 set), begun, ← h.atWork, or_comm]
    simp
  acting r other belongs := by
    rw [begun]
    by_cases same : other = job
    · subst same
      exact .inr ⟨by simpa [eq_comm] using belongs, rfl⟩
    · exact .inl (h.acting r other (by simpa [same] using belongs))

/-- When the work of a run has ended, an alarm that still acts is the alarm of other work. -/
theorem acting_ended (h : Kept alarm working timers) (hwork : working run job)
    (ended : ∀ r j, working' r j ↔ working r j ∧ r ≠ run) {a : Alarm}
    (ha : ∀ r, a = .acting r → alarm job = .acting r ∧ r ≠ run) {r : Nat} {other : J}
    (belongs : update alarm job a other = .acting r) : working' r other := by
  rw [ended]
  by_cases same : other = job
  · subst same
    obtain ⟨old, differs⟩ := ha r (by simpa using belongs)
    exact ⟨h.acting r other old, differs⟩
  · have old := h.acting r other (by simpa [same] using belongs)
    refine ⟨old, ?_⟩
    rintro rfl
    exact same (h.job_unique old hwork)

theorem remove (h : Kept alarm working timers) (hwork : working run job)
    (ended : ∀ r j, working' r j ↔ working r j ∧ r ≠ run) {a : Alarm}
    (ha : a = alarm job ∧ a ≠ .acting run ∨ alarm job = .acting run ∧ a = .idle) :
    Kept (update alarm job a) working' (timers.remove run) where
  numbered := h.numbered.remove run
  asleep r other due := by
    rw [h.numbered.mem_remove ((h.atWork run job).2 hwork)]
    by_cases same : other = job
    · subst same
      rcases ha with ⟨rfl, -⟩ | ⟨belongs, rfl⟩ <;> simp [h.asleep, *]
    · simp [h.asleep, same]
  atWork r other := by simp [h.atWork, ended]
  acting _ _ belongs := by
    refine h.acting_ended hwork ended (fun r hr => ?_) belongs
    rcases ha with ⟨rfl, other⟩ | ⟨-, rfl⟩
    · exact ⟨hr, fun same => other (same ▸ hr)⟩
    · simp at hr

theorem sleep (h : Kept alarm working timers) (hwork : working run job)
    (ended : ∀ r j, working' r j ↔ working r j ∧ r ≠ run) (belongs : alarm job = .acting run) :
    Kept (update alarm job (.waiting run due)) working' (timers.setPhase run (.asleep due)) where
  numbered := h.numbered.setPhase run _
  asleep r other due' := by
    rw [h.numbered.mem_setPhase ((h.atWork run job).2 hwork)]
    by_cases same : other = job
    · subst same
      simp [h.asleep, belongs, eq_comm]
    · simp [h.asleep, same]
  atWork r other := by
    have hrun := (h.atWork run job).2 hwork
    rw [h.numbered.mem_setPhase hrun, ended, ← h.atWork]
    simp only [Run.mk.injEq, reduceCtorEq, and_false, false_or, and_true, ne_eq]
    refine and_congr_right fun hr => not_congr ⟨And.left, ?_⟩
    -- runs at work with the same number have the same job
    intro same
    exact ⟨same, congrArg Run.job (h.numbered.eq_of_id hr hrun same)⟩
  acting _ _ belongs' := h.acting_ended hwork ended (by simp) belongs'

theorem finish (h : Kept alarm working timers) (hwork : working run job)
    (ended : ∀ r j, working' r j ↔ working r j ∧ r ≠ run) (next : Option Duration) (now : Instant) :
    Kept (update alarm job ((alarm job).finish timers run next now).2) working'
      ((alarm job).finish timers run next now).1 := by
  unfold Alarm.finish
  split
  · next belongs =>
    cases next with
    | none => exact h.remove hwork ended (.inr ⟨belongs, rfl⟩)
    | some delay => exact h.sleep hwork ended belongs
  · next superseded => exact h.remove hwork ended (.inl ⟨rfl, superseded⟩)

end Kept

end Alarm

end MulticastTunnel
