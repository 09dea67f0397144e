import MulticastTunnel.Proofs.Alarm.Register

/-!
# The tasks behind alarms

Each run that is started for an alarm is a task of its own, which goes on side by side with all
others. A task sleeps until its time has come, wakes up, asks its alarm whether the alarm still
waits for it, and acts. An alarm that is set anew or cancelled takes the run it waits for off the
register, which aborts the task of the run, unless the task has just woken up: then it is too late,
and the task finds out when it asks. So tasks of many generations of one alarm can be there at once.

* `Alarm.Agrees` : alarms, register and tasks agree. In particular an alarm remembers the one task
  of its current generation, if there is one, and only such tasks sleep.
* `Alarm.Agrees.mem_abort` : an alarm that is set anew or cancelled aborts the task that sleeps for
  it, and no other. In particular no task is aborted while it acts.
* `Alarm.Agrees.cancel`, `Alarm.Agrees.arm`, `Alarm.Agrees.become`, `Alarm.Agrees.leave` : what may
  happen to an alarm and its tasks keeps them in agreement.
-/

namespace MulticastTunnel

theorem Timers.find?_isSome_iff {J : Type} {timers : Timers J} {id : Nat} :
    (timers.find? id).isSome = true ↔ ∃ r ∈ timers.live, r.id = id := by
  simp [find?]

namespace Alarm

open Function (update update_self update_of_ne update_idem update_eq_self)

/-! ### Tasks -/

/-- What a task is doing. -/
inductive TaskPhase where
  | asleep (due : Instant)
  /-- The time has come, but the alarm has not been asked yet. -/
  | awake (due : Instant)
  | acting
  deriving DecidableEq

/-- The task of a run: the job of its alarm, how often the alarm had been set or cancelled when it
was started, and the number of the arming that it waits for or was woken by. -/
structure Task (J : Type) where
  run : Nat
  job : J
  generation : Nat
  arming : Nat
  phase : TaskPhase
  deriving DecidableEq

namespace Task

variable {J : Type}

/-- The alarm that remembers the task. -/
def memory (t : Task J) : Alarm :=
  match t.phase with
  | .asleep due | .awake due => .waiting t.run due
  | .acting => .acting t.run

/-- The task is to act at the given time, and has not begun to. -/
def WaitsUntil (t : Task J) (due : Instant) : Prop := t.phase = .asleep due ∨ t.phase = .awake due

/-- The task goes on, with what it does from now on and the arming that this is for. -/
def goesOn (t : Task J) (arming : Nat) (phase : TaskPhase) : Task J := { t with arming, phase }

/-- The task sleeps. -/
def sleeps (t : Task J) : Bool :=
  match t.phase with
  | .asleep _ => true
  | _ => false

/-- The task has woken up, and is about to ask its alarm. Only such a task is running, so that it
cannot be aborted. -/
def isAwake (t : Task J) : Bool :=
  match t.phase with
  | .awake _ => true
  | _ => false

@[simp] theorem goesOn_run {t : Task J} {arming : Nat} {phase : TaskPhase} :
    (t.goesOn arming phase).run = t.run := rfl

@[simp] theorem goesOn_job {t : Task J} {arming : Nat} {phase : TaskPhase} :
    (t.goesOn arming phase).job = t.job := rfl

@[simp] theorem goesOn_generation {t : Task J} {arming : Nat} {phase : TaskPhase} :
    (t.goesOn arming phase).generation = t.generation := rfl

@[simp] theorem goesOn_arming {t : Task J} {arming : Nat} {phase : TaskPhase} :
    (t.goesOn arming phase).arming = arming := rfl

@[simp] theorem goesOn_phase {t : Task J} {arming : Nat} {phase : TaskPhase} :
    (t.goesOn arming phase).phase = phase := rfl

theorem sleeps_iff {t : Task J} : t.sleeps = true ↔ ∃ due, t.phase = .asleep due := by
  unfold sleeps
  split <;> simp_all

theorem isAwake_iff {t : Task J} : t.isAwake = true ↔ ∃ due, t.phase = .awake due := by
  unfold isAwake
  split <;> simp_all

theorem memory_ne_idle (t : Task J) : t.memory ≠ .idle := by
  unfold memory
  split <;> simp

theorem memory_eq_waiting_iff {t : Task J} {run : Nat} {due : Instant} :
    t.memory = .waiting run due ↔ t.run = run ∧ t.WaitsUntil due := by
  unfold memory WaitsUntil
  split <;> simp_all

theorem run_eq_of_memory {t u : Task J} (h : t.memory = u.memory) : t.run = u.run := by
  unfold memory at h
  split at h <;> split at h <;> simp_all

end Task

section Lists

variable {J : Type} {tasks : List (Task J)} {t u : Task J} {run arming : Nat} {phase : TaskPhase}

/-- The task of a run becomes another one. -/
def replace (t' : Task J) (tasks : List (Task J)) : List (Task J) :=
  tasks.map fun t => if t.run = t'.run then t' else t

/-- The task of a run is over. -/
def without (run : Nat) (tasks : List (Task J)) : List (Task J) :=
  tasks.filter fun t => t.run ≠ run

/-- The tasks whose runs are taken off the register are aborted. -/
def abort (before after : Timers J) (tasks : List (Task J)) : List (Task J) :=
  tasks.filter fun t => t.isAwake || (before.find? t.run).isNone || (after.find? t.run).isSome

theorem mem_without : u ∈ without run tasks ↔ u ∈ tasks ∧ u.run ≠ run := by
  simp [without]

theorem mem_replace (ht : t ∈ tasks) : u ∈ replace (t.goesOn arming phase) tasks ↔
    u = t.goesOn arming phase ∨ (u ∈ tasks ∧ u.run ≠ t.run) := by
  simp only [replace, List.mem_map]
  constructor
  · rintro ⟨v, hv, rfl⟩
    split
    · exact .inl rfl
    · next other => exact .inr ⟨hv, other⟩
  · rintro (rfl | ⟨hu, other⟩)
    · exact ⟨t, ht, if_pos rfl⟩
    · exact ⟨u, hu, if_neg other⟩

theorem runs_replace {t' : Task J} : (replace t' tasks).map Task.run = tasks.map Task.run := by
  rw [replace, List.map_map]
  refine List.map_congr_left fun t _ => ?_
  simp only [Function.comp_apply]
  split
  · next same => exact same.symm
  · rfl

/-- A run that has just been started is not the run of any task yet. -/
theorem abort_spawn {before after : Timers J} {job : J} {due : Instant}
    (started : ∀ t ∈ tasks, t.run < after.nextId) :
    abort before (after.spawn job due).1 tasks = abort before after tasks := by
  refine List.filter_congr fun t ht => ?_
  have other : after.nextId ≠ t.run := (Nat.ne_of_lt (started t ht)).symm
  simp [Timers.find?, Timers.spawn, List.find?_append, other]

end Lists

/-! ### Alarms, register and tasks -/

section Agreement

variable {J : Type}

/-- The task of the run is acting for the job. -/
def Working (tasks : List (Task J)) (run : Nat) (job : J) : Prop :=
  ∃ t ∈ tasks, t.run = run ∧ t.job = job ∧ t.phase = .acting

/-- Alarms, register and tasks agree, where each alarm has been set or cancelled as often as its
generation says. -/
structure Agrees (alarm : J → Alarm) (timers : Timers J) (generation : J → Nat)
    (tasks : List (Task J)) : Prop where
  kept : Kept alarm (Working tasks) timers
  distinct : (tasks.map Task.run).Nodup
  started : ∀ t ∈ tasks, t.run < timers.nextId
  generations : ∀ t ∈ tasks, t.generation ≤ generation t.job
  /-- The alarm remembers a task of its generation. -/
  remembers : ∀ t ∈ tasks, t.generation = generation t.job → alarm t.job = t.memory
  /-- What the alarm remembers is a task of its generation. -/
  present : ∀ job, alarm job ≠ .idle →
    ∃ t ∈ tasks, t.job = job ∧ t.generation = generation job ∧ alarm job = t.memory
  sleepers : ∀ t ∈ tasks, t.sleeps = true → t.generation = generation t.job

section Working

variable {tasks : List (Task J)} {t : Task J} {run r : Nat} {job : J}

theorem working_of_acting (ht : t ∈ tasks) (acting : t.phase = .acting) :
    Working tasks t.run t.job :=
  ⟨t, ht, rfl, rfl, acting⟩

theorem working_replace (ht : t ∈ tasks) {arming : Nat} {phase : TaskPhase} :
    Working (replace (t.goesOn arming phase) tasks) r job ↔
      (Working tasks r job ∧ r ≠ t.run) ∨ (r = t.run ∧ job = t.job ∧ phase = .acting) := by
  simp only [Working, mem_replace ht]
  constructor
  · rintro ⟨u, rfl | ⟨hu, other⟩, rfl, rfl, acting⟩
    · exact .inr ⟨rfl, rfl, acting⟩
    · exact .inl ⟨⟨u, hu, rfl, rfl, acting⟩, other⟩
  · rintro (⟨⟨u, hu, rfl, rfl, acting⟩, other⟩ | ⟨rfl, rfl, acting⟩)
    · exact ⟨u, .inr ⟨hu, other⟩, rfl, rfl, acting⟩
    · exact ⟨_, .inl rfl, rfl, rfl, acting⟩

theorem working_without :
    Working (without run tasks) r job ↔ Working tasks r job ∧ r ≠ run := by
  simp only [Working, mem_without]
  constructor
  · rintro ⟨u, ⟨hu, other⟩, rfl, is⟩
    exact ⟨⟨u, hu, rfl, is⟩, other⟩
  · rintro ⟨⟨u, hu, rfl, is⟩, other⟩
    exact ⟨u, ⟨hu, other⟩, rfl, is⟩

end Working

namespace Agrees

variable {alarm : J → Alarm} {timers timers' : Timers J} {generation : J → Nat}
variable {tasks : List (Task J)} {t u : Task J} {job : J}

theorem empty : Agrees (fun _ : J => .idle) .empty (fun _ => 0) [] where
  kept := .empty (by simp [Working])
  distinct := List.nodup_nil
  started := by simp
  generations := by simp
  remembers := by simp
  present := by simp
  sleepers := by simp

theorem eq_of_run (h : Agrees alarm timers generation tasks) (ht : t ∈ tasks) (hu : u ∈ tasks)
    (same : t.run = u.run) : t = u :=
  List.inj_on_of_nodup_map h.distinct ht hu same

/-- **An alarm remembers exactly the task of its generation.** -/
theorem remembers_iff (h : Agrees alarm timers generation tasks) (ht : t ∈ tasks) :
    alarm t.job = t.memory ↔ t.generation = generation t.job := by
  refine ⟨fun remembered => ?_, h.remembers t ht⟩
  obtain ⟨u, hu, -, current, memory⟩ := h.present t.job (remembered ▸ t.memory_ne_idle)
  obtain rfl := h.eq_of_run ht hu (Task.run_eq_of_memory (remembered.symm.trans memory))
  exact current

theorem eq_of_current (h : Agrees alarm timers generation tasks) (ht : t ∈ tasks) (hu : u ∈ tasks)
    (job : t.job = u.job) (current : t.generation = generation t.job)
    (current' : u.generation = generation u.job) : t = u := by
  refine h.eq_of_run ht hu (Task.run_eq_of_memory ?_)
  rw [← h.remembers t ht current, ← h.remembers u hu current', job]

theorem waits_of_waiting (h : Agrees alarm timers generation tasks) (ht : t ∈ tasks) {due : Instant}
    (waiting : alarm job = .waiting t.run due) : t.job = job ∧ t.WaitsUntil due := by
  obtain ⟨u, hu, is, -, memory⟩ := h.present job (by simp [waiting])
  obtain ⟨same, waits⟩ := Task.memory_eq_waiting_iff.1 (memory.symm.trans waiting)
  obtain rfl := h.eq_of_run hu ht same
  exact ⟨is, waits⟩

theorem remembered_of_waiting (h : Agrees alarm timers generation tasks) (ht : t ∈ tasks)
    {due : Instant} (waiting : alarm t.job = .waiting t.run due) : alarm t.job = t.memory :=
  waiting.trans (Task.memory_eq_waiting_iff.2 ⟨rfl, (h.waits_of_waiting ht waiting).2⟩).symm

/-- **An alarm that is set anew or cancelled aborts the task that sleeps for it, and no other.** -/
theorem mem_abort (h : Agrees alarm timers generation tasks) :
    u ∈ abort timers ((alarm job).withdraw timers) tasks ↔
      u ∈ tasks ∧ ¬ (u.job = job ∧ u.sleeps = true) := by
  simp only [abort, List.mem_filter, Bool.or_eq_true, Option.isNone_iff_eq_none,
    ← Option.not_isSome_iff_eq_none, Timers.find?_isSome_iff]
  refine and_congr_right fun hu => ⟨?_, fun spared => ?_⟩
  · rintro alive ⟨rfl, sleeps⟩
    obtain ⟨due, asleep⟩ := Task.sleeps_iff.1 sleeps
    have waits : alarm u.job = .waiting u.run due := by
      rw [h.remembers u hu (h.sleepers u hu sleeps)]
      exact Task.memory_eq_waiting_iff.2 ⟨rfl, .inl asleep⟩
    have registered := (h.kept.asleep u.run u.job due).2 waits
    rcases alive with (awake | unknown) | ⟨r, hr, same⟩
    · obtain ⟨_, awake⟩ := Task.isAwake_iff.1 awake
      simp [asleep] at awake
    · exact unknown ⟨_, registered, rfl⟩
    · obtain ⟨hr, withdrawn⟩ := h.kept.mem_withdraw.1 hr
      obtain rfl := h.kept.numbered.eq_of_id hr registered same
      exact withdrawn ⟨rfl, by simp⟩
  · by_contra aborted
    simp only [not_or, not_not] at aborted
    obtain ⟨⟨restful, ⟨id, other, phase⟩, hr, rfl⟩, gone⟩ := aborted
    have withdrawn : other = job ∧ phase ≠ .acting := by
      by_contra stays
      exact gone ⟨_, h.kept.mem_withdraw.2 ⟨hr, stays⟩, rfl⟩
    obtain ⟨rfl, asleep⟩ := withdrawn
    cases phase with
    | acting => exact asleep rfl
    | asleep due =>
      obtain ⟨job, waits⟩ := h.waits_of_waiting hu ((h.kept.asleep _ _ _).1 hr)
      rcases waits with asleep | awake
      · exact spared ⟨job, Task.sleeps_iff.2 ⟨due, asleep⟩⟩
      · exact restful (Task.isAwake_iff.2 ⟨due, awake⟩)

variable [DecidableEq J]

/-- An alarm is set anew or cancelled: the task that sleeps for it is aborted, and all its other
tasks are of an earlier generation from now on. -/
theorem cancel (h : Agrees alarm timers generation tasks) (job : J) :
    Agrees (update alarm job .idle) ((alarm job).withdraw timers)
      (update generation job (generation job + 1))
      (abort timers ((alarm job).withdraw timers) tasks) where
  kept := by
    have working :
        Working (abort timers ((alarm job).withdraw timers) tasks) = Working tasks := by
      funext run other
      refine propext ⟨fun ⟨t, ht, is⟩ => ⟨t, (h.mem_abort.1 ht).1, is⟩, fun ⟨t, ht, is⟩ => ?_⟩
      exact ⟨t, h.mem_abort.2 ⟨ht, by simp [Task.sleeps, is.2.2]⟩, is⟩
    rw [working]
    exact h.kept.cancel job
  distinct := h.distinct.sublist (List.filter_sublist.map _)
  started t ht := by
    have started := h.started t (h.mem_abort.1 ht).1
    cases alarm job <;> exact started
  generations t ht := by
    have old := h.generations t (h.mem_abort.1 ht).1
    by_cases same : t.job = job
    · subst same
      simp
      omega
    · rwa [update_of_ne same]
  remembers t ht current := by
    have old := h.generations t (h.mem_abort.1 ht).1
    by_cases same : t.job = job
    · subst same
      rw [update_self] at current
      omega
    · rw [update_of_ne same] at current ⊢
      exact h.remembers t (h.mem_abort.1 ht).1 current
  present other set := by
    by_cases same : other = job
    · simp [same] at set
    · rw [update_of_ne same] at set ⊢
      obtain ⟨t, ht, rfl, is⟩ := h.present other set
      rw [update_of_ne same]
      exact ⟨t, h.mem_abort.2 ⟨ht, fun aborted => same aborted.1⟩, rfl, is⟩
  sleepers t ht sleeps := by
    obtain ⟨ht, spared⟩ := h.mem_abort.1 ht
    have other : t.job ≠ job := fun same => spared ⟨same, sleeps⟩
    rw [update_of_ne other]
    exact h.sleepers t ht sleeps

theorem arm (h : Agrees alarm timers generation tasks) (idle : alarm job = .idle) (due : Instant)
    (arming : Nat) : Agrees (update alarm job (.waiting timers.nextId due))
      (timers.spawn job due).1 generation
      (tasks ++ [⟨timers.nextId, job, generation job, arming, .asleep due⟩]) where
  kept := by
    have working : Working (tasks ++ [⟨timers.nextId, job, generation job, arming, .asleep due⟩]) =
        Working tasks := by
      funext run other
      simp [Working, or_and_right, exists_or]
    rw [working]
    exact h.kept.spawn idle due
  distinct := by
    simp only [List.map_append, List.map_cons, List.map_nil]
    refine List.nodup_append.2 ⟨h.distinct, List.nodup_singleton _, ?_⟩
    simp only [List.mem_map, List.mem_singleton]
    rintro _ ⟨t, ht, rfl⟩ _ rfl
    exact Nat.ne_of_lt (h.started t ht)
  started t ht := by
    rcases List.mem_append.1 ht with ht | ht
    · exact Nat.lt_succ_of_lt (h.started t ht)
    · obtain rfl := List.mem_singleton.1 ht
      exact Nat.lt_succ_self _
  generations t ht := by
    rcases List.mem_append.1 ht with ht | ht
    · exact h.generations t ht
    · obtain rfl := List.mem_singleton.1 ht
      exact Nat.le_refl _
  remembers t ht current := by
    rcases List.mem_append.1 ht with ht | ht
    · have memory := h.remembers t ht current
      have other : t.job ≠ job := by
        rintro rfl
        exact t.memory_ne_idle (memory.symm.trans idle)
      rwa [update_of_ne other]
    · obtain rfl := List.mem_singleton.1 ht
      exact update_self ..
  present other set := by
    by_cases same : other = job
    · subst same
      exact ⟨_, List.mem_append_right _ (List.mem_singleton.2 rfl), rfl, rfl, update_self ..⟩
    · rw [update_of_ne same] at set ⊢
      obtain ⟨t, ht, is⟩ := h.present other set
      exact ⟨t, List.mem_append_left _ ht, is⟩
  sleepers t ht sleeps := by
    rcases List.mem_append.1 ht with ht | ht
    · exact h.sleepers t ht sleeps
    · obtain rfl := List.mem_singleton.1 ht
      rfl

theorem become (h : Agrees alarm timers generation tasks) (ht : t ∈ tasks)
    (remembered : alarm t.job = t.memory) (arming : Nat) (phase : TaskPhase)
    (known : timers'.nextId = timers.nextId)
    (kept : Kept (update alarm t.job (t.goesOn arming phase).memory)
      (Working (replace (t.goesOn arming phase) tasks)) timers') :
    Agrees (update alarm t.job (t.goesOn arming phase).memory) timers' generation
      (replace (t.goesOn arming phase) tasks) where
  kept := kept
  distinct := by rw [runs_replace]; exact h.distinct
  started u hu := by
    rw [known]
    rcases (mem_replace ht).1 hu with rfl | ⟨hu, -⟩
    · exact h.started t ht
    · exact h.started u hu
  generations u hu := by
    rcases (mem_replace ht).1 hu with rfl | ⟨hu, -⟩
    · exact h.generations t ht
    · exact h.generations u hu
  remembers u hu current := by
    rcases (mem_replace ht).1 hu with rfl | ⟨hu, other⟩
    · exact update_self ..
    · have memory := h.remembers u hu current
      -- an alarm remembers one task only
      have elsewhere : u.job ≠ t.job := by
        intro here
        rw [here, remembered] at memory
        exact other (Task.run_eq_of_memory memory).symm
      rwa [update_of_ne elsewhere]
  present other set := by
    by_cases here : other = t.job
    · subst here
      exact ⟨_, (mem_replace ht).2 (.inl rfl), rfl, (h.remembers_iff ht).1 remembered,
        update_self ..⟩
    · rw [update_of_ne here] at set ⊢
      obtain ⟨u, hu, rfl, is⟩ := h.present other set
      refine ⟨u, (mem_replace ht).2 (.inr ⟨hu, fun same => here ?_⟩), rfl, is⟩
      rw [h.eq_of_run hu ht same]
  sleepers u hu sleeps := by
    rcases (mem_replace ht).1 hu with rfl | ⟨hu, -⟩
    · exact (h.remembers_iff ht).1 remembered
    · exact h.sleepers u hu sleeps

theorem leave (h : Agrees alarm timers generation tasks) (ht : t ∈ tasks) {a : Alarm}
    (forgotten : a = alarm t.job ∧ alarm t.job ≠ t.memory ∨ a = .idle ∧ alarm t.job = t.memory)
    (known : timers'.nextId = timers.nextId)
    (kept : Kept (update alarm t.job a) (Working (without t.run tasks)) timers') :
    Agrees (update alarm t.job a) timers' generation (without t.run tasks) where
  kept := kept
  distinct := h.distinct.sublist (List.filter_sublist.map _)
  started u hu := known ▸ h.started u (mem_without.1 hu).1
  generations u hu := h.generations u (mem_without.1 hu).1
  remembers u hu current := by
    obtain ⟨hu, other⟩ := mem_without.1 hu
    have memory := h.remembers u hu current
    by_cases here : u.job = t.job
    · rcases forgotten with ⟨rfl, -⟩ | ⟨-, remembered⟩
      · rw [here, update_self, ← here, memory]
      · rw [here, remembered] at memory
        exact absurd (Task.run_eq_of_memory memory).symm other
    · rwa [update_of_ne here]
  present other set := by
    by_cases here : other = t.job
    · subst here
      rw [update_self] at set ⊢
      rcases forgotten with ⟨rfl, differs⟩ | ⟨rfl, -⟩
      · obtain ⟨u, hu, job, current, memory⟩ := h.present t.job set
        refine ⟨u, mem_without.2 ⟨hu, fun same => differs ?_⟩, job, current, memory⟩
        obtain rfl := h.eq_of_run hu ht same
        exact memory
      · exact absurd rfl set
    · rw [update_of_ne here] at set ⊢
      obtain ⟨u, hu, rfl, is⟩ := h.present other set
      refine ⟨u, mem_without.2 ⟨hu, fun same => here ?_⟩, rfl, is⟩
      rw [h.eq_of_run hu ht same]
  sleepers u hu sleeps := h.sleepers u (mem_without.1 hu).1 sleeps

omit [DecidableEq J] in
theorem abort_setAt (h : Agrees alarm timers generation tasks) (job : J) (due : Instant) :
    abort timers ((alarm job).setAt timers job due).1 tasks =
      abort timers ((alarm job).withdraw timers) tasks := by
  refine abort_spawn fun t ht => ?_
  have started := h.started t ht
  cases alarm job <;> exact started

theorem set (h : Agrees alarm timers generation tasks) (job : J) (due : Instant) (arming : Nat) :
    Agrees (update alarm job ((alarm job).setAt timers job due).2)
      ((alarm job).setAt timers job due).1 (update generation job (generation job + 1))
      (abort timers ((alarm job).setAt timers job due).1 tasks ++
        [⟨timers.nextId, job, generation job + 1, arming, .asleep due⟩]) := by
  have known : ((alarm job).withdraw timers).nextId = timers.nextId := by
    cases alarm job <;> rfl
  have armed := (h.cancel job).arm (update_self ..) due arming
  rw [update_idem, update_self, known] at armed
  rw [h.abort_setAt]
  simpa only [setAt, Timers.spawn, known] using armed

theorem wake (h : Agrees alarm timers generation tasks) (ht : t ∈ tasks) {due : Instant}
    (asleep : t.phase = .asleep due) :
    Agrees alarm timers generation (replace (t.goesOn t.arming (.awake due)) tasks) := by
  have remembered := h.remembers t ht (h.sleepers t ht (Task.sleeps_iff.2 ⟨due, asleep⟩))
  have memory : (t.goesOn t.arming (.awake due)).memory = alarm t.job := by
    simp [remembered, Task.memory, asleep]
  have working :
      Working (replace (t.goesOn t.arming (.awake due)) tasks) = Working tasks := by
    funext r j
    refine propext ((working_replace ht).trans ?_)
    simp only [reduceCtorEq, and_false, or_false, and_iff_left_iff_imp]
    rintro ⟨u, hu, rfl, -, acting⟩ same
    obtain rfl := h.eq_of_run hu ht same
    simp [asleep] at acting
  have kept : Kept (update alarm t.job (t.goesOn t.arming (.awake due)).memory)
      (Working (replace (t.goesOn t.arming (.awake due)) tasks)) timers := by
    rw [memory, update_eq_self, working]
    exact h.kept
  have awake := h.become ht remembered t.arming (.awake due) rfl kept
  rwa [memory, update_eq_self] at awake

theorem begin (h : Agrees alarm timers generation tasks) (ht : t ∈ tasks) {due : Instant}
    (waiting : alarm t.job = .waiting t.run due) :
    Agrees (update alarm t.job (.acting t.run)) (timers.setPhase t.run .acting) generation
      (replace (t.goesOn t.arming .acting) tasks) := by
  have remembered := h.remembered_of_waiting ht waiting
  refine h.become ht remembered t.arming .acting rfl ?_
  refine h.kept.wake waiting fun r j => (working_replace ht).trans ?_
  simp only [and_true]
  refine or_congr_left (and_iff_left_of_imp ?_)
  rintro working rfl
  exact h.kept.not_working waiting _ working

/-- A task that its alarm no longer waits for when it asks is over. -/
theorem discard (h : Agrees alarm timers generation tasks) (ht : t ∈ tasks)
    (idle : t.phase ≠ .acting) (forgotten : alarm t.job ≠ t.memory) :
    Agrees alarm (timers.remove t.run) generation (without t.run tasks) := by
  have working : Working (without t.run tasks) = Working tasks := by
    funext r j
    refine propext (working_without.trans (and_iff_left_of_imp ?_))
    rintro ⟨u, hu, rfl, -, acting⟩ same
    exact idle (h.eq_of_run hu ht same ▸ acting)
  -- its run has been taken off the register already
  have gone : timers.remove t.run = timers := by
    have others : ∀ r ∈ timers.live, r.id ≠ t.run := by
      rintro ⟨id, job, due | _⟩ hr rfl
      · have waiting := (h.kept.asleep _ _ _).1 hr
        obtain ⟨rfl, -⟩ := h.waits_of_waiting ht waiting
        exact forgotten (h.remembered_of_waiting ht waiting)
      · obtain ⟨u, hu, same, -, acting⟩ := (h.kept.atWork _ _).1 hr
        exact idle (h.eq_of_run hu ht same ▸ acting)
    rw [Timers.remove, List.filter_eq_self.2 (by simpa using others)]
  have kept : Kept (update alarm t.job (alarm t.job)) (Working (without t.run tasks)) timers := by
    rw [update_eq_self, working]
    exact h.kept
  have left := h.leave ht (.inl ⟨rfl, forgotten⟩) rfl kept
  rwa [gone, ← update_eq_self t.job alarm]

theorem again (h : Agrees alarm timers generation tasks) (ht : t ∈ tasks)
    (acting : t.phase = .acting) (belongs : alarm t.job = .acting t.run) (due : Instant)
    (arming : Nat) :
    Agrees (update alarm t.job (.waiting t.run due)) (timers.setPhase t.run (.asleep due))
      generation (replace (t.goesOn arming (.asleep due)) tasks) := by
  have remembered : alarm t.job = t.memory := by simp [Task.memory, acting, belongs]
  have working : Working tasks t.run t.job := working_of_acting ht acting
  refine h.become ht remembered arming (.asleep due) rfl
    (h.kept.sleep working (fun r j => ?_) belongs)
  exact (working_replace ht).trans (by simp)

theorem ended (h : Agrees alarm timers generation tasks) (ht : t ∈ tasks)
    (acting : t.phase = .acting) {a : Alarm}
    (ends : a = alarm t.job ∧ alarm t.job ≠ .acting t.run ∨
      a = .idle ∧ alarm t.job = .acting t.run) :
    Agrees (update alarm t.job a) (timers.remove t.run) generation (without t.run tasks) := by
  have memory : t.memory = .acting t.run := by simp [Task.memory, acting]
  refine h.leave ht (by rwa [memory]) rfl ?_
  refine h.kept.remove (working_of_acting ht acting) (fun r j => working_without) ?_
  rcases ends with ⟨rfl, differs⟩ | ⟨rfl, same⟩
  · exact .inl ⟨rfl, differs⟩
  · exact .inr ⟨same, rfl⟩

end Agrees

end Agreement

end Alarm

end MulticastTunnel
