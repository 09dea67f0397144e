import MulticastTunnel.Proofs.Alarm.Runtime

/-!
# When alarms go off

A task acts only for the last arming of its alarm, at most once, and not before the time of that
arming. So an alarm that is set anew never goes off for an earlier setting, and one that is
cancelled does not go off at all until it is set again, however many tasks of either are still
awake or at work.

* `Alarm.Armed` : every task is for an arming of its own, and work begins once for each arming.
* `Alarm.Runtime.Later`, `Alarm.Runtime.Off` : what a setting and a cancellation leave behind.
* `Alarm.Runtime.alarms_go_off_once` : what holds of alarms and their tasks, whatever happens.
-/

namespace MulticastTunnel

namespace Alarm

open Function (update update_self update_of_ne)

/-! ### Armings -/

section Armings

variable {J : Type}

/-- Tasks and the work that has begun are for armings that have been recorded. -/
structure Armed (now : Instant) (armings : List (J × Instant)) (tasks : List (Task J))
    (starts : List (Start J)) : Prop where
  issued : ∀ t ∈ tasks, t.arming < armings.length
  distinct : ∀ t ∈ tasks, ∀ u ∈ tasks, t.arming = u.arming → t.run = u.run
  recorded : ∀ t ∈ tasks, ∀ due, t.WaitsUntil due → armings[t.arming]? = some (t.job, due)
  ripe : ∀ t ∈ tasks, ∀ due, t.phase = .awake due → due ≤ now
  unused : ∀ t ∈ tasks, t.phase ≠ .acting → ∀ b ∈ starts, b.arming ≠ t.arming
  begun : ∀ b ∈ starts, armings[b.arming]? = some (b.job, b.due) ∧ b.due ≤ b.time
  once : (starts.map Start.arming).Nodup

namespace Armed

variable {now : Instant} {armings : List (J × Instant)} {tasks tasks' : List (Task J)}
variable {starts : List (Start J)} {t : Task J}

theorem empty : Armed now ([] : List (J × Instant)) [] [] where
  issued := by simp
  distinct := by simp
  recorded := by simp
  ripe := by simp
  unused := by simp
  begun := by simp
  once := List.nodup_nil

theorem pass (h : Armed now armings tasks starts) (time : Duration) :
    Armed (now + time) armings tasks starts :=
  { h with ripe := fun t ht due awake => Nat.le_add_right_of_le (h.ripe t ht due awake) }

theorem fewer (h : Armed now armings tasks starts) (left : ∀ t ∈ tasks', t ∈ tasks) :
    Armed now armings tasks' starts where
  issued t ht := h.issued t (left t ht)
  distinct t ht u hu := h.distinct t (left t ht) u (left u hu)
  recorded t ht := h.recorded t (left t ht)
  ripe t ht := h.ripe t (left t ht)
  unused t ht := h.unused t (left t ht)
  begun := h.begun
  once := h.once

theorem grow (h : Armed now armings tasks starts) (x : J × Instant) :
    Armed now (armings ++ [x]) tasks starts :=
  { h with
    issued := fun t ht => by
      rw [List.length_append]
      exact Nat.lt_add_right _ (h.issued t ht)
    recorded := fun t ht due waits => by
      rw [List.getElem?_append_left (h.issued t ht)]
      exact h.recorded t ht due waits
    begun := fun b hb => by
      obtain ⟨known, onTime⟩ := h.begun b hb
      obtain ⟨issued, -⟩ := List.getElem?_eq_some_iff.1 known
      exact ⟨by rwa [List.getElem?_append_left issued], onTime⟩ }

theorem insert (h : Armed now armings tasks starts) (issued : t.arming < armings.length)
    (own : ∀ u ∈ tasks, u.arming ≠ t.arming)
    (recorded : ∀ due, t.WaitsUntil due → armings[t.arming]? = some (t.job, due))
    (ripe : ∀ due, t.phase = .awake due → due ≤ now)
    (unused : t.phase ≠ .acting → ∀ b ∈ starts, b.arming ≠ t.arming) :
    Armed now armings (tasks ++ [t]) starts where
  issued u hu := by
    rcases List.mem_append.1 hu with hu | hu
    · exact h.issued u hu
    · exact List.mem_singleton.1 hu ▸ issued
  distinct u hu v hv same := by
    rcases List.mem_append.1 hu with old | new <;> rcases List.mem_append.1 hv with old' | new'
    · exact h.distinct u old v old' same
    · exact absurd (List.mem_singleton.1 new' ▸ same) (own u old)
    · exact absurd (List.mem_singleton.1 new ▸ same.symm) (own v old')
    · rw [List.mem_singleton.1 new, List.mem_singleton.1 new']
  recorded u hu := by
    rcases List.mem_append.1 hu with hu | hu
    · exact h.recorded u hu
    · exact List.mem_singleton.1 hu ▸ recorded
  ripe u hu := by
    rcases List.mem_append.1 hu with hu | hu
    · exact h.ripe u hu
    · exact List.mem_singleton.1 hu ▸ ripe
  unused u hu := by
    rcases List.mem_append.1 hu with hu | hu
    · exact h.unused u hu
    · exact List.mem_singleton.1 hu ▸ unused
  begun := h.begun
  once := h.once

theorem arm (h : Armed now armings tasks starts) {due : Instant} (asleep : t.phase = .asleep due)
    (last : t.arming = armings.length) :
    Armed now (armings ++ [(t.job, due)]) (tasks ++ [t]) starts := by
  refine (h.grow _).insert ?_ (fun u hu => ?_) (fun d waits => ?_) (fun d awake => ?_)
    fun _ b hb => ?_
  · simp [last]
  · rw [last]
    exact Nat.ne_of_lt (h.issued u hu)
  · obtain rfl : due = d := by simpa [Task.WaitsUntil, asleep] using waits
    simp [last]
  · simp [asleep] at awake
  · obtain ⟨issued, -⟩ := List.getElem?_eq_some_iff.1 (h.begun b hb).1
    rw [last]
    exact Nat.ne_of_lt issued

theorem others (h : Armed now armings tasks starts) (ht : t ∈ tasks) :
    ∀ u ∈ without t.run tasks, u.arming ≠ t.arming := by
  intro u hu same
  obtain ⟨hu, other⟩ := mem_without.1 hu
  exact other (h.distinct u hu t ht same)

theorem of_without {phase : TaskPhase} {arming : Nat} (ht : t ∈ tasks)
    (h : Armed now armings (without t.run tasks ++ [t.goesOn arming phase]) starts) :
    Armed now armings (replace (t.goesOn arming phase) tasks) starts := by
  refine h.fewer fun u hu => List.mem_append.2 ?_
  rcases (mem_replace ht).1 hu with rfl | ⟨hu, other⟩
  · exact .inr (List.mem_singleton.2 rfl)
  · exact .inl (mem_without.2 ⟨hu, other⟩)

theorem wake (h : Armed now armings tasks starts) (ht : t ∈ tasks) {due : Instant}
    (asleep : t.phase = .asleep due) (ripe : due ≤ now) :
    Armed now armings (replace (t.goesOn t.arming (.awake due)) tasks) starts := by
  refine of_without ht ((h.fewer fun u hu => (mem_without.1 hu).1).insert (h.issued t ht)
    (h.others ht) (fun d waits => ?_) (fun d awake => ?_) fun _ => ?_)
  · obtain rfl : due = d := by simpa [Task.WaitsUntil] using waits
    exact h.recorded t ht due (.inl asleep)
  · obtain rfl : due = d := by simpa using awake
    exact ripe
  · exact h.unused t ht (by simp [asleep])

theorem begin (h : Armed now armings tasks starts) (ht : t ∈ tasks) {due : Instant}
    (awake : t.phase = .awake due) :
    Armed now armings (replace (t.goesOn t.arming .acting) tasks)
      (starts ++ [⟨t.run, t.job, t.arming, due, now⟩]) := by
  have unused := h.unused t ht (by simp [awake])
  refine of_without ht ?_
  have acting : Armed now armings (without t.run tasks ++ [t.goesOn t.arming .acting]) starts := by
    refine (h.fewer fun u hu => (mem_without.1 hu).1).insert (h.issued t ht) (h.others ht)
      (fun d waits => ?_) (fun d awake => ?_) fun idle => ?_
    · simp [Task.WaitsUntil] at waits
    · simp at awake
    · exact absurd rfl idle
  refine { acting with unused := fun u hu idle b hb => ?_, begun := fun b hb => ?_, once := ?_ }
  · rcases List.mem_append.1 hb with hb | hb
    · exact acting.unused u hu idle b hb
    · obtain rfl := List.mem_singleton.1 hb
      rcases List.mem_append.1 hu with hu | hu
      · exact (h.others ht u hu).symm
      · obtain rfl := List.mem_singleton.1 hu
        exact absurd rfl idle
  · rcases List.mem_append.1 hb with hb | hb
    · exact h.begun b hb
    · obtain rfl := List.mem_singleton.1 hb
      exact ⟨h.recorded t ht due (.inr awake), h.ripe t ht due awake⟩
  · rw [List.map_append, List.map_singleton]
    refine List.nodup_append.2 ⟨h.once, List.nodup_singleton _, ?_⟩
    simp only [List.mem_map, List.mem_singleton]
    rintro _ ⟨b, hb, rfl⟩ _ rfl
    exact unused b hb

end Armed

end Armings

namespace Runtime

variable {J : Type} [DecidableEq J] {s s' : Runtime J} {e : Event J} {t : Task J} {job : J}

/-- Tasks and the work that has begun are for armings that have been recorded. -/
def Armed (s : Runtime J) : Prop := Alarm.Armed s.now s.armings s.tasks s.starts

theorem Armed.move (h : s.Armed) (m : Move s e s') : s'.Armed := by
  have remaining {before after : Timers J} : ∀ t ∈ abort before after s.tasks, t ∈ s.tasks :=
    fun t ht => (List.mem_filter.1 ht).1
  have others {run : Nat} : ∀ t ∈ without run s.tasks, t ∈ s.tasks :=
    fun t ht => (mem_without.1 ht).1
  cases m with
  | none => exact h
  | pass => exact h.pass _
  | @set job due =>
    exact (h.fewer remaining).arm
      (t := ⟨s.timers.nextId, job, s.generation job + 1, s.armings.length, .asleep due⟩) rfl rfl
  | cancel => exact h.fewer remaining
  | wake ht asleep ripe => exact h.wake ht asleep ripe
  | begin ht awake waiting => exact h.begin ht awake
  | discard ht awake forgotten => exact h.fewer others
  | @again t delay ht acting belongs =>
    exact Alarm.Armed.of_without ht ((h.fewer others).arm
      (t := t.goesOn s.armings.length (.asleep (s.now + delay))) rfl rfl)
  | ended ht acting ends => exact h.fewer others

/-- **Work begins only in the task of the current generation that the alarm waits for.** -/
theorem Move.starts (m : Move s e s') (h : s.Agrees) : s'.starts = s.starts ∨
    ∃ t ∈ s.tasks, ∃ due, t.phase = .awake due ∧ s.alarm t.job = .waiting t.run due ∧
      s'.starts = s.starts ++ [⟨t.run, t.job, t.arming, due, s.now⟩] := by
  cases m with
  | @begin t due set ht awake waiting =>
    obtain ⟨-, asleep | awake'⟩ := h.waits_of_waiting ht waiting
    · simp [awake] at asleep
    · obtain rfl : due = set := by simpa [awake] using awake'
      exact .inr ⟨t, ht, due, awake, waiting, rfl⟩
  | _ => exact .inl rfl

/-- What is true of a state, stays true under the given events, and tells something of all work that
begins in such a state, tells it of all work that begins under these events. -/
theorem starts_foldl {I : Runtime J → Prop} {Q : Start J → Prop} (events : List (Event J))
    (keep : ∀ s s', ∀ e ∈ events, I s → s.Agrees → Move s e s' → I s')
    (tell : ∀ s, I s → s.Agrees → ∀ t ∈ s.tasks, ∀ due, s.alarm t.job = .waiting t.run due →
      Q ⟨t.run, t.job, t.arming, due, s.now⟩) (s : Runtime J) (hI : I s) (h : s.Agrees) :
    ∃ new, (events.foldl react s).starts = s.starts ++ new ∧ ∀ b ∈ new, Q b := by
  induction events generalizing s with
  | nil => exact ⟨[], by simp, by simp⟩
  | cons e events ih =>
    have m := move_react s e
    obtain ⟨new, later, hnew⟩ := ih (fun s s' e he => keep s s' e (List.mem_cons_of_mem _ he))
      (s.react e) (keep s _ e List.mem_cons_self hI h m) (h.move m)
    rw [List.foldl_cons, later]
    rcases m.starts h with same | ⟨t, ht, due, -, waiting, begun⟩
    · exact ⟨new, by rw [same], hnew⟩
    · refine ⟨_ :: new, by rw [begun, List.append_assoc, List.singleton_append], ?_⟩
      exact List.forall_mem_cons.2 ⟨tell s hI h t ht due waiting, hnew⟩

/-- The current task for the job is for none of the first `n` armings. -/
def Later (n : Nat) (job : J) (s : Runtime J) : Prop :=
  n ≤ s.armings.length ∧
    ∀ t ∈ s.tasks, t.job = job → t.generation = s.generation job → n ≤ t.arming

namespace Later

variable {n : Nat}

/-- After an alarm has been set or cancelled, its remaining tasks are not the current one. -/
theorem outdated (h : s.Agrees) (ht : t ∈ s.tasks) {other : J}
    (current : t.generation = update s.generation other (s.generation other + 1) t.job) :
    t.job ≠ other ∧ t.generation = s.generation t.job := by
  have old := h.generations t ht
  by_cases same : t.job = other
  · subst same
    rw [update_self] at current
    omega
  · exact ⟨same, by rwa [update_of_ne same] at current⟩

theorem move (later : s.Later n job) (h : s.Agrees) (m : Move s e s') : s'.Later n job := by
  obtain ⟨le, later⟩ := later
  cases m with
  | none | pass => exact ⟨le, later⟩
  | set =>
    refine ⟨by simp [set]; omega, fun t ht is current => ?_⟩
    subst is
    rcases List.mem_append.1 ht with ht | ht
    · have ht := (List.mem_filter.1 ht).1
      exact later t ht rfl (outdated h ht current).2
    · rw [List.mem_singleton.1 ht]
      exact le
  | cancel =>
    refine ⟨le, fun t ht is current => ?_⟩
    subst is
    have ht := (List.mem_filter.1 ht).1
    exact later t ht rfl (outdated h ht current).2
  | wake ht | begin ht =>
    have old := later _ ht
    refine ⟨le, fun u hu is current => ?_⟩
    rcases (mem_replace ht).1 hu with rfl | ⟨hu, -⟩
    · exact old is current
    · exact later u hu is current
  | again ht =>
    refine ⟨by simp; omega, fun u hu is current => ?_⟩
    rcases (mem_replace ht).1 hu with rfl | ⟨hu, -⟩
    · exact le
    · exact later u hu is current
  | discard | ended => exact ⟨le, fun u hu => later u (mem_without.1 hu).1⟩

theorem starts (later : s.Later n job) (h : s.Agrees) (events : List (Event J)) :
    ∃ new, (events.foldl react s).starts = s.starts ++ new ∧
      ∀ b ∈ new, b.job = job → n ≤ b.arming := by
  refine starts_foldl (I := Later n job) events (fun s s' e _ later h m => later.move h m)
    (fun s later h t ht due waiting is => ?_) s later h
  subst is
  exact later.2 t ht rfl ((h.remembers_iff ht).1 (h.remembered_of_waiting ht waiting))

end Later

theorem acting_move (h : s.Agrees) (ht : t ∈ s.tasks) (acting : t.phase = .acting)
    (m : Move s e s') (unfinished : ∀ next, e ≠ .finish t.run next) : t ∈ s'.tasks := by
  have awake : t.sleeps = false := by simp [Task.sleeps, acting]
  -- a task that goes to another phase was not acting
  have other {u : Task J} (hu : u ∈ s.tasks) (idle : u.phase ≠ .acting) : t.run ≠ u.run := by
    intro same
    exact idle (h.eq_of_run ht hu same ▸ acting)
  cases m with
  | none | pass => exact ht
  | @set job due =>
    have spared : t ∈ abort s.timers ((s.alarm job).setAt s.timers job due).1 s.tasks := by
      rw [h.abort_setAt]
      exact h.mem_abort.2 ⟨ht, by simp [awake]⟩
    exact List.mem_append_left _ spared
  | cancel => exact h.mem_abort.2 ⟨ht, by simp [awake]⟩
  | wake hu asleep => exact (mem_replace hu).2 (.inr ⟨ht, other hu (by simp [asleep])⟩)
  | begin hu asleep => exact (mem_replace hu).2 (.inr ⟨ht, other hu (by simp [asleep])⟩)
  | discard hu asleep => exact mem_without.2 ⟨ht, other hu (by simp [asleep])⟩
  | @again u delay hu =>
    exact (mem_replace hu).2 (.inr ⟨ht, fun same => unfinished (some delay) (by rw [same])⟩)
  | @ended u next a hu =>
    exact mem_without.2 ⟨ht, fun same => unfinished next (by rw [same])⟩

/-! ### What holds at any time -/

/-- What holds of alarms and their tasks at any time. -/
structure Orderly (s : Runtime J) : Prop where
  /-- An alarm is set to a time exactly if one task of its current generation waits until then. -/
  set_iff : ∀ job due, (s.alarm job).due? = some due ↔
    ∃! t, t ∈ s.tasks ∧ t.job = job ∧ t.generation = s.generation job ∧ t.WaitsUntil due
  /-- No task of an earlier generation sleeps. -/
  sleepers : ∀ t ∈ s.tasks, t.sleeps = true → t.generation = s.generation t.job
  /-- Work begins only in the task that its alarm waits for, and not before its time. -/
  begins : ∀ e, (s.react e).starts = s.starts ∨
    ∃ t ∈ s.tasks, ∃ due, due ≤ s.now ∧ t.generation = s.generation t.job ∧ t.WaitsUntil due ∧
      (s.alarm t.job).due? = some due ∧
      (s.react e).starts = s.starts ++ [⟨t.run, t.job, t.arming, due, s.now⟩]
  /-- Work that has begun was for an arming of its alarm to a time that had come. -/
  onTime : ∀ b ∈ s.starts, s.armings[b.arming]? = some (b.job, b.due) ∧ b.due ≤ b.time
  /-- No arming has made work begin more than once. -/
  once : (s.starts.map Start.arming).Nodup
  /-- Nothing but its own end ends work that is in progress. -/
  unbroken : ∀ e, ∀ t ∈ s.tasks, t.phase = .acting → (∀ next, e ≠ .finish t.run next) →
    t ∈ (s.react e).tasks
  /-- The register holds the tasks of the current generation that wait. -/
  waiting : ∀ run job due, ⟨run, job, .asleep due⟩ ∈ s.timers.live ↔
    ∃ t ∈ s.tasks, t.run = run ∧ t.job = job ∧ t.generation = s.generation job ∧ t.WaitsUntil due
  /-- Besides, the register holds the tasks that act, of any generation. -/
  working : ∀ run job, ⟨run, job, .acting⟩ ∈ s.timers.live ↔
    ∃ t ∈ s.tasks, t.run = run ∧ t.job = job ∧ t.phase = .acting

omit [DecidableEq J] in
theorem waiting_iff (h : s.Agrees) {run : Nat} {due : Instant} :
    s.alarm job = .waiting run due ↔ ∃ t ∈ s.tasks, t.run = run ∧ t.job = job ∧
      t.generation = s.generation job ∧ t.WaitsUntil due := by
  constructor
  · intro waiting
    obtain ⟨t, ht, is, current, memory⟩ := h.present job (by simp [waiting])
    obtain ⟨same, waits⟩ := Task.memory_eq_waiting_iff.1 (memory.symm.trans waiting)
    exact ⟨t, ht, same, is, current, waits⟩
  · rintro ⟨t, ht, same, rfl, current, waits⟩
    rw [h.remembers t ht current]
    exact Task.memory_eq_waiting_iff.2 ⟨same, waits⟩

theorem orderly (h : s.Agrees) (armed : s.Armed) : s.Orderly where
  set_iff job due := by
    rw [due?_eq_some_iff]
    constructor
    · rintro ⟨run, waiting⟩
      obtain ⟨t, ht, -, rfl, current, waits⟩ := (waiting_iff h).1 waiting
      refine ⟨t, ⟨ht, rfl, current, waits⟩, fun u ⟨hu, is, current', _⟩ => ?_⟩
      exact h.eq_of_current hu ht is (is ▸ current') current
    · rintro ⟨t, ⟨ht, is, current, waits⟩, -⟩
      exact ⟨t.run, (waiting_iff h).2 ⟨t, ht, rfl, is, current, waits⟩⟩
  sleepers := h.sleepers
  begins e := by
    rcases (move_react s e).starts h with same | ⟨t, ht, due, awake, waiting, begun⟩
    · exact .inl same
    · have current := (h.remembers_iff ht).1 (h.remembered_of_waiting ht waiting)
      exact .inr ⟨t, ht, due, armed.ripe t ht due awake, current, (h.waits_of_waiting ht waiting).2,
        due?_eq_some_iff.2 ⟨t.run, waiting⟩, begun⟩
  onTime := armed.begun
  once := armed.once
  unbroken e _ ht acting := acting_move h ht acting (move_react s e)
  waiting run job due := (h.kept.asleep run job due).trans (waiting_iff h)
  working := h.kept.atWork

end Runtime

end Alarm

end MulticastTunnel
