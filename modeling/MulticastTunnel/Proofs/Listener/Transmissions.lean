import MulticastTunnel.Proofs.Attempts
import MulticastTunnel.Proofs.Listener.Course

/-!
# Changes are reported as often as configured

A change of a group's filter is reported several times, with a fixed time in between. Further
changes may come at any time, before, between and after these reports: each begins the count anew,
and what it finds pending joins it. So it is the last change that counts. In this module sending
takes no time, which makes all times exact.

* `Course.Repeats` : how far the reports of a change have come.
* `Course.Repeats.step` : the course goes on.
* `Course.Bounded` : no change is reported more often than configured.
* `Timeline.attempts` : what happens in time, with a clock that ends.
* `Timeline.changes_reported` : **every change is reported as often as configured, and on time**, as
  long as nothing breaks off.
-/

namespace MulticastTunnel

/-- Sending takes no time. -/
def Pace.instant : Pace := fun _ _ => 0

namespace Course

variable {config : Config} {group : Address} {c : Course} {first now : Instant} {n : Nat}
variable {before : List (Instant × List Report)}

/-- There was a record to be sent, and no report that is sent is empty. Something is sent unless
there is no room for the headers of a report and a record (settings that have no problem leave more
room). -/
def HasContent (config : Config) (reports : List Report) : Prop :=
  (∃ records ≠ [], reports = (Report.mk records).splitToFit config.maxReportLength) ∧
    (∀ report ∈ reports, report.records ≠ []) ∧ (28 ≤ config.maxReportLength → reports ≠ [])

theorem HasContent.of_records {records : List Record} (some : records ≠ []) :
    HasContent config ((Report.mk records).splitToFit config.maxReportLength) :=
  ⟨⟨records, some, rfl⟩, fun _ sent => Report.records_ne_nil_of_mem_splitToFit sent,
    fun room => Report.splitToFit_ne_nil room some⟩

/-- Since the reports `before`, `n` reports with content have been sent, the first one at `first`
and the others after the configured time each. -/
def SentSince (config : Config) (first : Instant) (before : List (Instant × List Report)) (n : Nat)
    (sent : List (Instant × List Report)) : Prop :=
  ∃ new, sent = before ++ new ∧
    new.map Prod.fst = (List.range n).map (first + · * config.changeReportInterval) ∧
    ∀ t ∈ new, HasContent config t.2

theorem SentSince.concat {sent : List (Instant × List Report)} {records : List Record}
    (h : SentSince config first before n sent) (some : records ≠ []) :
    SentSince config first before (n + 1) (sent ++ [(first + n * config.changeReportInterval,
      (Report.mk records).splitToFit config.maxReportLength)]) := by
  obtain ⟨new, rfl, times, content⟩ := h
  refine ⟨_, List.append_assoc .., ?_, ?_⟩
  · rw [List.map_append, times, List.range_succ, List.map_append]
    rfl
  · intro t ht
    rcases List.mem_append.1 ht with ht | ht
    · exact content t ht
    · obtain rfl := List.mem_singleton.1 ht
      exact .of_records some

/-- Since there were the reports `before`, the change has been reported `n` times, as it should. It
is still to be reported as often as it was not, at the next of these times, or there is nothing left
to report. -/
structure Repeats (config : Config) (first : Instant) (before : List (Instant × List Report))
    (n : Nat) (c : Course) : Prop where
  sent : SentSince config first before n c.sent
  left : n = config.robustness.toNat ∧ c.change = none ∧ c.due = none ∨
    n < config.robustness.toNat ∧
      (∃ p, c.change = some p ∧ p.change.IsReal ∧
        p.transmissionsLeft = config.robustness.toNat - n) ∧
      (c.due = some (first + n * config.changeReportInterval) ∨ c.due = none ∧
        ∃ last, c.sendsUntil? .instant = some last ∧
          last + config.changeReportInterval = first + n * config.changeReportInterval)

/-- How often the course still goes on by itself. -/
def togo (c : Course) : Nat :=
  c.change.elim 0 fun p => 2 * p.transmissionsLeft + if c.due.isSome then 0 else 1

namespace Repeats

theorem le (h : c.Repeats config first before n) : n ≤ config.robustness.toNat := by
  rcases h.left with ⟨last, -⟩ | ⟨more, -⟩
  · exact Nat.le_of_eq last
  · exact Nat.le_of_lt more

theorem exists_next (h : c.Repeats config first before n) (more : n < config.robustness.toNat) :
    ∃ time ≤ first + n * config.changeReportInterval, c.next? .instant = some time := by
  rcases h.left with ⟨last, -⟩ | ⟨-, -, due | ⟨unset, last, sends, interval⟩⟩
  · exact absurd more (last ▸ Nat.lt_irrefl _)
  · exact ⟨_, Nat.le_refl _, next?_of_due due⟩
  · exact ⟨last, interval ▸ Nat.le_add_right _ _, next?_of_due_eq_none unset ▸ sends⟩

theorem begins (h : c.Repeats config first before n) (more : n < config.robustness.toNat)
    (due : c.due = some (first + n * config.changeReportInterval)) :
    (c.step config .instant group).Repeats config first before (n + 1) ∧
      (c.step config .instant group).togo < c.togo := by
  obtain ⟨p, pending, real, left⟩ : ∃ p, c.change = some p ∧ p.change.IsReal ∧
      p.transmissionsLeft = config.robustness.toNat - n := by
    rcases h.left with ⟨last, -⟩ | ⟨-, left, -⟩
    · exact absurd more (last ▸ Nat.lt_irrefl _)
    · exact left
  have records : c.records group = p.records group c.filter := by rw [Course.records, pending]; rfl
  have after : c.step config .instant group = { c with
      change := p.transmitted
      due := none
      sent := c.sent ++ [(first + n * config.changeReportInterval,
        (Report.mk (p.records group c.filter)).splitToFit config.maxReportLength)] } := by
    rw [Course.step, due, pending, records]
    rfl
  have sent := h.sent.concat (StateChange.records_ne_nil real group c.filter)
  rw [after]
  -- the last report leaves nothing behind, any other one waits until it has been sent
  by_cases final : n + 1 = config.robustness.toNat
  · have done : p.transmitted = none := if_pos (by omega)
    rw [done]
    refine ⟨⟨sent, .inl ⟨final, rfl, rfl⟩⟩, ?_⟩
    simp only [togo, pending, due, Option.elim_none, Option.elim_some]
    omega
  · have again : p.transmitted = some { p with transmissionsLeft := p.transmissionsLeft - 1 } :=
      if_neg (by omega)
    have sends : sendsUntil? .instant { c with
        change := some { p with transmissionsLeft := p.transmissionsLeft - 1 }
        due := none
        sent := c.sent ++ [(first + n * config.changeReportInterval,
          (Report.mk (p.records group c.filter)).splitToFit config.maxReportLength)] } =
        some (first + n * config.changeReportInterval) := by
      simp [sendsUntil?, Pace.instant]
    have interval : first + n * config.changeReportInterval + config.changeReportInterval =
        first + (n + 1) * config.changeReportInterval := by
      rw [Nat.succ_mul, Nat.add_assoc]
    rw [again]
    refine ⟨⟨sent, .inr ⟨Nat.lt_of_le_of_ne more final, ⟨_, rfl, real, ?_⟩,
      .inr ⟨rfl, _, sends, interval⟩⟩⟩, ?_⟩
    · show p.transmissionsLeft - 1 = _
      omega
    · simp only [togo, pending, due, Option.elim_some]
      simp only [Option.isSome_none, Option.isSome_some, Bool.false_eq_true, if_false, if_true]
      omega

/-- **The course goes on**: the next report begins, or it has been sent. -/
theorem step (h : c.Repeats config first before n) (group : Address) {time : Instant}
    (next : c.next? .instant = some time) :
    ∃ n', (c.step config .instant group).Repeats config first before n' ∧
      (c.step config .instant group).togo < c.togo := by
  rcases h.left with
    ⟨-, nothing, unset⟩ | ⟨more, ⟨p, pending, left⟩, due | ⟨unset, last, sends, interval⟩⟩
  · rw [next?_of_due_eq_none unset, sendsUntil?_of_change nothing] at next
    nomatch next
  · exact ⟨n + 1, h.begins more due⟩
  · have after : c.step config .instant group =
        { c with due := some (first + n * config.changeReportInterval) } := by
      rw [Course.step, unset, sends, ← interval]
      rfl
    rw [after]
    refine ⟨n, ⟨h.sent, .inr ⟨more, ⟨p, pending, left⟩, .inl rfl⟩⟩, ?_⟩
    simp [togo, pending, unset]

end Repeats

/-! ### Changes that are heard -/

theorem hear_call_of_filter {call : Listener.Call}
    (same : (c.hear config group now (.call call)).filter = c.filter) :
    c.hear config group now (.call call) = c := by
  simp only [hear, move] at same ⊢
  split at same
  · next permitted =>
    rw [if_pos permitted]
    split at same
    · next unchanged => rw [if_pos unchanged]
    · next differs => exact absurd same.symm differs
  · next refused => rw [if_neg refused]

/-- A call that changes the filter makes the change be reported, from the earliest time on at which
it was to be reported. -/
theorem hear_call_of_ne {call : Listener.Call}
    (differs : (c.hear config group now (.call call)).filter ≠ c.filter) :
    ∃ filter ≠ c.filter, c.hear config group now (.call call) =
      { c with
        filter
        change := some (.record c.change c.filter filter config.robustness.toNat)
        due := some (c.due.elim (now + config.changeReportDelay)
          (min · (now + config.changeReportDelay))) } := by
  simp only [hear, move] at differs ⊢
  split at differs
  · next permitted =>
    split at differs
    · exact absurd rfl differs
    · next changes =>
      rw [if_pos permitted, if_neg changes]
      exact ⟨_, Ne.symm changes, rfl⟩
  · exact absurd rfl differs

theorem repeats_of_call {call : Listener.Call} (robust : 1 ≤ config.robustness.toNat)
    (differs : (c.hear config group now (.call call)).filter ≠ c.filter) :
    ∃ first ≤ now + config.changeReportDelay,
      (c.hear config group now (.call call)).due = some first ∧
      (c.hear config group now (.call call)).Repeats config first c.sent 0 := by
  obtain ⟨filter, changes, heard⟩ := hear_call_of_ne differs
  have real := StateChange.isReal_fold (Ne.symm changes) (c.change.map PendingChange.change)
  rw [heard]
  refine ⟨_, Timeline.earlier_le c.due _, rfl, ⟨[], by simp, rfl, by simp⟩, .inr ⟨robust, ?_, ?_⟩⟩
  · exact ⟨_, rfl, real, rfl⟩
  · exact .inl (by simp)

/-! ### How often changes are reported at most -/

/-- After so many changes, what has been reported and what is still to be reported do not exceed
what is configured for them. -/
structure Bounded (config : Config) (changes : Nat) (c : Course) : Prop where
  due : c.due.isSome → c.change.isSome
  left : ∀ p, c.change = some p → 1 ≤ p.transmissionsLeft
  sent : c.sent.length + c.change.elim 0 PendingChange.transmissionsLeft ≤
    config.robustness.toNat * changes

namespace Bounded

variable {changes : Nat}

theorem step (h : c.Bounded config changes) (pace : Pace) :
    (c.step config pace group).Bounded config changes := by
  cases due : c.due with
  | some due' =>
    obtain ⟨p, pending⟩ := Option.isSome_iff_exists.1 (h.due (by rw [due]; rfl))
    have some := h.left p pending
    have sent := h.sent
    rw [pending, Option.elim_some] at sent
    rw [Course.step, due, pending]
    refine ⟨by simp, fun p' left => ?_, ?_⟩
    · have transmitted : p.transmitted = .some p' := left
      simp only [PendingChange.transmitted, Option.ite_none_left_eq_some, Option.some.injEq]
        at transmitted
      obtain ⟨more, rfl⟩ := transmitted
      exact Nat.one_le_iff_ne_zero.2 more
    · have less : p.transmitted.elim 0 PendingChange.transmissionsLeft + 1 ≤
          p.transmissionsLeft := by
        unfold PendingChange.transmitted
        split
        · exact some
        · exact Nat.le_of_eq (Nat.sub_add_cancel some)
      show (c.sent ++ [_]).length + p.transmitted.elim 0 PendingChange.transmissionsLeft ≤ _
      rw [List.length_append, List.length_singleton]
      omega
  | none =>
    rw [Course.step, due]
    refine ⟨fun set => ?_, h.left, h.sent⟩
    cases sends : c.sendsUntil? pace with
    | none => simp [sends] at set
    | some last => exact (sendsUntil?_eq_some sends).2

theorem hear_call (h : c.Bounded config changes) (robust : 1 ≤ config.robustness.toNat)
    (call : Listener.Call) : (c.hear config group now (.call call)).Bounded config
      (changes + if (c.hear config group now (.call call)).filter ≠ c.filter then 1 else 0) := by
  split
  · next differs =>
    obtain ⟨filter, -, heard⟩ := hear_call_of_ne differs
    have sent : c.sent.length ≤ config.robustness.toNat * changes :=
      Nat.le_trans (Nat.le_add_right _ _) h.sent
    rw [heard]
    refine ⟨by simp, ?_, ?_⟩
    · rintro p pending
      obtain rfl := Option.some.inj pending
      exact robust
    · rw [Nat.mul_succ]
      exact Nat.add_le_add_right sent _
  · next same =>
    rw [hear_call_of_filter (not_not.1 same)]
    exact h

theorem forget (h : c.Bounded config changes) (closed : Bool) (filter : SourceFilter) :
    Bounded config changes { c with closed, filter, change := none, due := none } :=
  ⟨by simp, by simp, Nat.le_trans (Nat.le_add_right _ _) h.sent⟩

end Bounded

end Course

namespace Timeline

variable {s : Timeline} {config : Config} {pace : Pace} {group : Address} {first : Instant}
variable {before : List (Instant × List Report)} {n : Nat}

/-! ### Without further changes -/

/-- Nothing is forgotten, and no call changes what is wanted of the group. -/
structure Steady (pace : Pace) (group : Address) (s : Timeline) (later : List Event) : Prop where
  notCanceled : .cancelPending ∉ later
  notShut : .shutdown ∉ later
  unchanged : ∀ front, front <+: later →
    (s.reactsAt pace group front).listener.interest group = s.listener.interest group

theorem Steady.nil : s.Steady pace group [] where
  notCanceled := List.not_mem_nil
  notShut := List.not_mem_nil
  unchanged front hfront := by rw [List.prefix_nil.1 hfront]; rfl

theorem filter_course : (s.course group).filter = s.listener.interest group := filter_outlook

namespace OnPace

theorem repeats_reactAt (h : s.OnPace config .instant group)
    (repeats : (s.course group).Repeats config first before n) {event : Event}
    (notForgotten : event ≠ .cancelPending ∧ event ≠ .shutdown)
    (same : (s.reactAt .instant group event).listener.interest group =
      s.listener.interest group) :
    ∃ n', ((s.reactAt .instant group event).course group).Repeats config first before n' := by
  by_cases permitted : s.Permits .instant group event
  · rw [Timeline.reactAt, if_pos permitted] at same ⊢
    rw [← filter_course, ← filter_course] at same
    rcases h.course_react permitted with ⟨word, heard, -, after⟩ | ⟨-, after | ⟨next, -, after⟩⟩
    · rw [after] at same ⊢
      cases word with
      | call c => exact ⟨n, (Course.hear_call_of_filter same).symm ▸ repeats⟩
      | cancelPending | shutdown =>
        cases event <;> simp [Event.word?] at heard notForgotten
    · exact ⟨n, after ▸ repeats⟩
    · obtain ⟨n', repeats', -⟩ := repeats.step group next
      exact ⟨n', after ▸ repeats'⟩
  · rw [Timeline.reactAt, if_neg permitted]
    exact ⟨n, repeats⟩

theorem repeats_reactsAt (h : s.OnPace config .instant group)
    (repeats : (s.course group).Repeats config first before n) {later : List Event}
    (steady : s.Steady .instant group later) :
    ∃ n', ((s.reactsAt .instant group later).course group).Repeats config first before n' := by
  induction later using List.reverseRecOn with
  | nil => exact ⟨n, repeats⟩
  | append_singleton later event ih =>
    obtain ⟨notCanceled, notShut, unchanged⟩ := steady
    simp only [List.mem_append, List.mem_singleton, not_or] at notCanceled notShut
    obtain ⟨n', repeats'⟩ := ih ⟨notCanceled.1, notShut.1,
      fun front hfront => unchanged front (hfront.trans (List.prefix_append _ _))⟩
    have whole := unchanged _ (List.prefix_refl _)
    have start := unchanged later (List.prefix_append _ _)
    rw [reactsAt_append] at whole ⊢
    exact (h.reactsAt later).repeats_reactAt repeats' ⟨Ne.symm notCanceled.2, Ne.symm notShut.2⟩
      (whole.trans start.symm)

/-- However things stand, time can pass and runs can wake up until the change has been reported as
often as it should. The last report does not come later than it should, either. -/
theorem exists_repeated (h : s.OnPace config .instant group)
    (repeats : (s.course group).Repeats config first before n) :
    ∃ more, (∀ e ∈ more, e.IsOwn) ∧
      ((s.reactsAt .instant group more).course group).Repeats config first before
        config.robustness.toNat ∧
      (more = [] ∨ (s.reactsAt .instant group more).now + config.changeReportInterval ≤
        first + config.robustness.toNat * config.changeReportInterval) := by
  -- each step of the course leaves less of it
  induction hm : (s.course group).togo using Nat.strongRecOn generalizing s n with
  | ind m ih =>
    by_cases last : n = config.robustness.toNat
    · exact ⟨[], by simp, last ▸ repeats, .inl rfl⟩
    · have left : n < config.robustness.toNat := Nat.lt_of_le_of_ne repeats.le last
      obtain ⟨time, early, next⟩ := repeats.exists_next left
      obtain ⟨more, own, now, after⟩ := h.exists_step next
      obtain ⟨n', repeats', fewer⟩ := repeats.step group next
      rw [← after] at repeats' fewer
      obtain ⟨more', own', done, late⟩ := ih _ (hm ▸ fewer) (h.reactsAt more) repeats' rfl
      refine ⟨more ++ more', ?_, ?_, .inr ?_⟩
      · intro e he
        rcases List.mem_append.1 he with he | he
        · exact own e he
        · exact own' e he
      · rw [reactsAt_append]
        exact done
      · rw [reactsAt_append]
        rcases late with rfl | late
        · show (s.reactsAt .instant group more).now + _ ≤ _
          calc (s.reactsAt .instant group more).now + config.changeReportInterval
              = time + config.changeReportInterval := by rw [now]
            _ ≤ first + n * config.changeReportInterval + config.changeReportInterval :=
              Nat.add_le_add_right early _
            _ = first + (n + 1) * config.changeReportInterval := by
              rw [Nat.succ_mul, Nat.add_assoc]
            _ ≤ first + config.robustness.toNat * config.changeReportInterval :=
              Nat.add_le_add_left (Nat.mul_le_mul_right _ left) _
        · exact late

end OnPace

/-! ### How often changes are reported at most -/

/-- The event is a call that changes what is wanted of the group. -/
def Changes (s : Timeline) (group : Address) : Event → Prop
  | .call other c =>
    (s.react (.call other c)).listener.interest group ≠ s.listener.interest group
  | _ => False

instance (event : Event) : Decidable (s.Changes group event) :=
  match event with
  | .call _ _ => inferInstanceAs (Decidable (_ ≠ _))
  | .pass _ | .query .. | .cancelPending | .shutdown | .begin .. | .finish _ =>
    inferInstanceAs (Decidable False)

/-- The number of calls that change what is wanted of a group. -/
def changes (pace : Pace) (group : Address) : Timeline → List Event → Nat
  | _, [] => 0
  | s, event :: later =>
    (if s.Changes group event then 1 else 0) + changes pace group (s.reactAt pace group event) later

theorem Changes.filter_ne {event : Event} (h : s.Changes group event) :
    ((s.react event).course group).filter ≠ (s.course group).filter := by
  cases event with
  | call other c =>
    rw [filter_course, filter_course]
    exact h
  | _ => exact h.elim

namespace OnPace

theorem bounded_reactAt (h : s.OnPace config pace group) (robust : 1 ≤ config.robustness.toNat)
    (bounded : (s.course group).Bounded config n) (event : Event) :
    ((s.reactAt pace group event).course group).Bounded config
      (n + if s.Changes group event then 1 else 0) := by
  have unchanged (same : ((s.react event).course group).filter = (s.course group).filter) :
      (n + if s.Changes group event then 1 else 0) = n := by
    rw [if_neg fun changes => changes.filter_ne same, Nat.add_zero]
  by_cases permitted : s.Permits pace group event
  · rw [Timeline.reactAt, if_pos permitted]
    rcases h.course_react permitted with ⟨word, heard, -, after⟩ | ⟨-, after | ⟨next, -, after⟩⟩
    · cases event with
      | call other c =>
        obtain ⟨rfl, rfl⟩ : other = group ∧ word = .call c := by
          simpa [Event.word?, eq_comm] using heard
        have changes : s.Changes other (.call other c) ↔
            ((s.course other).hear config other s.now (.call c)).filter ≠
              (s.course other).filter := by
          rw [← after, filter_course, filter_course]
          rfl
        rw [after]
        simp only [changes]
        exact bounded.hear_call robust c
      | cancelPending =>
        obtain rfl := Option.some.inj heard
        rw [after]
        exact bounded.forget _ _
      | shutdown =>
        obtain rfl := Option.some.inj heard
        rw [after]
        exact bounded.forget _ _
      | _ => simp [Event.word?] at heard
    -- the course is not concerned
    · rw [unchanged (by rw [after]), after]
      exact bounded
    -- a report that begins is one of those that were still to come
    · rw [unchanged (by rw [after, Course.filter_step]), after]
      exact bounded.step pace
  · have none : ¬ s.Changes group event := by
      intro changes
      cases event with
      | call other c => exact permitted trivial
      | _ => exact changes
    rw [Timeline.reactAt, if_neg permitted, if_neg none]
    exact bounded

theorem bounded_reactsAt (h : s.OnPace config pace group) (robust : 1 ≤ config.robustness.toNat)
    (bounded : (s.course group).Bounded config n) (events : List Event) :
    ((s.reactsAt pace group events).course group).Bounded config
      (n + changes pace group s events) := by
  induction events generalizing s n with
  | nil => exact bounded
  | cons event later ih =>
    rw [changes, ← Nat.add_assoc]
    exact ih (h.reactAt event) (h.bounded_reactAt robust bounded event)

end OnPace

/-! ### A clock that ends -/

/-- What the listener is told of an event. -/
def Event.told? (now : Instant) : Event → Option Listener.Event
  | .pass _ => none
  | .call group c => some (.call now group c)
  | .query random q => some (.query now random q)
  | .cancelPending => some .cancelPending
  | .shutdown => some .shutdown
  | .begin run job => some (.begin run job)
  | .finish f => some (.finish f now)

/-- What an event leaves behind if it breaks off where it is to set an alarm. -/
def brokenOff (pace : Pace) (group : Address) (s : Timeline) (event : Event) : Timeline :=
  let after := s.reactAt pace group event
  match event.told? s.now with
  | some told =>
    { after with
      reporting := { after.reporting with listener := s.listener.leftBy told } }
  | none => after

/-- What comes of anything that keeps the pace, with a clock that ends at `last`. -/
def attempts (pace : Pace) (group : Address) (last : Instant) : Attempts Timeline Event where
  result := reactAt pace group
  fits s := s.listener.timers.fits last
  left := brokenOff pace group

namespace OnPace

variable {last : Instant}

theorem attempt_call (h : s.OnPace config pace group) (fits : s.listener.timers.fits last)
    (c : Listener.Call) (inTime : s.now + config.changeReportDelay ≤ last) :
    (attempts pace group last).one s (.call group c) =
      .ok (s.reactAt pace group (.call group c)) := by
  refine Attempts.one_of_fits (Timers.fits_iff.2 ?_)
  show (s.reactAt pace group (.call group c)).listener.timers.DueIn (· ≤ last)
  have permitted : s.Permits pace group (.call group c) := trivial
  rw [Timeline.reactAt, if_pos permitted]
  refine h.timely.upkeep.dueIn_react (Timers.fits_iff.1 fits) fun due set => ?_
  obtain rfl := Option.some.inj set
  have settings : s.reporting.listener.config = config := h.settings
  rwa [settings]

/-- What happens without anything from outside does not break off, if the clock can show the time to
which the alarm of a change is set again. -/
theorem fits_reactAt_own (h : s.OnPace config pace group) (fits : s.listener.timers.fits last)
    {event : Event} (own : event.IsOwn) (inTime : s.now + config.changeReportInterval ≤ last) :
    (s.reactAt pace group event).listener.timers.fits last := by
  rw [Timeline.reactAt]
  split
  · cases event with
    | pass time =>
      rw [Timeline.react]
      split <;> exact fits
    | begin run job =>
      rw [Timeline.react]
      split
      · exact Timers.fits_iff.2
          (h.timely.upkeep.dueIn_react (Timers.fits_iff.1 fits) (by simp [Listener.sets?]))
      · exact fits
    | finish f =>
      show (s.reporting.react (.finish f s.now)).listener.timers.fits last
      by_cases sent : f ∈ s.reporting.firings
      · refine Timers.fits_iff.2 (h.timely.upkeep.dueIn_react (Timers.fits_iff.1 fits) ?_)
        intro due set
        obtain ⟨delay, next, rfl⟩ := Option.map_eq_some_iff.1 set
        rwa [h.interval f sent delay next]
      · rw [Reporting.react, if_neg sent]
        exact fits
    | _ => exact own.elim
  · exact fits

theorem attempts_own (h : s.OnPace config pace group) (fits : s.listener.timers.fits last)
    {more : List Event} (own : ∀ e ∈ more, e.IsOwn)
    (inTime : more = [] ∨ (s.reactsAt pace group more).now + config.changeReportInterval ≤ last) :
    (attempts pace group last).all s more = .ok (s.reactsAt pace group more) := by
  induction more generalizing s with
  | nil => rfl
  | cons event more ih =>
    obtain ⟨first, rest⟩ := List.forall_mem_cons.1 own
    have late := inTime.resolve_left (List.cons_ne_nil _ _)
    have passed : s.now ≤ (s.reactsAt pace group (event :: more)).now := s.now_le_reactsAt ..
    have fits' := h.fits_reactAt_own fits first
      (Nat.le_trans (Nat.add_le_add_right passed _) late)
    exact Attempts.all_cons_eq_ok_iff.2 ⟨fits', ih (h.reactAt event) fits' rest (.inr late)⟩

end OnPace

/-! ### All changes -/

theorem Timely.react_call_of_eq (h : s.Timely) {c : Listener.Call}
    (same : (s.react (.call group c)).listener.interest group = s.listener.interest group) :
    s.react (.call group c) = s := by
  have unchanged : (s.listener.call s.now group c).toOption.getD s.listener = s.listener :=
    h.upkeep.listener.call_of_interest same
  show { s with reporting := { s.reporting with
    listener := (s.listener.call s.now group c).toOption.getD s.listener } } = s
  rw [unchanged]
  rfl

theorem OnPace.left_of_repeats (h : s.OnPace config .instant group)
    (repeats : (s.course group).Repeats config first before n) :
    (n < config.robustness.toNat → s.now ≤ first + n * config.changeReportInterval) ∧
    (n = config.robustness.toNat → (s.outlook group).change = none ∧
      ((s.outlook group).filter.isEmpty = true → (s.outlook group).asked = none →
        s.listener.groups.get? group = none)) := by
  refine ⟨fun more => ?_, fun last => ?_⟩
  · obtain ⟨time, early, next⟩ := repeats.exists_next more
    exact Nat.le_trans (h.now_le_next next) early
  · have nothing : (s.outlook group).change = none := by
      rcases repeats.left with ⟨-, nothing, -⟩ | ⟨more, -⟩
      · exact nothing
      · exact absurd more (last ▸ Nat.lt_irrefl _)
    refine ⟨nothing, fun empty answered => ?_⟩
    cases known : s.listener.groups.get? group with
    | none => rfl
    | some g =>
      have state : s.outlook group = g.outlook := Listener.outlook_of_get? known
      have keep := h.timely.upkeep.listener.tidy.kept_of_get? known
      rw [state] at nothing empty answered
      have evictable : g.isEvictable = true := by
        have empty' : g.filter.isEmpty = true := empty
        have answered' : g.asked = none := answered
        have nothing' : g.change = none := nothing
        simp [GroupState.isEvictable, empty', answered', nothing']
      exact Bool.noConfusion (keep.symm.trans evictable)

/-- **Every change is reported as often as configured, and on time**, as long as nothing breaks off.
Sending takes no time, and at any time of any run a call is made for the group. If it does not
change what is wanted of the group, it changes nothing. Otherwise, as long as nothing is forgotten
and no other call changes what is wanted, the change is reported first after the configured delay,
or earlier, and then again after the configured time each, always with content, until it has been
reported as often as configured; however things stand, time can pass until it has been. Then nothing
of the change is left, and if nothing is wanted of the group and no query waits, there is no record
of it.

The call does not break off if the clock can show when the change is first to be reported, nor do
the reports if it can show when they are due.

Over the whole run, also if changes are forgotten, no more reports are sent than configured for each
call that changes what is wanted. -/
theorem changes_reported (config : Config) (robust : 1 ≤ config.robustness.toNat) (group : Address)
    {last : Instant} {events : List Event}
    (reached : (attempts .instant group last).all (start config) events = .ok s) :
    let times := config.robustness.toNat
    (∀ c : Listener.Call,
      let s' := s.reactAt .instant group (.call group c)
      (s'.listener.interest group = s.listener.interest group →
        s' = s ∧ (attempts .instant group last).one s (.call group c) = .ok s) ∧
      (s.now + config.changeReportDelay ≤ last →
        (attempts .instant group last).one s (.call group c) = .ok s') ∧
      (s'.listener.interest group ≠ s.listener.interest group →
        (attempts .instant group last).one s (.call group c) = .ok s' →
        ∃ first, s'.now ≤ first ∧ first ≤ s'.now + config.changeReportDelay ∧
        ∀ later after, s'.Steady .instant group later →
          (attempts .instant group last).all s' later = .ok after →
          ∃ n ≤ times,
            Course.SentSince config first (s.course group).sent n (after.course group).sent ∧
            (n < times → after.now ≤ first + n * config.changeReportInterval) ∧
            (n = times → (after.outlook group).change = none ∧
              ((after.outlook group).filter.isEmpty = true → (after.outlook group).asked = none →
                after.listener.groups.get? group = none)) ∧
            (first + times * config.changeReportInterval ≤ last →
              ∃ more reported, (∀ e ∈ more, e.IsOwn) ∧
                (attempts .instant group last).all after more = .ok reported ∧
                Course.SentSince config first (s.course group).sent times
                  (reported.course group).sent))) ∧
    (s.course group).sent.length ≤ times * changes .instant group (start config) events := by
  intro times
  have fits : s.listener.timers.fits last := Attempts.fits_of_all reached rfl
  obtain rfl : runAt .instant group config events = s := Attempts.foldl_of_all reached
  generalize hs : runAt .instant group config events = s at fits
  have onPace : s.OnPace config .instant group := hs ▸ .runAt config .instant group events
  refine ⟨fun c => ⟨fun same => ?_, onPace.attempt_call fits c, fun differs called => ?_⟩, ?_⟩
  -- a call that changes nothing
  · have unchanged : s.reactAt .instant group (.call group c) = s :=
      onPace.timely.react_call_of_eq same
    refine ⟨unchanged, Attempts.one_eq_ok_iff.2 ⟨?_, unchanged⟩⟩
    show (s.reactAt .instant group (.call group c)).listener.timers.fits last
    rwa [unchanged]
  -- a call that changes what is wanted begins the reports, and every step goes on with them
  · have fits' : (s.reactAt .instant group (.call group c)).listener.timers.fits last :=
      (Attempts.one_eq_ok_iff.1 called).1
    have onPace' := onPace.reactAt (.call group c)
    have heard : (s.reactAt .instant group (.call group c)).course group =
        (s.course group).hear config group s.now (.call c) := onPace.course_call c
    have now : (s.reactAt .instant group (.call group c)).now = s.now := rfl
    generalize s.reactAt .instant group (.call group c) = s' at *
    rw [← filter_course, ← filter_course, heard] at differs
    obtain ⟨first, soon, due, repeats⟩ := Course.repeats_of_call robust differs
    rw [← heard] at due repeats
    have late := onPace'.now_le_next (Course.next?_of_due due)
    refine ⟨first, late, now ▸ soon, fun later after steady went => ?_⟩
    have fits'' : after.listener.timers.fits last := Attempts.fits_of_all went fits'
    obtain rfl : s'.reactsAt .instant group later = after := Attempts.foldl_of_all went
    obtain ⟨n, repeats'⟩ := onPace'.repeats_reactsAt repeats steady
    have onPace'' := onPace'.reactsAt later
    obtain ⟨early, done⟩ := onPace''.left_of_repeats repeats'
    refine ⟨n, repeats'.le, repeats'.sent, early, done, fun inTime => ?_⟩
    obtain ⟨more, own, reported, final⟩ := onPace''.exists_repeated repeats'
    exact ⟨more, _, own, onPace''.attempts_own fits'' own
      (final.imp_right fun final => Nat.le_trans final inTime), reported.sent⟩
  · have fresh : ((start config).course group).Bounded config 0 := by
      rw [course_start]
      exact ⟨nofun, nofun, Nat.le_refl _⟩
    have start : (start config).OnPace config .instant group := .start
    have bounded := start.bounded_reactsAt robust fresh events
    rw [Nat.zero_add] at bounded
    exact hs ▸ Nat.le_trans (Nat.le_add_right _ _) bounded.sent

/-- A group is joined, and left between the two reports of this. The second report is due in more
than half a second then, but the new change is not to wait so long, and begins the count anew. -/
theorem changes_reported_joinedAndLeft :
    let group := Address.ofOctets 239 1 1 1
    let joined := [Report.mk [⟨.toExclude, group, []⟩]]
    let events : List Event :=
      [.call group (.join .allSources), .pass (.ofMillis 50), .begin 0 (.change group),
        .finish ⟨0, .change group, joined, some (.ofSeconds 1)⟩, .pass (.ofMillis 450)]
    let s := runAt .instant group Config.quick events
    let left := s.reactAt .instant group (.call group .leave)
    (attempts .instant group .last).all (start Config.quick) events = .ok s ∧
    (attempts .instant group .last).one s (.call group .leave) = .ok left ∧
    (s.course group).sent = [(Duration.ofMillis 50, joined)] ∧
    ∃ first, Duration.ofMillis 500 ≤ first ∧ first ≤ Duration.ofMillis 550 ∧
      ∃ more reported, (attempts .instant group .last).all left more = .ok reported ∧
        Course.SentSince Config.quick first (s.course group).sent 2
          (reported.course group).sent := by
  intro group joined events s left
  have reached : (attempts .instant group .last).all (start Config.quick) events = .ok s := by
    decide +kernel
  have now : left.now = Duration.ofMillis 500 := by decide
  obtain ⟨calls, -⟩ := changes_reported Config.quick (by decide) group reached
  obtain ⟨-, called, reported⟩ := calls .leave
  have success : (attempts .instant group .last).one s (.call group .leave) = .ok left :=
    called (by decide +kernel)
  obtain ⟨first, late, soon, reported⟩ := reported (by decide) success
  have latest : left.now + Config.quick.changeReportDelay = Duration.ofMillis 550 := by decide
  obtain ⟨n, -, -, -, -, goesOn⟩ := reported [] left .nil rfl
  have inTime : first + 2 * Config.quick.changeReportInterval ≤ .last := by
    refine Nat.le_trans (Nat.add_le_add_right soon _) ?_
    rw [latest]
    decide
  obtain ⟨more, after, -, went, sent⟩ := goesOn inTime
  exact ⟨reached, success, by decide, first, now ▸ late, latest ▸ soon, more, after, went, sent⟩

/-- With the longest time between two reports, a change is reported only once: when the first report
has been sent, the alarm can not be set again, and no run is left that would ever wake up. -/
theorem change_reported_once :
    let config := { Config.quick with changeReportInterval := .longest }
    let group := Address.ofOctets 239 1 1 1
    let joined := [Report.mk [⟨.toExclude, group, []⟩]]
    let events : List Event :=
      [.call group (.join .allSources), .pass (.ofMillis 50), .begin 0 (.change group)]
    config.problem = none ∧ config.robustness = 2 ∧
      ∃ s, (attempts .instant group .last).all (start config) events = .ok s ∧
      ∃ left, (attempts .instant group .last).one s
          (.finish ⟨0, .change group, joined, some .longest⟩) = .error left ∧
        (left.course group).change.isSome ∧ (left.course group).sent.length = 1 ∧
        left.listener.timers.sleeping = 0 ∧ left.reporting.firings = [] := by
  intro config group joined events
  let s := runAt .instant group config events
  let ends : Event := .finish ⟨0, .change group, joined, some .longest⟩
  have late : (attempts .instant group .last).fits
      ((attempts .instant group .last).result s ends) = false := by
    decide +kernel
  exact ⟨by decide, by decide, s, by decide +kernel, _, Attempts.one_of_not_fits late,
    by decide +kernel, by decide +kernel, by decide +kernel, by decide +kernel⟩

end Timeline

end MulticastTunnel
