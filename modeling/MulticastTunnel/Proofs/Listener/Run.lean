import MulticastTunnel.Proofs.Listener.Standing

/-!
# Events of a listener

Everything that can happen to a listener, as one type of events: calls of the host, queries, the
end of the tunnel, and the wake-ups and ends of its runs. `Listener.react` is the listener after an
event, with the reports that were handed out.

* `Listener.react_continues` : no event but the shutdown touches the settings or opens or closes
  the listener, and the records stay in order.
* `Listener.call_cases` : **a call succeeds exactly if it is permitted, and then the group gets the
  filter that the call asks for**.
* `Listener.interest_react` : no event but a call or the shutdown changes what is wanted.
-/

namespace MulticastTunnel

namespace Listener

/-! ### Events -/

/-- What the host can ask for a group. -/
inductive Call where
  | join (filter : SourceFilter)
  | leave
  | update (filter : SourceFilter)
  deriving DecidableEq

/-- The filter that a call has to be permitted. -/
def Call.filter : Call → SourceFilter
  | join filter => filter
  | leave => .noInterest
  | update filter => filter

/-- The filter of a group after a call, by the one before. -/
def Call.outcome (old : SourceFilter) : Call → SourceFilter
  | join filter => old.union filter
  | leave => .noInterest
  | update filter => filter

/-- A call of the host. -/
def call (l : Listener) (now : Instant) (group : Address) : Call → Except GatewayError Listener
  | .join filter => l.join now group filter
  | .leave => l.leave now group
  | .update filter => l.update now group filter

/-- What can happen to a listener. -/
inductive Event where
  | call (now : Instant) (group : Address) (call : Call)
  | query (now : Instant) (random : Nat) (query : Query)
  | cancelPending
  | shutdown
  /-- A run wakes up. -/
  | begin (run : Nat) (job : ReportJob)
  /-- A run has sent its reports. -/
  | finish (firing : Firing) (now : Instant)
  deriving DecidableEq

/-- The listener after an event, and the reports handed out. A call that is refused changes
nothing. -/
def react (l : Listener) : Event → Listener × List Report
  | .call now group call => ((l.call now group call).toOption.getD l, [])
  | .query now random query => (l.query now random query, [])
  | .cancelPending => (l.cancelPending, [])
  | .shutdown => (l.shutdown, [])
  | .begin run job => ((l.begin run job).1, handedOut (l.begin run job).2)
  | .finish firing now => (l.finish firing now, [])

/-! ### What lasts -/

/-- What lasts through the operations of a listener. -/
structure Continues (l l' : Listener) : Prop where
  config : l'.config = l.config
  closed : l'.closed = l.closed
  ordered : Groups.Ordered l.groups → Groups.Ordered l'.groups

namespace Continues

variable {l l' l'' : Listener} {g : GroupState} {group : Address}

@[refl] theorem refl (l : Listener) : l.Continues l := ⟨rfl, rfl, id⟩

theorem trans (h : l.Continues l') (h' : l'.Continues l'') : l.Continues l'' :=
  ⟨h'.config.trans h.config, h'.closed.trans h.closed, h'.ordered ∘ h.ordered⟩

theorem timers (timers : Timers ReportJob) : l.Continues { l with timers } := ⟨rfl, rfl, id⟩

theorem put : l.Continues (l.put g) := ⟨rfl, rfl, Groups.Ordered.put⟩

theorem keepOrDrop : l.Continues (l.keepOrDrop g) := by
  unfold Listener.keepOrDrop
  split_ifs
  · exact ⟨rfl, rfl, Groups.Ordered.erase⟩
  · exact put

theorem putAlarm (job : ReportJob) (alarm : Alarm) : l.Continues (l.putAlarm job alarm) := by
  unfold Listener.putAlarm
  split
  · exact ⟨rfl, rfl, id⟩
  all_goals
    split
    · exact put
    · rfl

theorem apply (now : Instant) (filter : SourceFilter) : l.Continues (l.apply now group filter) := by
  unfold Listener.apply
  dsimp only
  split
  · exact keepOrDrop
  · exact (timers _).trans put

theorem query (now : Instant) (random : Nat) (q : Query) : l.Continues (l.query now random q) := by
  unfold Listener.query
  split
  · rfl
  · dsimp only
    split
    · unfold generalQuery
      split
      · rfl
      · exact ⟨rfl, rfl, id⟩
    · unfold groupQuery
      split
      · rfl
      · split
        · rfl
        · split
          · exact put
          · split
            · rfl
            · exact (timers _).trans put

theorem groupResponse : l.Continues (l.groupResponse group).1 := by
  unfold Listener.groupResponse
  split
  · rfl
  · split
    · rfl
    · exact keepOrDrop

theorem changeReport : l.Continues (l.changeReport group).1 := by
  unfold Listener.changeReport
  split
  · rfl
  · split
    · rfl
    · dsimp only
      split
      · exact put
      · exact keepOrDrop

theorem report (job : ReportJob) : l.Continues (l.report job).1 := by
  unfold Listener.report
  split
  · rfl
  · split
    · rfl
    · exact groupResponse
    · exact changeReport

theorem begin (run : Nat) (job : ReportJob) : l.Continues (l.begin run job).1 := by
  unfold Listener.begin
  split
  · exact timers _
  · exact ((timers _).trans (putAlarm _ _)).trans (report _)

theorem finish (f : Firing) (now : Instant) : l.Continues (l.finish f now) := by
  unfold Listener.finish
  split
  · exact timers _
  · exact (timers _).trans (putAlarm _ _)

theorem cancelPending : l.Continues l.cancelPending :=
  ⟨rfl, rfl, fun ordered => ordered_forgetAll ordered _⟩

end Continues

variable {l : Listener} {group other : Address}

/-! ### Calls -/

theorem permit_eq_ok_iff {filter : SourceFilter} :
    l.permit group filter = .ok () ↔ filter.problemFor group = none ∧ l.closed = false := by
  unfold permit
  split
  · next h => simp [h]
  · next h => cases hclosed : l.closed <;> simp [h]

/-- The new listener after a call that succeeds. -/
def Called (l : Listener) (group : Address) (c : Call) (l' : Listener) : Prop :=
  l.Continues l' ∧ ∀ other, l'.standing other =
    if group = other then
      (l.standing group).move l.config.robustness.toNat (c.outcome (l.interest group))
    else l.standing other

theorem called_apply {c : Call} {filter : SourceFilter} (h : filter = c.outcome (l.interest group))
    (now : Instant) : l.Called group c (l.apply now group filter) :=
  ⟨.apply now filter, fun other => by rw [standing_apply, h]⟩

theorem called_self {c : Call} (h : l.interest group = c.outcome (l.interest group)) :
    l.Called group c l := by
  refine ⟨.refl l, fun other => ?_⟩
  rw [Standing.move_of_eq (filter_standing.trans h)]
  split_ifs with same
  · rw [same]
  · rfl

theorem Called.interest {c : Call} {l' : Listener} (h : l.Called group c l') (other : Address) :
    l'.interest other =
      if group = other then c.outcome (l.interest group) else l.interest other := by
  rw [← filter_standing, h.2]
  split_ifs
  · exact Standing.filter_move _ _ _
  · exact filter_standing

/-- **A call succeeds exactly if it is permitted**, and then the group gets the filter that the
call asks for. -/
theorem call_cases (l : Listener) (now : Instant) (group : Address) (c : Call) :
    (l.permit group c.filter = .ok () ∧ ∃ l', l.call now group c = .ok l' ∧ l.Called group c l') ∨
    ∃ e, l.permit group c.filter = .error e ∧ l.call now group c = .error e := by
  cases permitted : l.permit group c.filter with
  | error e =>
    refine .inr ⟨e, rfl, ?_⟩
    cases c <;> simp only [Call.filter] at permitted <;>
      simp [call, join, leave, update, permitted, bind, Except.bind]
  | ok u =>
    refine .inl ⟨rfl, ?_⟩
    cases c with
    | join filter =>
      simp only [Call.filter] at permitted
      refine ⟨_, by simp [call, join, permitted, bind, Except.bind, pure, Except.pure]; rfl, ?_⟩
      refine called_apply ?_ now
      cases h : l.filter? group <;> simp [interest, h, Call.outcome]
    | leave =>
      simp only [Call.filter] at permitted
      simp only [call, leave, permitted, bind, Except.bind, pure, Except.pure]
      cases h : l.filter? group with
      | none => exact ⟨l, by simp, called_self (by simp [interest, h, Call.outcome])⟩
      | some old => exact ⟨_, by simp; rfl, called_apply rfl now⟩
    | update filter =>
      simp only [Call.filter] at permitted
      simp only [call, update, permitted, bind, Except.bind, pure, Except.pure]
      split
      · next unchanged =>
        simp only [Bool.and_eq_true, SourceFilter.isEmpty_iff, Option.isNone_iff_eq_none]
          at unchanged
        exact ⟨l, rfl, called_self (by simp [interest, unchanged.1, unchanged.2, Call.outcome])⟩
      · exact ⟨_, rfl, called_apply rfl now⟩

/-! ### All events -/

theorem react_continues {event : Event} (h : event ≠ .shutdown) :
    l.Continues (l.react event).1 := by
  cases event with
  | call now group c =>
    rcases call_cases l now group c with ⟨-, l', success, called⟩ | ⟨e, -, failure⟩
    · simpa [react, success, Except.toOption] using called.1
    · simp [react, failure, Except.toOption, Continues.refl]
  | query now random query => exact .query now random query
  | cancelPending => exact .cancelPending
  | shutdown => exact absurd rfl h
  | begin run job => exact .begin run job
  | finish firing now => exact .finish firing now

/-- The event is neither a call of the host nor the end. -/
def Event.IsInternal : Event → Prop
  | .call .. | .shutdown => False
  | _ => True

theorem interest_begin (run : Nat) (job : ReportJob) :
    (l.begin run job).1.interest = l.interest := by
  funext group
  rw [← filter_standing, ← filter_standing]
  by_cases hjob : job = .change group
  · subst hjob
    rcases begin_change l group run with ⟨same, -⟩ | ⟨moves, -⟩
    · rw [same]
    · rw [moves, if_pos rfl]
      rfl
  · rw [standing_begin_of_ne hjob]

theorem interest_react {event : Event} (internal : event.IsInternal)
    (ordered : Groups.Ordered l.groups) : (l.react event).1.interest = l.interest := by
  cases event with
  | call now group c => exact internal.elim
  | query now random query =>
    funext group
    rw [react, ← filter_standing, standing_query, filter_standing]
  | cancelPending =>
    funext group
    rw [react, ← filter_standing, standing_cancelPending ordered, ← filter_standing]
    rfl
  | shutdown => exact internal.elim
  | begin run job => exact interest_begin run job
  | finish firing now =>
    funext group
    rw [react, ← filter_standing, standing_finish, filter_standing]

end Listener

end MulticastTunnel
