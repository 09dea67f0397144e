import MulticastTunnel.Proofs.Session.Phases
import MulticastTunnel.Proofs.Tunnel.Parts

/-!
# The alarm of the session never gets lost

While a tunnel is running, its session has to hear from its alarm again: it is the alarm that
retransmits, refreshes the tunnel and gives up. The alarm is set by the end of its own work, by
whoever has made the session move on, and after socket errors; the end of work that was overtaken
by one of the others does not count. Whatever the order, the alarm is set in the end.

* `Tunnel.Attended` : the invariant of a tunnel and the work in progress.
* `Tunnel.Attended.perform` : every part keeps it.
* `BusyTunnel.alarm_set_or_at_work` : what it means for a running tunnel.
-/

namespace MulticastTunnel

namespace Tunnel

/-! ### The invariant -/

/-- The run that is at work as long as the part is pending. -/
def Part.run? : Part → Option Nat
  | consult run | rest run _ => some run
  | _ => none

/-- The part is a step towards the end of the tunnel. -/
def Part.Ends : Part → Prop
  | stop _ | stopAlarm .. | stopListener .. | settle _ => True
  | _ => False

/-- The runs that are at work. -/
def atWork (pending : List Part) : List Nat := pending.filterMap Part.run?

/-- The run is at work. -/
def Working (pending : List Part) (run : Nat) (_ : Unit) : Prop := run ∈ atWork pending

/-- The only alarm of the tunnel's own register. -/
def alarm (t : Tunnel) (_ : Unit) : Alarm := t.sessionAlarm

/-- The alarm of the session is minded: either it is set, or it will be, or the tunnel ends. -/
structure Attended (t : Tunnel) (pending : List Part) : Prop where
  kept : Alarm.Kept t.alarm (Working pending) t.sessionTimers
  distinct : (atWork pending).Nodup
  /-- A run that leaves the alarm unset has met a closed session. -/
  unset : ∀ run, .rest run none ∈ pending → t.session.phase = .closed
  /-- A running tunnel with a closed session, or without an alarm, is about to end. -/
  ending : t.status = .running → t.session.phase = .closed ∨ t.sessionAlarm = .idle →
    ∃ part ∈ pending, part.Ends

variable {t t' : Tunnel} {pending others next : List Part} {part : Part}

@[simp] theorem atWork_append : atWork (pending ++ others) = atWork pending ++ atWork others :=
  List.filterMap_append

theorem atWork_cons : atWork (part :: pending) = part.run?.toList ++ atWork pending := by
  cases h : part.run? <;> simp [atWork, h]

theorem Attended.cons (h : t.Attended pending) (opens : part.Opens) :
    t.Attended (part :: pending) := by
  have none : part.run? = none := by cases part <;> simp_all [Part.Opens, Part.run?]
  have same : atWork (part :: pending) = atWork pending := by simp [atWork_cons, none]
  have kept := h.kept
  unfold Working at kept
  rw [← same] at kept
  refine ⟨kept, same ▸ h.distinct, ?_, ?_⟩
  · intro run rests
    rcases List.mem_cons.1 rests with rfl | rests
    · simp [Part.run?] at none
    · exact h.unset run rests
  · intro running atEnd
    obtain ⟨part, hpart, isEnd⟩ := h.ending running atEnd
    exact ⟨part, List.mem_cons_of_mem _ hpart, isEnd⟩

/-! ### Parts that leave the alarm alone -/

/-- Alarm, register and status are what they were, and a closed session stays closed. -/
structure Undisturbed (t t' : Tunnel) : Prop where
  alarm : t'.sessionAlarm = t.sessionAlarm
  timers : t'.sessionTimers = t.sessionTimers
  status : t'.status = t.status
  closed : t.session.phase = .closed → t'.session.phase = .closed

/-- A part that leaves the alarm alone keeps it attended, if it leaves the end of the tunnel to
another part, and closes the session only for the tunnel to end. -/
theorem Attended.aside (h : t.Attended (part :: others)) (undisturbed : t.Undisturbed t')
    (runs : atWork next = part.run?.toList)
    (unset : ∀ run, .rest run none ∈ next → t'.session.phase = .closed)
    (heir : part.Ends → ∃ part' ∈ next, part'.Ends)
    (ends : t'.session.phase = .closed →
      t.session.phase = .closed ∨ ∃ part' ∈ next, part'.Ends) :
    t'.Attended (next ++ others) := by
  have same : atWork (next ++ others) = atWork (part :: others) := by
    rw [atWork_append, atWork_cons, runs]
  have kept : Alarm.Kept t'.alarm (Working (next ++ others)) t'.sessionTimers := by
    unfold alarm Working
    rw [same, undisturbed.alarm, undisturbed.timers]
    exact h.kept
  refine ⟨kept, same ▸ h.distinct, ?_, ?_⟩
  · intro run rests
    rcases List.mem_append.1 rests with rests | rests
    · exact unset run rests
    · exact undisturbed.closed (h.unset run (List.mem_cons_of_mem _ rests))
  · intro running atEnd
    -- either the end was pending before, or this part has brought it about
    have cause : (t.session.phase = .closed ∨ t.sessionAlarm = .idle) ∨
        ∃ part' ∈ next, part'.Ends := by
      rcases atEnd with closed | idle
      · exact (ends closed).imp_left .inl
      · exact .inl (.inr (undisturbed.alarm ▸ idle))
    rcases cause with before | ⟨part', hpart', isEnd⟩
    · obtain ⟨part', hpart', isEnd⟩ := h.ending (undisturbed.status ▸ running) before
      rcases List.mem_cons.1 hpart' with rfl | hpart'
      · obtain ⟨part', hpart', isEnd⟩ := heir isEnd
        exact ⟨part', List.mem_append_left _ hpart', isEnd⟩
      · exact ⟨part', List.mem_append_right _ hpart', isEnd⟩
    · exact ⟨part', List.mem_append_left _ hpart', isEnd⟩

theorem Attended.apart (h : t.Attended (part :: others)) (undisturbed : t.Undisturbed t')
    (closed : t'.session.phase = .closed → t.session.phase = .closed)
    (run : part.run? = none) (quiet : ¬ part.Ends) (runs : atWork next = []) :
    t'.Attended (next ++ others) := by
  refine h.aside undisturbed (by rw [runs, run]; rfl) (fun run rests => ?_)
    (fun isEnd => absurd isEnd quiet) fun now => .inl (closed now)
  have : run ∈ atWork next := List.mem_filterMap.2 ⟨_, rests, rfl⟩
  simp [runs] at this

theorem undisturbed_sendReport (t : Tunnel) (net : Transmit) (report : Report) :
    t.Undisturbed (t.sendReport net report).2 ∧
      (t.sendReport net report).2.session.phase = t.session.phase := by
  unfold sendReport
  split
  · exact ⟨⟨rfl, rfl, rfl, id⟩, rfl⟩
  · simp only [submit, transmit]
    cases net _ _ with
    | none => exact ⟨⟨rfl, rfl, rfl, id⟩, rfl⟩
    | some error => exact ⟨⟨rfl, rfl, rfl, id⟩, rfl⟩

theorem undisturbed_onData (t : Tunnel) (sender : Endpoint) (packet : Bytes) :
    t.Undisturbed (t.onData sender packet) ∧ (t.onData sender packet).session = t.session := by
  unfold onData
  split
  · split
    · exact ⟨⟨rfl, rfl, rfl, id⟩, rfl⟩
    · exact ⟨⟨rfl, rfl, rfl, id⟩, rfl⟩
  · exact ⟨⟨rfl, rfl, rfl, id⟩, rfl⟩

/-! ### Parts that concern the alarm -/

variable {now : Instant} {net : Transmit} {run : Nat}

theorem update_alarm (old : Unit → Alarm) (new : Alarm) :
    Function.update old () new = fun _ => new := by
  funext job
  simp

theorem Attended.ending_others (h : t.Attended (part :: others)) (quiet : ¬ part.Ends)
    (running : t.status = .running)
    (atEnd : t.session.phase = .closed ∨ t.sessionAlarm = .idle) :
    ∃ part' ∈ others, part'.Ends := by
  obtain ⟨part', hpart', isEnd⟩ := h.ending running atEnd
  rcases List.mem_cons.1 hpart' with rfl | hpart'
  · exact absurd isEnd quiet
  · exact ⟨part', hpart', isEnd⟩

theorem Attended.wake (h : t.Attended (.wake run :: others)) :
    (t.perform now net (.wake run)).1.Attended
      ((t.perform now net (.wake run)).2 ++ others) := by
  simp only [Tunnel.perform]
  split
  · next asleep =>
    obtain ⟨due, asleep⟩ := Timers.asleep_iff.1 asleep
    have set : t.alarm () = .waiting run due := (h.kept.asleep run () due).1 asleep
    have new : run ∉ atWork others := h.kept.not_working set ()
    have begun : ∀ r j, Working (.consult run :: others) r j ↔
        Working (.wake run :: others) r j ∨ (r = run ∧ j = ()) := by
      intro r j
      simp [Working, atWork_cons, Part.run?, or_comm]
    have kept := h.kept.wake set begun
    rw [update_alarm] at kept
    unfold alarm at set
    simp only [set, Alarm.wake, ↓reduceIte]
    refine ⟨kept, ?_, ?_, ?_⟩
    · exact List.nodup_cons.2 ⟨new, h.distinct⟩
    · intro run' rests
      exact h.unset run' (by simpa using rests)
    · intro running atEnd
      -- the alarm acts, so only a closed session can be the reason
      have closed : t.session.phase = .closed := by simpa using atEnd
      obtain ⟨part', hpart', isEnd⟩ := h.ending_others id running (.inl closed)
      exact ⟨part', List.mem_cons_of_mem _ hpart', isEnd⟩
  · exact h.apart ⟨rfl, rfl, rfl, id⟩ id rfl id rfl

theorem consulted_spec (t : Tunnel) (now : Instant) :
    (t.consulted now).sessionAlarm = t.sessionAlarm ∧
      (t.consulted now).sessionTimers = t.sessionTimers ∧
      (t.consulted now).status = t.status ∧
      (t.consulted now).session = (t.session.onTimer now t.random.nonce).2 := by
  unfold consulted
  dsimp only
  split <;> exact ⟨rfl, rfl, rfl, rfl⟩

/-- The session says what a run is to do. The run goes on, and will set the alarm again unless the
session is closed. -/
theorem Attended.consult (h : t.Attended (.consult run :: others)) :
    (t.perform now net (.consult run)).1.Attended
      ((t.perform now net (.consult run)).2 ++ others) := by
  have fires := Session.onTimer_fires t.session now t.random.nonce
  obtain ⟨alarm, timers, status, session⟩ := consulted_spec t now
  simp only [Tunnel.perform]
  generalize t.session.onTimer now t.random.nonce = answer at fires session ⊢
  obtain ⟨step, s⟩ := answer
  have closed_iff : (t.consulted now).session.phase = .closed ↔
      t.session.phase = .closed ∨ (Session.Output.timer step).Ends := by
    rw [session]
    exact (Session.Responds.timer fires).closed_iff
  have runs : atWork ((if t.session.phase = .active ∧ s.phase ≠ .active then
      [Part.cancelPending] else []) ++ Part.ofStep run step) = [run] := by
    cases step <;> split <;> rfl
  refine h.aside ⟨alarm, timers, status, fun closed => closed_iff.2 (.inl closed)⟩ runs ?_
    False.elim ?_
  · intro run' rests
    refine closed_iff.2 (.inr ?_)
    cases step with
    | send message recipient next =>
      rcases List.mem_append.1 rests with rests | rests
      · split at rests <;> simp at rests
      · simp [Part.ofStep] at rests
    | _ => trivial
  · intro closed
    cases step with
    | send message recipient next => exact .inl ((closed_iff.1 closed).resolve_right id)
    | fail error => exact .inr ⟨.stop (some error), by simp [Part.ofStep], trivial⟩
    | idle => exact .inl fires.closed_of_idle

/-- A run has done its work. If it does not set the alarm again although nobody else has, the
session is closed, and whoever has closed it is about to end the tunnel. -/
theorem Attended.rest {next : Option Duration} (h : t.Attended (.rest run next :: others)) :
    (t.rest run next now).Attended others := by
  have working : Working (.rest run next :: others) run () := by
    simp [Working, atWork_cons, Part.run?]
  obtain ⟨unique, distinct⟩ := List.nodup_cons.1 h.distinct
  have ended : ∀ r j, Working others r j ↔ Working (.rest run next :: others) r j ∧ r ≠ run := by
    intro r j
    simp only [Working, atWork_cons, Part.run?, Option.toList_some, List.singleton_append,
      List.mem_cons]
    constructor
    · intro hr
      refine ⟨.inr hr, ?_⟩
      rintro rfl
      exact unique hr
    · rintro ⟨rfl | hr, other⟩
      · exact absurd rfl other
      · exact hr
  have kept := h.kept.finish working ended next now
  rw [update_alarm] at kept
  refine ⟨kept, distinct, ?_, ?_⟩
  · intro run' rests
    exact h.unset run' (List.mem_cons_of_mem _ rests)
  · intro running atEnd
    -- an alarm that is idle now was so before, or the session did not want it to be set again
    have before : t.session.phase = .closed ∨ t.sessionAlarm = .idle := by
      rcases atEnd with closed | idle
      · exact .inl closed
      · rcases Alarm.idle_of_finish idle with idle | ⟨-, rfl⟩
        · exact .inr idle
        · exact .inl (h.unset run (by simp))
    exact h.ending_others id running before

theorem Attended.setAlarm {delay : Duration} (h : t.Attended (.setAlarm delay :: others)) :
    (t.setAlarm now delay).Attended others := by
  have kept := h.kept.setAt () (now + delay)
  rw [update_alarm] at kept
  refine ⟨kept, h.distinct, ?_, ?_⟩
  · intro run' rests
    exact h.unset run' (List.mem_cons_of_mem _ rests)
  · intro running atEnd
    have closed : t.session.phase = .closed := by simpa [Tunnel.setAlarm, Alarm.setAt] using atEnd
    exact h.ending_others id running (.inl closed)

theorem Attended.stopAlarm {teardown : Option (Message × Endpoint)} {error? : Option GatewayError}
    (h : t.Attended (.stopAlarm teardown error? :: others)) :
    t.cancelAlarm.Attended (.stopListener teardown error? :: others) := by
  have kept := h.kept.cancel ()
  rw [update_alarm] at kept
  refine ⟨kept, h.distinct, ?_, ?_⟩
  · intro run' rests
    exact h.unset run' (by simpa using rests)
  · intro running atEnd
    exact ⟨_, List.mem_cons_self, trivial⟩

theorem Attended.settle {error? : Option GatewayError} (h : t.Attended (.settle error? :: others)) :
    (t.settle (error?.elim .closed .failed)).Attended others := by
  have ended : (t.settle (error?.elim .closed .failed)).status ≠ .running := by
    unfold Tunnel.settle
    split
    · cases error? <;> simp
    · next ended => exact ended
  have same : (t.settle (error?.elim .closed .failed)).sessionAlarm = t.sessionAlarm ∧
      (t.settle (error?.elim .closed .failed)).sessionTimers = t.sessionTimers ∧
      (t.settle (error?.elim .closed .failed)).session = t.session := by
    unfold Tunnel.settle
    split <;> exact ⟨rfl, rfl, rfl⟩
  refine ⟨?_, h.distinct, ?_, fun running => absurd running ended⟩
  · unfold alarm
    rw [same.1, same.2.1]
    exact h.kept
  · intro run' rests
    rw [same.2.2]
    exact h.unset run' (List.mem_cons_of_mem _ rests)

/-! ### All parts -/

theorem Attended.ioError {error : IoError} (h : t.Attended (.ioError error :: others)) :
    (t.perform now net (.ioError error)).1.Attended
      ((t.perform now net (.ioError error)).2 ++ others) := by
  have suffers := Session.onIoError_suffers t.session error
  simp only [Tunnel.perform]
  generalize t.session.onIoError error = answer at suffers ⊢
  obtain ⟨outcome, session⟩ := answer
  have closed_iff := (Session.Responds.ioError suffers).closed_iff
  have undisturbed : t.Undisturbed { t with session } :=
    ⟨rfl, rfl, rfl, fun closed => closed_iff.2 (.inl closed)⟩
  cases outcome with
  | fatal error =>
    refine h.aside undisturbed rfl (by simp) False.elim fun _ => .inr ?_
    exact ⟨.stop (some error), List.mem_singleton_self _, trivial⟩
  | _ => exact h.apart undisturbed (fun closed => (closed_iff.1 closed).resolve_right id) rfl id rfl

/-- A message moves the session on, but never closes it. -/
theorem Attended.heed {sender : Endpoint} {message : Message}
    (h : t.Attended (.heed sender message :: others)) :
    (t.perform now net (.heed sender message)).1.Attended
      ((t.perform now net (.heed sender message)).2 ++ others) := by
  cases message with
  | advertisement nonce relay =>
    have heeds := Session.onAdvertisement_heeds t.session nonce relay
    simp only [Tunnel.perform]
    generalize t.session.onAdvertisement nonce relay = answer at heeds ⊢
    obtain ⟨accepted, session⟩ := answer
    have closed_iff := (Session.Responds.advertisement heeds).closed_iff
    refine h.apart ⟨rfl, rfl, rfl, fun closed => closed_iff.2 (.inl closed)⟩
      (fun closed => (closed_iff.1 closed).resolve_right id) rfl id ?_
    dsimp only
    split <;> split <;> rfl
  | query limited mac nonce packet gateway =>
    simp only [Tunnel.perform]
    cases Query.decode packet with
    | error _ => exact h.apart ⟨rfl, rfl, rfl, id⟩ id rfl id rfl
    | ok q =>
      have hears := Session.onQuery_hears t.session sender nonce mac gateway q.interval now
      dsimp only
      generalize t.session.onQuery sender nonce mac gateway q.interval now = answer at hears ⊢
      obtain ⟨outcome, session⟩ := answer
      have closed_iff := (Session.Responds.query hears).closed_iff
      have undisturbed : t.Undisturbed { t with session } :=
        ⟨rfl, rfl, rfl, fun closed => closed_iff.2 (.inl closed)⟩
      cases outcome <;>
        exact h.apart undisturbed (fun closed => (closed_iff.1 closed).resolve_right id) rfl id rfl
  | data packet =>
    obtain ⟨undisturbed, session⟩ := undisturbed_onData t sender packet
    exact h.apart undisturbed (fun closed => session ▸ closed) rfl id rfl
  | _ => exact h.apart ⟨rfl, rfl, rfl, id⟩ id rfl id rfl

theorem Attended.perform (h : t.Attended (part :: others)) (now : Instant) (net : Transmit) :
    (t.perform now net part).1.Attended ((t.perform now net part).2 ++ others) := by
  cases part with
  | wake run => exact h.wake
  | consult run => exact h.consult
  | rest run next => exact h.rest
  | setAlarm delay => exact h.setAlarm
  | cancelPending => exact h.apart ⟨rfl, rfl, rfl, id⟩ id rfl id rfl
  | transmit message recipient =>
    simp only [Tunnel.perform]
    cases net recipient message.encode with
    | none => exact h.apart ⟨rfl, rfl, rfl, id⟩ id rfl id rfl
    | some error => exact h.apart ⟨rfl, rfl, rfl, id⟩ id rfl id rfl
  | tell message recipient =>
    simp only [Tunnel.perform]
    cases net recipient message.encode with
    | none => exact h.apart ⟨rfl, rfl, rfl, id⟩ id rfl id rfl
    | some error => exact h.apart ⟨rfl, rfl, rfl, id⟩ id rfl id rfl
  | ioSuccess => exact h.apart ⟨rfl, rfl, rfl, id⟩ id rfl id rfl
  | ioError error => exact h.ioError
  | receive sender bytes =>
    simp only [Tunnel.perform]
    cases Message.decode bytes with
    | error _ => exact h.apart ⟨rfl, rfl, rfl, id⟩ id rfl id rfl
    | ok message => exact h.apart ⟨rfl, rfl, rfl, id⟩ id rfl id rfl
  | heed sender message => exact h.heed
  | askListener q => exact h.apart ⟨rfl, rfl, rfl, id⟩ id rfl id rfl
  | report report =>
    simp only [Tunnel.perform]
    cases t.compose report with
    | error outcome => exact h.apart ⟨rfl, rfl, rfl, id⟩ id rfl id rfl
    | ok composed => exact h.apart ⟨rfl, rfl, rfl, id⟩ id rfl id rfl
  | submit update relay =>
    simp only [Tunnel.perform]
    cases net relay update.encode with
    | none => exact h.apart ⟨rfl, rfl, rfl, id⟩ id rfl id rfl
    | some error => exact h.apart ⟨rfl, rfl, rfl, id⟩ id rfl id rfl
  | reported => exact h.apart ⟨rfl, rfl, rfl, id⟩ id rfl id rfl
  | listen event => exact h.apart ⟨rfl, rfl, rfl, id⟩ id rfl id rfl
  -- these begin or go on with the end, which may leave the alarm idle
  | close =>
    refine h.aside ⟨rfl, rfl, rfl, id⟩ ?_ ?_ False.elim .inl
    · simp only [Tunnel.perform]
      split <;> rfl
    · simp [Tunnel.perform]
  | stop error? =>
    have isEnd : ∃ part' ∈ (t.perform now net (.stop error?)).2, part'.Ends :=
      ⟨_, List.mem_singleton_self _, trivial⟩
    exact h.aside ⟨rfl, rfl, rfl, fun _ => rfl⟩ rfl (by simp [Tunnel.perform]) (fun _ => isEnd)
      fun _ => .inr isEnd
  | stopAlarm teardown error? => exact h.stopAlarm
  | stopListener teardown error? =>
    have isEnd : ∃ part' ∈ (t.perform now net (.stopListener teardown error?)).2, part'.Ends :=
      ⟨.settle error?, by simp [Tunnel.perform], trivial⟩
    refine h.aside ⟨rfl, rfl, rfl, id⟩ ?_ ?_ (fun _ => isEnd) .inl
    · cases teardown <;> rfl
    · cases teardown <;> simp [Tunnel.perform]
  | settle error? => exact h.settle

/-! ### From the start -/

theorem Attended.perm (h : t.Attended pending) (perm : pending.Perm others) :
    t.Attended others := by
  have same : (atWork pending).Perm (atWork others) := perm.filterMap _
  have working : Working pending = Working others := by
    funext run job
    exact propext same.mem_iff
  refine ⟨working ▸ h.kept, same.nodup_iff.1 h.distinct, ?_, ?_⟩
  · intro run rests
    exact h.unset run (perm.mem_iff.2 rests)
  · intro running atEnd
    obtain ⟨part', hpart', isEnd⟩ := h.ending running atEnd
    exact ⟨part', perm.mem_iff.1 hpart', isEnd⟩

theorem Attended.start {config : Config} {random : Randomness}
    (started : Tunnel.start config random now = .ok t) : t.Attended [] := by
  unfold Tunnel.start at started
  split at started
  · simp at started
  · obtain rfl := Except.ok.inj started
    have idle : Alarm.Kept (fun _ : Unit => .idle) (Working []) .empty :=
      .empty (by simp [Working, atWork])
    have kept := idle.setAt () (now + 0)
    rw [update_alarm] at kept
    refine ⟨kept, List.nodup_nil, by simp, ?_⟩
    intro _ atEnd
    simp [Tunnel.setAlarm, Alarm.setAt, Session.start] at atEnd

end Tunnel

/-! ### Runs -/

namespace BusyTunnel

open Tunnel (Part)

variable {b : BusyTunnel}

theorem attended_turn (h : b.tunnel.Attended b.pending) (turn : Turn) :
    (b.turn turn).tunnel.Attended (b.turn turn).pending := by
  cases turn with
  | opening now net part =>
    simp only [BusyTunnel.turn]
    split
    · next opens => exact (h.cons opens).perform now net
    · exact h
  | proceeding now net part =>
    simp only [BusyTunnel.turn]
    split
    · next pending => exact (h.perm (List.perm_cons_erase pending)).perform now net
    · exact h

theorem attended_run (h : b.tunnel.Attended b.pending) (turns : List Turn) :
    (b.run turns).tunnel.Attended (b.run turns).pending :=
  List.foldlRecOn turns turn (motive := fun b => b.tunnel.Attended b.pending) h
    fun _ h turn _ => attended_turn h turn

/-- As long as a tunnel runs, its session is open and has its alarm set, or a run is at work that
belongs to the alarm; unless the tunnel is about to end. -/
theorem alarm_set_or_at_work (h : b.tunnel.Attended b.pending)
    (running : b.tunnel.status = .running) :
    (∃ part ∈ b.pending, part.Ends) ∨ b.tunnel.session.phase ≠ .closed ∧
      ((∃ run due, b.tunnel.sessionAlarm = .waiting run due ∧
          ⟨run, (), .asleep due⟩ ∈ b.tunnel.sessionTimers.live) ∨
        ∃ part ∈ b.pending, ∃ run, part.run? = some run ∧ b.tunnel.sessionAlarm = .acting run) := by
  by_cases atEnd : b.tunnel.session.phase = .closed ∨ b.tunnel.sessionAlarm = .idle
  · exact .inl (h.ending running atEnd)
  · obtain ⟨isOpen, notIdle⟩ := not_or.1 atEnd
    refine .inr ⟨isOpen, ?_⟩
    cases halarm : b.tunnel.sessionAlarm with
    | idle => exact absurd halarm notIdle
    | waiting run due => exact .inl ⟨run, due, rfl, (h.kept.asleep run () due).2 halarm⟩
    | acting run =>
      have working : run ∈ Tunnel.atWork b.pending := h.kept.acting run () halarm
      obtain ⟨part, hpart, hrun⟩ := List.mem_filterMap.1 working
      exact .inr ⟨part, hpart, run, hrun, rfl⟩

end BusyTunnel

end MulticastTunnel
