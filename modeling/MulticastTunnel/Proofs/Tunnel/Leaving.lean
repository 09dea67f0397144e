import MulticastTunnel.Proofs.Listener.Upkeep
import MulticastTunnel.Proofs.Report.Wire
import MulticastTunnel.Proofs.Tunnel.Updates

/-!
# When a session is not active any more

A session that has given up its tunnel has nobody to report to, and the next tunnel begins with a
query about everything. So the reports that are still to be sent are forgotten, whatever has made
the session leave; what is wanted stays, unless the tunnel ends.

* `Listener.Silent` : nothing is to be reported.
* `Tunnel.Moves` : what the operations that may leave do to the listener (`Tunnel.moves_of_leaves`).
* `Tunnel.Part.Silences` : whoever leaves is about to silence the listener.
* `BusyTunnel.leaving_forgets_reports` : **no report that waits outlives the active phase**.
* `BusyTunnel.updated_after_leaving` : a report that is being sent does.
-/

namespace MulticastTunnel

/-! ### Nothing to report -/

namespace Listener

/-- Nothing is to be reported, no alarm is set, and every record tells of something wanted. -/
structure Silent (l : Listener) : Prop where
  alarms : ∀ job, l.alarm job = .idle
  answered : ∀ g ∈ l.groups, g.asked = none
  reported : ∀ g ∈ l.groups, g.change = none
  wanted : ∀ g ∈ l.groups, g.filter.isEmpty = false

theorem silent_cancelPending (l : Listener) : l.cancelPending.Silent := by
  have forgotten : ∀ g ∈ l.cancelPending.groups,
      g.asked = none ∧ g.change = none ∧ g.isEvictable = false := by
    intro g hg
    obtain ⟨keep, g', -, timers, rfl⟩ := of_mem_forgetAll hg
    exact ⟨rfl, rfl, keep⟩
  refine ⟨fun job => by rw [alarm_cancelPending], fun g hg => (forgotten g hg).1,
    fun g hg => (forgotten g hg).2.1, fun g hg => ?_⟩
  -- nothing else keeps a record
  obtain ⟨answered, reported, keep⟩ := forgotten g hg
  simpa [GroupState.isEvictable, answered, reported] using keep

theorem silent_shutdown (l : Listener) : l.shutdown.Silent where
  alarms job := by cases job <;> rfl
  answered := by simp [shutdown]
  reported := by simp [shutdown]
  wanted := by simp [shutdown]

end Listener

namespace Tunnel

variable {t t' t'' : Tunnel} {now : Instant} {net : Transmit}

/-! ### Moving on -/

/-- How a tunnel moves on if its listener is not asked anything. Either nothing is forgotten, and an
active session stays active; or all reports are forgotten. What is wanted stays as long as the
session is open. -/
structure Moves (t t' : Tunnel) : Prop where
  closed : t.session.phase = .closed → t'.session.phase = .closed
  reports : t'.listener.Silent ∨
    t'.listener = t.listener ∧ (t.session.phase = .active → t'.session.phase = .active)
  ordered : Groups.Ordered t.listener.groups → Groups.Ordered t'.listener.groups
  interest : t'.session.phase ≠ .closed → Groups.Ordered t.listener.groups →
    t'.listener.interest = t.listener.interest

namespace Moves

theorem trans (h : t.Moves t') (h' : t'.Moves t'') : t.Moves t'' where
  closed := h'.closed ∘ h.closed
  reports := by
    rcases h'.reports with silent | ⟨same', active'⟩
    · exact .inl silent
    · -- a listener that is left alone stays silent
      rcases h.reports with silent | ⟨same, active⟩
      · exact .inl (same' ▸ silent)
      · exact .inr ⟨same'.trans same, active' ∘ active⟩
  ordered := h'.ordered ∘ h.ordered
  interest isOpen ordered :=
    (h'.interest isOpen (h.ordered ordered)).trans
      (h.interest (fun closed => isOpen (h'.closed closed)) ordered)

theorem aside (listener : t'.listener = t.listener)
    (closed : t.session.phase = .closed → t'.session.phase = .closed)
    (active : t.session.phase = .active → t'.session.phase = .active) : t.Moves t' :=
  ⟨closed, .inr ⟨listener, active⟩, listener ▸ id, fun _ _ => listener ▸ rfl⟩

theorem forgets (listener : t'.listener = t.listener.cancelPending)
    (closed : t.session.phase = .closed → t'.session.phase = .closed) : t.Moves t' where
  closed := closed
  reports := .inl (listener ▸ Listener.silent_cancelPending _)
  ordered ordered := listener ▸ Listener.Continues.cancelPending.ordered ordered
  interest _ ordered := listener ▸ @Listener.interest_react _ .cancelPending trivial ordered

theorem ends (stopped : t.Stopped t') (status : TunnelStatus) : t.Moves (t'.settle status) := by
  obtain ⟨final, same, -⟩ := settle_eq t' status
  rw [same]
  exact {
    closed := fun _ => stopped.closed
    reports := .inl (stopped.listener ▸ Listener.silent_shutdown _)
    ordered := fun _ => stopped.listener ▸ List.Pairwise.nil
    interest := fun isOpen => absurd stopped.closed isOpen }

end Moves

/-- The session may have been closed just before, as the reason for the failure. -/
theorem fail_moves (t : Tunnel) (session : Session) (error : GatewayError) :
    t.Moves ({ t with session }.fail error) := by
  have stopped : t.Stopped { t with session }.stop := ⟨rfl, rfl, rfl, rfl⟩
  exact .ends stopped (.failed error)

theorem onIoError_moves (t : Tunnel) (now : Instant) (error : IoError) :
    t.Moves (t.onIoError now error) := by
  have suffers := Session.onIoError_suffers t.session error
  unfold onIoError
  generalize t.session.onIoError error = answer at suffers ⊢
  cases suffers with
  | closed phase => exact .aside rfl id id
  | fatal phase enough => exact fail_moves t _ _
  | reestablishes phase left => exact .forgets rfl (by simp [phase])
  | refused phase left refusal => exact .aside rfl id id
  | counted phase left => exact .aside rfl id id

/-- If the session has left the active phase, its reports are forgotten at once. -/
theorem leave_moves {session : Session} (t' : Tunnel) (listener : t'.listener = t.listener)
    (same : t'.session = session)
    (closed : t.session.phase = .closed → session.phase = .closed) :
    t.Moves (if t.session.phase = .active ∧ session.phase ≠ .active then t'.cancelPending
      else t') := by
  subst same
  split
  · exact .forgets (congrArg Listener.cancelPending listener) closed
  · next stays => exact .aside listener closed fun phase => by simpa [phase] using stays

theorem wake_moves (t : Tunnel) (run : Nat) (now : Instant) : t.Moves (t.wake run now).2 := by
  have fires := Session.onTimer_fires t.session now t.random.nonce
  unfold wake
  split
  · exact .aside rfl id id
  · refine leave_moves _ ?_ ?_ fun phase => ((Session.Responds.timer fires).closed phase).2
    · split <;> rfl
    · split <;> rfl

theorem carryOut_moves (t : Tunnel) (net : Transmit) (now : Instant) (step : SessionStep) :
    t.Moves (t.carryOut net now step).2 := by
  cases step with
  | send message recipient next =>
    simp only [carryOut, transmit]
    cases net recipient message.encode with
    | none => exact .aside rfl id id
    | some error => exact onIoError_moves t now error
  | fail error => exact fail_moves t t.session error
  | idle => exact .aside rfl id id

theorem fireSession_moves (t : Tunnel) (net : Transmit) (run : Nat) (now : Instant) :
    t.Moves (t.fireSession net run now) := by
  have wakes := wake_moves t run now
  unfold fireSession
  generalize t.wake run now = woken at wakes ⊢
  obtain ⟨_ | step, woken⟩ := woken
  · exact wakes
  · exact (wakes.trans (carryOut_moves woken net now step)).trans (.aside rfl id id)

theorem onAdvertisement_moves (t : Tunnel) (now : Instant) (nonce : UInt32) (relay : Address) :
    t.Moves (t.onAdvertisement now nonce relay) := by
  have heeds := Session.onAdvertisement_heeds t.session nonce relay
  have moved := leave_moves (t := t)
    { t with session := (t.session.onAdvertisement nonce relay).2 } rfl rfl
    fun phase => ((Session.Responds.advertisement heeds).closed phase).2
  unfold onAdvertisement
  dsimp only
  split
  · exact moved.trans (.aside rfl id id)
  · exact moved

theorem close_moves (t : Tunnel) (net : Transmit) : t.Moves (t.close net) := by
  by_cases running : t.status = .running
  · obtain ⟨told, closed, stopped, -⟩ := close_cases running net
    exact closed ▸ .ends stopped .closed
  · rw [close, if_neg running]
    exact .aside rfl id id

/-! ### Leaving -/

theorem onQuery_active (active : t.session.phase = .active) (sender : Endpoint) (nonce : UInt32)
    (mac : ResponseMac) (packet : Bytes) (gatewayAddress : Option GatewayAddress) :
    (t.onQuery now sender nonce mac packet gatewayAddress).session.phase = .active := by
  unfold onQuery
  split
  · exact active
  · next q _ =>
    have hears := Session.onQuery_hears t.session sender nonce mac gatewayAddress q.interval now
    dsimp only
    generalize t.session.onQuery sender nonce mac gatewayAddress q.interval now = answer at hears ⊢
    cases hears with
    | rejected other => exact active
    | activated answers phase => rfl
    | accepted answers phase => exact active

/-- A message that makes the session leave the active phase is an advertisement. -/
theorem onMessage_moves {sender : Endpoint} {message : Message}
    (active : t.session.phase = .active)
    (left : (t.onMessage now sender message).session.phase ≠ .active) :
    t.Moves (t.onMessage now sender message) := by
  cases message with
  | advertisement nonce relay => exact onAdvertisement_moves t now nonce relay
  | query limited mac nonce packet gateway =>
    exact absurd (onQuery_active active sender nonce mac packet gateway) left
  | data packet =>
    have same := (undisturbed_onData t sender packet).2
    exact absurd ((congrArg Session.phase same).trans active) left
  | _ => exact absurd active left

theorem moves_of_leaves {s : Step} (active : t.session.phase = .active)
    (left : (t.step s).session.phase ≠ .active) : t.Moves (t.step s) := by
  obtain ⟨now, net, part, opens⟩ := s
  -- reports, and what the listener is told, do not reach the session
  cases part with
  | wake run =>
    simp only [step]
    split
    · exact fireSession_moves t net run now
    · exact .aside rfl id id
  | receive sender bytes =>
    simp only [step, accept] at left ⊢
    cases decoded : Message.decode bytes with
    | error _ => exact .aside rfl id id
    | ok message =>
      simp only [decoded] at left
      have received : t.Moves { t with session := t.session.onIoSuccess } := .aside rfl id id
      exact received.trans (onMessage_moves active left)
  | ioError error => exact onIoError_moves t now error
  | report report => exact absurd ((undisturbed_sendReport t net report).2.trans active) left
  | listen event => exact absurd active left
  | close => exact close_moves t net
  | _ => simp [Part.Opens] at opens

/-- The part silences the listener, or is followed by one that does. -/
def Part.Silences : Part → Prop
  | cancelPending | stop _ | stopAlarm .. | stopListener .. => True
  | _ => False

/-- Whoever leaves the active phase silences the listener next. -/
theorem silences_of_leaves {part : Part} (active : t.session.phase = .active)
    (left : (t.perform now net part).1.session.phase ≠ .active) :
    ∃ next ∈ (t.perform now net part).2, next.Silences := by
  -- the ways out are the alarm, an advertisement, a socket error and the end
  cases part with
  | wake run =>
    simp only [perform] at left
    split at left
    · split at left <;> exact absurd active left
    · exact absurd active left
  | consult run =>
    obtain ⟨random, counters, same⟩ := consulted_eq t now
    have gone : (t.session.onTimer now t.random.nonce).2.phase ≠ .active := by
      simpa [perform, same] using left
    exact ⟨.cancelPending, by simp [perform, active, gone], trivial⟩
  | transmit message recipient | tell message recipient =>
    simp only [perform] at left
    split at left <;> exact absurd active left
  | ioError error =>
    have suffers := Session.onIoError_suffers t.session error
    simp only [perform] at left ⊢
    generalize t.session.onIoError error = answer at suffers left ⊢
    cases suffers with
    | fatal phase enough => exact ⟨_, List.mem_singleton_self _, trivial⟩
    | reestablishes phase few => exact ⟨.cancelPending, by simp, trivial⟩
    | _ => exact absurd active left
  | receive sender bytes =>
    simp only [perform] at left
    split at left <;> exact absurd active left
  | heed sender message =>
    cases message with
    | advertisement nonce relay =>
      have gone : (t.session.onAdvertisement nonce relay).2.phase ≠ .active := left
      exact ⟨.cancelPending, by simp [perform, active, gone], trivial⟩
    | query limited mac nonce packet gateway =>
      simp only [perform] at left
      split at left
      · exact absurd active left
      · next q _ =>
        have hears := Session.onQuery_hears t.session sender nonce mac gateway q.interval now
        dsimp only at left
        generalize t.session.onQuery sender nonce mac gateway q.interval now = answer
          at hears left
        cases hears with
        | activated answers phase => exact absurd rfl left
        | _ => exact absurd active left
    | data packet =>
      have same := (undisturbed_onData t sender packet).2
      exact absurd ((congrArg Session.phase same).trans active) left
    | _ => exact absurd active left
  | submit update relay =>
    simp only [perform] at left
    split at left <;> exact absurd active left
  | stop error? => exact ⟨_, List.mem_singleton_self _, trivial⟩
  | settle error? =>
    obtain ⟨final, same, -⟩ := settle_eq t (error?.elim .closed .failed)
    simp only [perform, same] at left
    exact absurd active left
  | _ => exact absurd active left

/-- A part that is to silence the listener does so, or leaves it to the next one. -/
theorem perform_silences (t : Tunnel) (now : Instant) (net : Transmit) {part : Part}
    (silences : part.Silences) : (t.perform now net part).1.listener.Silent ∨
      ∃ next ∈ (t.perform now net part).2, next.Silences := by
  cases part with
  | cancelPending => exact .inl (Listener.silent_cancelPending _)
  | stop error? => exact .inr ⟨_, List.mem_singleton_self _, trivial⟩
  | stopAlarm teardown error? => exact .inr ⟨_, List.mem_singleton_self _, trivial⟩
  | stopListener teardown error? => exact .inl (Listener.silent_shutdown _)
  | _ => exact silences.elim

end Tunnel

namespace BusyTunnel

open Tunnel (Part)

/-- A report is about to be sent when there is an error of the socket. The session leaves the active
phase, all that waits is forgotten, and yet the update is put on the wire afterwards. -/
theorem updated_after_leaving :
    let config := Config.standard (.of (.ofOctets 192 0 2 1) tunnelPort)
    let random := Randomness.fresh (fun _ => 7) (fun _ => 0)
    let relay := Endpoint.of (.ofOctets 192 0 2 7) tunnelPort
    let net : Transmit := fun _ _ => none
    ∃ t₀ packet turns, Tunnel.start config random 0 = .ok t₀ ∧
      let update := Message.update 1 7 packet
      let sending : Turn := .proceeding 12 net (.submit update relay)
      let b := run ⟨t₀, []⟩ turns
      b.tunnel.session.phase = .requesting ∧ b.tunnel.listener.Silent ∧
      b.pending = [.submit update relay] ∧
      (b.turn sending).tunnel.session.phase = .requesting ∧
      (b.turn sending).tunnel.effects = b.tunnel.effects ++ [.sent relay update] := by
  intro config random relay net
  let report : Report := ⟨[⟨.toExclude, .ofOctets 239 1 1 1, []⟩]⟩
  let error : IoError := ⟨"ConnectionReset", ""⟩
  let past := Tunnel.handshake (.ofOctets 192 0 2 7) (.general 100)
  obtain ⟨packet, -, encoded, -⟩ := Report.exists_encode_eq (Report.familyConflict_eq_none_iff.1
    (by decide : report.familyConflict (config.reporter true) = none)) (by decide)
  obtain ⟨t₀, started⟩ : ∃ t₀, Tunnel.start config random 0 = .ok t₀ := ⟨_, rfl⟩
  obtain ⟨active, target, settings, left⟩ : (t₀.steps past).session.phase = .active ∧
      (t₀.steps past).session.updateTarget? = some (relay, 1, 7) ∧
      (t₀.steps past).config.reporter true = config.reporter true ∧
      ((t₀.steps past).onIoError 11 error).session.phase = .requesting := by
    cases started
    decide +kernel
  obtain ⟨up, before⟩ := exists_run_of_steps t₀ past []
  generalize t₀.steps past = t at active target settings left before
  have composed : t.compose report = .ok (.update 1 7 packet, relay) := by
    rw [← settings] at encoded
    have first : (Address.ofOctets 239 1 1 1).isV4 = true := rfl
    simp only [Tunnel.compose, target, report, first]
    rw [encoded]
  have asked : turn ⟨t, []⟩ (.opening 10 net (.report report)) =
      ⟨t, [.submit (.update 1 7 packet) relay]⟩ := by
    simp [turn, work, Part.Opens, Tunnel.perform, composed]
  have fails : Tunnel.Completes 11 net [.ioError error] t (t.onIoError 11 error) :=
    t.onIoError_completes error
  obtain ⟨down, after⟩ := exists_run_of_opens rfl fails [.submit (.update 1 7 packet) relay]
  have gone : run ⟨t₀, []⟩ (up ++ .opening 10 net (.report report) :: down) =
      ⟨t.onIoError 11 error, [.submit (.update 1 7 packet) relay]⟩ := by
    calc run ⟨t₀, []⟩ (up ++ .opening 10 net (.report report) :: down)
        = run (turn (run ⟨t₀, []⟩ up) (.opening 10 net (.report report))) down := by
          rw [run, List.foldl_append]
          rfl
      _ = _ := by rw [before, asked, after]
  have moves := Tunnel.onIoError_moves t 11 error
  have silent : (t.onIoError 11 error).listener.Silent :=
    moves.reports.resolve_right fun kept => by simpa [left] using kept.2 active
  refine ⟨t₀, packet, up ++ .opening 10 net (.report report) :: down, started, ?_⟩
  intro update sending b
  have same : b = ⟨t.onIoError 11 error, [.submit update relay]⟩ := gone
  have sent : b.turn sending = ⟨{ t.onIoError 11 error with
      effects := (t.onIoError 11 error).effects ++ [.sent relay update] },
      [.ioSuccess, .reported]⟩ := by
    simp [same, turn, sending, work, Tunnel.perform, net]
  rw [sent, same]
  exact ⟨left, silent, rfl, left, rfl⟩

/-- **No report that waits outlives the active phase.** Whatever has happened to a tunnel and
whatever is in progress: after a step that leaves the active phase nothing is to be reported, no
alarm for reports is set, only groups of which something is wanted are recorded, and what is wanted
is the same as before unless the session is closed. In between other work, whoever leaves is about
to silence the listener.

An update is put on the wire only if it was made for a report while the session was active, with the
relay of that moment for its recipient; without interruption, that is the moment at which it is
sent. While a session is not active, every report is refused, and nothing is sent. -/
theorem leaving_forgets_reports {config : Config} {random : Randomness} {start : Instant}
    {t₀ : Tunnel} (started : Tunnel.start config random start = .ok t₀) (turns : List Turn) :
    let b := run ⟨t₀, []⟩ turns
    let t := b.tunnel
    (∀ s : Tunnel.Step, t.session.phase = .active → (t.step s).session.phase ≠ .active →
      (t.step s).listener.Silent ∧ ((t.step s).session.phase ≠ .closed →
        (t.step s).listener.interest = t.listener.interest)) ∧
    (∀ next, t.session.phase = .active → (b.turn next).tunnel.session.phase ≠ .active →
      ∃ part ∈ (b.turn next).pending, part.Silences) ∧
    (∀ now net part, part.Silences → (t.perform now net part).1.listener.Silent ∨
      ∃ next ∈ (t.perform now net part).2, next.Silences) ∧
    (∀ next, ∃ new, (b.turn next).tunnel.effects = t.effects ++ new ∧
      ∀ recipient mac nonce packet, .sent recipient (.update mac nonce packet) ∈ new →
        ∃ front, front <+: turns ∧
          let earlier := (run ⟨t₀, []⟩ front).tunnel
          earlier.session.phase = .active ∧ earlier.session.relay = some recipient ∧
          ∃ report, earlier.compose report = .ok (.update mac nonce packet, recipient)) ∧
    (∀ s : Tunnel.Step, ∃ new, (t.step s).effects = t.effects ++ new ∧
      ∀ recipient mac nonce packet, .sent recipient (.update mac nonce packet) ∈ new →
        t.session.phase = .active ∧ t.session.relay = some recipient) ∧
    (t.session.phase ≠ .active → ∀ net report,
      t.sendReport net report = (.refused .notConnected, t)) := by
  intro b t
  have sound : t.Sound config := sound_run started turns
  refine ⟨fun s active left => ?_, fun next active left => ?_,
    fun now net part => t.perform_silences now net, fun next => ?_, t.effects_step,
    fun inactive => Tunnel.sendReport_of_not_active inactive⟩
  -- steps that are complete
  · have moves := Tunnel.moves_of_leaves active left
    refine ⟨moves.reports.resolve_right fun kept => left (kept.2 active), fun isOpen => ?_⟩
    exact moves.interest isOpen sound.tidy.ordered
  -- parts of steps, in between others
  · rcases b.turn_cases next with idle | ⟨now, net, part, others, works, -⟩
    · rw [idle] at left
      exact absurd active left
    · rw [works] at left ⊢
      obtain ⟨part', new, silences⟩ := Tunnel.silences_of_leaves active left
      exact ⟨part', List.mem_append_left _ new, silences⟩
  -- what is on the wire
  · obtain ⟨new, effects, updates⟩ := effects_turn t₀ turns next
    refine ⟨new, effects, fun recipient mac nonce packet sent => ?_⟩
    obtain ⟨front, earlier, report, composed⟩ := updates recipient mac nonce packet sent
    obtain ⟨active, known, -⟩ := Tunnel.exists_target_of_compose composed
    exact ⟨front, earlier, active, known, report, composed⟩

/-- The tunnel is up, and a group has just been joined, when there is an error of the socket. The
report of the change is forgotten, and no other can be sent; the group is still wanted. -/
theorem leaving_forgets_reports_socketError :
    let config := Config.standard (.of (.ofOctets 192 0 2 1) tunnelPort)
    let random := Randomness.fresh (fun _ => 7) (fun _ => 0)
    let group := Address.ofOctets 239 1 1 1
    let net : Transmit := fun _ _ => none
    let join : Tunnel.Step := ⟨10, net, .listen (.call 10 group (.join .allSources)), rfl⟩
    let error : Tunnel.Step := ⟨11, net, .ioError ⟨"ConnectionReset", ""⟩, rfl⟩
    let past := Tunnel.handshake (.ofOctets 192 0 2 7) (.general 100) ++ [join]
    ∃ t₀, Tunnel.start config random 0 = .ok t₀ ∧
      let t := t₀.steps past
      t.session.phase = .active ∧ t.listener.alarm (.change group) ≠ .idle ∧
      (t.step error).session.phase = .requesting ∧ (t.step error).listener.Silent ∧
      (t.step error).listener.interest group = .allSources ∧
      ∀ report, (t.step error).sendReport net report = (.refused .notConnected, t.step error) := by
  intro config random group net join error past
  obtain ⟨t₀, started⟩ : ∃ t₀, Tunnel.start config random 0 = .ok t₀ := ⟨_, rfl⟩
  refine ⟨t₀, started, ?_⟩
  intro t
  have active : t.session.phase = .active := by
    cases started
    decide +kernel
  have owed : t.listener.alarm (.change group) ≠ .idle := by
    cases started
    decide +kernel
  have wanted : t.listener.interest group = .allSources := by
    cases started
    decide +kernel
  have left : (t.step error).session.phase = .requesting := by
    cases started
    decide +kernel
  have inactive : (t.step error).session.phase ≠ .active := by simp [left]
  have isOpen : (t.step error).session.phase ≠ .closed := by simp [left]
  obtain ⟨turns, before⟩ := exists_run_of_steps t₀ past []
  obtain ⟨later, after⟩ := exists_run_of_steps t₀ (past ++ [error]) []
  have leaving := (leaving_forgets_reports started turns).1 error
  have refused := (leaving_forgets_reports started later).2.2.2.2.2
  simp only [before, after, Tunnel.steps_concat] at leaving refused
  obtain ⟨silent, interest⟩ := leaving active inactive
  have kept := (congrFun (interest isOpen) group).trans wanted
  exact ⟨active, owed, left, silent, kept, refused inactive net⟩

end BusyTunnel

end MulticastTunnel
