import MulticastTunnel.Proofs.Attempts
import MulticastTunnel.Proofs.Listener.Due
import MulticastTunnel.Proofs.Tunnel.Steps

/-!
# Tunnels on a clock that ends

A tunnel sets alarms, and its session notes when refresh and discovery are due. If the clock can not
show the time, then whoever works on the tunnel breaks off, and what was to follow is never done.
That may leave a running tunnel without an alarm. Nothing else does.

* `Tunnel.brokenOff` : what a part leaves behind that breaks off.
* `Tunnel.appoints` : the times that a part sets alarms to, or that it notes;
  `Tunnel.Sound.fits_perform` : no part breaks off for another reason.
* `Tunnel.fireSessionWithin_of_fits`, `Tunnel.fireReportsWithin_of_fits` : whole runs of alarms on
  such a clock.
* `BusyTunnel.attempts` : the turns of a tunnel, with a clock that ends.
* `BusyTunnel.session_alarm_is_set` : **a running tunnel at rest has its alarm set**, as long as
  nothing breaks off.
-/

namespace MulticastTunnel

namespace Tunnel

variable {t : Tunnel} {now last : Instant} {net : Transmit} {part : Part}

theorem fits_iff : t.fits last ↔
    t.sessionTimers.fits last ∧ t.session.fits last ∧ t.listener.timers.fits last := by
  simp [fits, and_assoc]

/-- What a part leaves of a tunnel if it breaks off. -/
def brokenOff (last : Instant) (t : Tunnel) (now : Instant) : Part → Tunnel
  | .consult _ =>
    { t with session := t.session.brokenOff last (.timer now t.random.nonce) }
  | .rest _ _ => { t with sessionAlarm := .idle }
  | .heed sender (.query _ mac nonce packet gateway) =>
    match Query.decode packet with
    | .error _ => t
    | .ok q =>
      { t with
        session := t.session.brokenOff last (.query sender nonce mac gateway q.interval now) }
  | .askListener q =>
    { t.askListener now q with
      listener := t.listener.leftBy (.query now t.random.delay q) }
  | .listen event => { t with listener := t.listener.leftBy event }
  | _ => t

/-- The times that a part sets alarms to, or that it notes. -/
def appoints (t : Tunnel) (now : Instant) : Part → List Instant
  | .consult _ => t.session.postpones (.timer now t.random.nonce)
  | .rest _ next => (next.map (now + ·)).toList
  | .setAlarm delay => [now + delay]
  | .heed sender (.query _ mac nonce packet gateway) =>
    match Query.decode packet with
    | .error _ => []
    | .ok q => t.session.postpones (.query sender nonce mac gateway q.interval now)
  | .askListener q => (t.listener.sets? (.query now t.random.delay q)).toList
  | .listen event => (t.listener.sets? event).toList
  | _ => []

/-! ### Why a part breaks off -/

variable {config : Config}

theorem Sound.fits_respond (h : t.Sound config) (fits : t.session.fits last)
    (counted : config.maxHandshakeRestarts + 1 < 0x100000000) {input : Session.Input}
    (inTime : ∀ time ∈ t.session.postpones input, time ≤ last) :
    (t.session.respond input).2.fits last := by
  refine (Session.respond_responds t.session input).fits fits (fun isOpen => ?_) inTime
  have restarts := h.coherent.restarts isOpen
  rw [h.session] at restarts
  exact Nat.lt_of_le_of_lt (Nat.succ_le_succ restarts) counted

theorem Sound.fits_react (h : t.Sound config) (fits : t.listener.timers.fits last)
    {event : Listener.Event} (inTime : ∀ due, t.listener.sets? event = some due → due ≤ last) :
    (t.listener.react event).1.timers.fits last :=
  Timers.fits_iff.2 (Listener.dueIn_react (Timers.fits_iff.1 fits) h.tidy inTime)

/-- **A part breaks off only for a time that the clock can not show**, as long as restarts can be
counted. -/
theorem Sound.fits_perform (h : t.Sound config) (fits : t.fits last)
    (counted : config.maxHandshakeRestarts + 1 < 0x100000000)
    (inTime : ∀ time ∈ t.appoints now part, time ≤ last) :
    (t.perform now net part).1.fits last := by
  obtain ⟨timers, session, listener⟩ := fits_iff.1 fits
  have respond (input : Session.Input) (inTime : ∀ time ∈ t.session.postpones input, time ≤ last) :
      (t.session.respond input).2.fits last := h.fits_respond session counted inTime
  have react (event : Listener.Event)
      (inTime : ∀ time ∈ (t.listener.sets? event).toList, time ≤ last) :
      (t.listener.react event).1.timers.fits last :=
    h.fits_react listener fun due set => inTime due (by simp [set])
  -- times are noted by the session, by the listener, and for the alarm of the session
  cases part with
  | wake run =>
    simp only [Tunnel.perform]
    split
    · have dueIn := Timers.fits_iff.1 timers
      split
      · exact fits_iff.2 ⟨Timers.fits_iff.2 (dueIn.remove run), session, listener⟩
      · exact fits_iff.2 ⟨Timers.fits_iff.2 (dueIn.setPhase run (by simp)), session, listener⟩
    · exact fits
  | consult run =>
    obtain ⟨random, counters, same⟩ := consulted_eq t now
    simp only [Tunnel.perform, same]
    exact fits_iff.2 ⟨timers, respond (.timer now t.random.nonce) inTime, listener⟩
  | rest run next =>
    refine fits_iff.2 ⟨Timers.fits_iff.2 ?_, session, listener⟩
    exact Alarm.dueIn_finish (Timers.fits_iff.1 timers) _ _ fun delay again =>
      inTime _ (by simp [appoints, again])
  | setAlarm delay =>
    refine fits_iff.2 ⟨Timers.fits_iff.2 ?_, session, listener⟩
    exact Alarm.dueIn_setAt (Timers.fits_iff.1 timers) _ _ (inTime _ List.mem_cons_self)
  | stopAlarm teardown error? =>
    refine fits_iff.2 ⟨Timers.fits_iff.2 ?_, session, listener⟩
    exact (Timers.fits_iff.1 timers).fewer (t.sessionAlarm.withdraw_sublist _)
  -- what goes to the socket or comes from it sets no time
  | transmit message recipient | tell message recipient | submit update relay =>
    simp only [Tunnel.perform]
    split <;> exact fits
  | receive sender bytes =>
    simp only [Tunnel.perform]
    split <;> exact fits
  | heed sender message =>
    cases message with
    | advertisement nonce relay =>
      have answered := respond (.advertisement nonce relay) (by simp [Session.postpones])
      exact fits_iff.2 ⟨timers, answered, listener⟩
    | query limited mac nonce packet gateway =>
      simp only [Tunnel.perform]
      split
      · exact fits
      · next q decoded =>
        rw [appoints, decoded] at inTime
        have answered := respond (.query sender nonce mac gateway q.interval now) inTime
        exact fits_iff.2 ⟨timers, answered, listener⟩
    | data packet =>
      simp only [Tunnel.perform, onData]
      split
      · split <;> exact fits
      · exact fits
    | _ => exact fits
  | ioError error =>
    have answered := respond (.ioError error) (by simp [Session.postpones])
    exact fits_iff.2 ⟨timers, answered, listener⟩
  | askListener q =>
    exact fits_iff.2 ⟨timers, session, react (.query now t.random.delay q) inTime⟩
  | listen event => exact fits_iff.2 ⟨timers, session, react event inTime⟩
  -- forgetting and shutting down only take times away
  | cancelPending =>
    have cancelled := react .cancelPending (by simp [Listener.sets?])
    exact fits_iff.2 ⟨timers, session, cancelled⟩
  | stopListener teardown error? =>
    have shut := react .shutdown (by simp [Listener.sets?])
    exact fits_iff.2 ⟨timers, session, shut⟩
  | settle error? =>
    obtain ⟨final, same, -⟩ := settle_eq t (error?.elim .closed .failed)
    simp only [Tunnel.perform, same]
    exact fits
  | _ => exact fits

/-- The alarm of the session goes off as if the clock did not end, if it can show the times. -/
theorem fireSessionWithin_of_fits {run : Nat} (noted : (t.wake run now).2.session.fits last)
    (set : (t.fireSession net run now).sessionTimers.fits last) :
    t.fireSessionWithin last net run now = t.fireSession net run now := by
  unfold fireSessionWithin
  unfold fireSession at set ⊢
  generalize t.wake run now = woken at noted set ⊢
  obtain ⟨_ | step, woken⟩ := woken
  · rfl
  · exact (if_pos noted).trans (if_pos set)

theorem fireReportsWithin_of_fits {run : Nat} {job : ReportJob}
    (set : (t.fireReports net run job now).listener.timers.fits last) :
    t.fireReportsWithin last net run job now = t.fireReports net run job now := by
  unfold fireReportsWithin
  unfold fireReports at set ⊢
  generalize t.listener.begin run job = begun at set ⊢
  obtain ⟨listener, _ | firing⟩ := begun
  · rfl
  · dsimp only [Listener.finishWithin] at set ⊢
    rw [if_pos set]

theorem fits_of_start {random : Randomness} (started : Tunnel.start config random now = .ok t)
    (inTime : now ≤ last) : t.fits last := by
  unfold Tunnel.start at started
  split at started
  · simp at started
  · obtain rfl := Except.ok.inj started
    have empty : (Timers.empty (J := Unit)).DueIn (· ≤ last) := fun r hr => by cases hr
    exact fits_iff.2 ⟨Timers.fits_iff.2 (empty.spawn () inTime), rfl, rfl⟩

end Tunnel

namespace BusyTunnel

open Tunnel (Part)

/-- What a turn leaves behind if it breaks off. What the part would lead to is not pending. -/
def brokenOff (last : Instant) (b : BusyTunnel) : Turn → BusyTunnel
  | .opening now _ part => ⟨b.tunnel.brokenOff last now part, b.pending⟩
  | .proceeding now _ part => ⟨b.tunnel.brokenOff last now part, b.pending.erase part⟩

/-- The turns of tunnels whose clock ends at `last`. -/
def attempts (last : Instant) : Attempts BusyTunnel Turn where
  result := turn
  fits b := b.tunnel.fits last
  left := brokenOff last

/-- The times that a turn sets alarms to, or that it notes. -/
def appoints (b : BusyTunnel) : Turn → List Instant
  | .opening now _ part | .proceeding now _ part => b.tunnel.appoints now part

variable {config : Config} {b : BusyTunnel} {last : Instant}

theorem attempt (sound : b.tunnel.Sound config) (fits : b.tunnel.fits last)
    (counted : config.maxHandshakeRestarts + 1 < 0x100000000) {next : Turn}
    (inTime : ∀ time ∈ b.appoints next, time ≤ last) :
    (attempts last).one b next = .ok (b.turn next) := by
  refine Attempts.one_of_fits ?_
  show (b.turn next).tunnel.fits last
  cases next with
  | opening now net part =>
    simp only [turn]
    split
    · exact sound.fits_perform fits counted inTime
    · exact fits
  | proceeding now net part =>
    simp only [turn]
    split
    · exact sound.fits_perform fits counted inTime
    · exact fits

/-- **The alarm of the session never gets lost**, as long as nothing breaks off. Whatever happens to
a tunnel after its start, in any order and with any behaviour of the socket: whenever no work is in
progress and the tunnel is running, its session is looking for a relay, asking for a tunnel or
active, and its alarm is set and has a run that sleeps until it is due.

Nothing breaks off if the clock can show the times that are appointed, and restarts can be
counted. -/
theorem session_alarm_is_set {random : Randomness} {now : Instant} {t : Tunnel}
    (started : Tunnel.start config random now = .ok t) {turns : List Turn}
    (reached : (attempts last).all ⟨t, []⟩ turns = .ok b) :
    (b.pending = [] → b.tunnel.status = .running →
      (b.tunnel.session.phase = .discovering ∨ b.tunnel.session.phase = .requesting ∨
        b.tunnel.session.phase = .active) ∧
      ∃ run due, b.tunnel.sessionAlarm = .waiting run due ∧
        ⟨run, (), .asleep due⟩ ∈ b.tunnel.sessionTimers.live) ∧
    (now ≤ last → config.maxHandshakeRestarts + 1 < 0x100000000 →
      ∀ next, (∀ time ∈ b.appoints next, time ≤ last) →
        (attempts last).one b next = .ok (b.turn next)) := by
  obtain rfl : run ⟨t, []⟩ turns = b := Attempts.foldl_of_all reached
  refine ⟨fun atRest running => ?_, fun inTime counted next => ?_⟩
  · have attended := attended_run (b := ⟨t, []⟩) (Tunnel.Attended.start started) turns
    rcases alarm_set_or_at_work attended running with ⟨part, hpart, -⟩ | ⟨isOpen, set | atWork⟩
    · simp [atRest] at hpart
    · refine ⟨?_, set⟩
      cases phase : (run ⟨t, []⟩ turns).tunnel.session.phase <;> simp_all
    · obtain ⟨part, hpart, -⟩ := atWork
      simp [atRest] at hpart
  · have fits := Attempts.fits_of_all reached (Tunnel.fits_of_start started inTime)
    exact attempt (sound_run started turns) fits counted

/-- The first run of the alarm has sent a discovery message, and is still at work when it is
answered; the alarm is set anew, and the end of that work does not count. -/
def overtaken (config : Config) (relay : Address) : List Turn :=
  let net : Transmit := fun _ _ => none
  let discovery := Message.discovery 7
  let advertisement := Message.advertisement 7 relay
  let sender := Endpoint.of relay tunnelPort
  [.opening 0 net (.wake 0), .proceeding 0 net (.consult 0),
    .proceeding 0 net (.transmit discovery config.discoveryAddress),
    .opening 5 net (.receive sender advertisement.encode),
    .proceeding 5 net (.heed sender advertisement), .proceeding 5 net (.setAlarm 0),
    .proceeding 9 net (.rest 0 (some (Backoff.start config.discoveryBackoff).upcoming)),
    .proceeding 9 net .ioSuccess]

theorem session_alarm_is_set_overtaken :
    let config := Config.standard (.of (.ofOctets 192 0 2 1) tunnelPort)
    let random := Randomness.fresh (fun _ => 7) (fun _ => 0)
    let turns := overtaken config (.ofOctets 192 0 2 7)
    ∃ t b, Tunnel.start config random 0 = .ok t ∧ (attempts .last).all ⟨t, []⟩ turns = .ok b ∧
      b.pending = [] ∧ b.tunnel.status = .running ∧ b.tunnel.session.phase = .requesting ∧
      ∃ r due, b.tunnel.sessionAlarm = .waiting r due ∧
        ⟨r, (), .asleep due⟩ ∈ b.tunnel.sessionTimers.live := by
  intro config random turns
  obtain ⟨t, started⟩ : ∃ t, Tunnel.start config random 0 = .ok t := ⟨_, rfl⟩
  have reached : (attempts .last).all ⟨t, []⟩ turns = .ok (run ⟨t, []⟩ turns) := by
    refine Attempts.all_eq_ok_of_isOk ?_
    cases started
    decide +kernel
  have atRest : (run ⟨t, []⟩ turns).pending = [] := by
    cases started
    decide
  have running : (run ⟨t, []⟩ turns).tunnel.status = .running := by
    cases started
    decide
  have phase : (run ⟨t, []⟩ turns).tunnel.session.phase = .requesting := by
    cases started
    decide
  obtain ⟨set, -⟩ := session_alarm_is_set started reached
  exact ⟨t, _, started, reached, atRest, running, phase, (set atRest running).2⟩

/-- The first run of the alarm sends a discovery message. -/
def firstRun (config : Config) : List Turn :=
  let net : Transmit := fun _ _ => none
  [.opening 0 net (.wake 0), .proceeding 0 net (.consult 0),
    .proceeding 0 net (.transmit (.discovery 7) config.discoveryAddress),
    .proceeding 0 net .ioSuccess]

/-- If discovery messages are to be sent with the longest delays, the alarm is lost with the first
one: its run breaks off where it is to set the alarm again, and nothing ever ends the tunnel. -/
theorem session_alarm_is_lost :
    let config := { Config.standard (.of (.ofOctets 192 0 2 1) tunnelPort) with
      discoveryBackoff := ⟨.longest, .longest, 16⟩ }
    let random := Randomness.fresh (fun _ => 7) (fun _ => 0)
    ∃ t b left, Tunnel.start config random 0 = .ok t ∧
      (attempts .last).all ⟨t, []⟩ (firstRun config) = .ok b ∧
      b.pending = [.rest 0 (some .longest)] ∧
      (attempts .last).one b (.proceeding 0 (fun _ _ => none) (.rest 0 (some .longest))) =
        .error left ∧
      left.pending = [] ∧ left.tunnel.status = .running ∧
      left.tunnel.session.phase = .discovering ∧ left.tunnel.sessionAlarm = .idle := by
  intro config random
  obtain ⟨t, started⟩ : ∃ t, Tunnel.start config random 0 = .ok t := ⟨_, rfl⟩
  have reached : ((attempts .last).all ⟨t, []⟩ (firstRun config)).isOk := by
    cases started
    decide +kernel
  have late : (attempts .last).fits ((attempts .last).result (run ⟨t, []⟩ (firstRun config))
      (.proceeding 0 (fun _ _ => none) (.rest 0 (some .longest)))) = false := by
    cases started
    decide +kernel
  refine ⟨t, _, _, started, Attempts.all_eq_ok_of_isOk reached, ?_, Attempts.one_of_not_fits late,
    ?_, ?_, ?_, ?_⟩ <;>
    · cases started
      decide +kernel

end BusyTunnel

end MulticastTunnel
