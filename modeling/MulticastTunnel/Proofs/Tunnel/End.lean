import MulticastTunnel.Proofs.Tunnel.Leaving
import MulticastTunnel.Proofs.Tunnel.Strangers

/-!
# The end of a tunnel

A tunnel is closed by its host, or fails: when the handshake gives up, or after too many socket
errors, even while its own alarm is at work. Each time everything is stopped, and whatever is still
in progress finds that there is nothing left to do.

* `Tunnel.Over` : the tunnel has ended, and everything is stopped.
* `Tunnel.Stays` : what may still change.
* `Tunnel.Over.step`, `Tunnel.over_of_step` : one step after the end, and one that ends the tunnel.
* `Tunnel.end_is_final` : **a tunnel ends once, and nothing happens after that**.
-/

namespace MulticastTunnel

/-! ### A listener that was shut down -/

namespace Listener

/-- The listener was shut down. -/
structure Over (l : Listener) : Prop where
  closed : l.closed = true
  empty : l.groups = []
  idle : l.generalAlarm = .idle

namespace Over

variable {l : Listener}

theorem call (h : l.Over) (now : Instant) (group : Address) (c : Call) :
    ∃ error, l.call now group c = .error error := by
  rcases call_cases l now group c with ⟨permitted, -⟩ | ⟨error, -, refused⟩
  · have running := (permit_eq_ok_iff.1 permitted).2
    simp [h.closed] at running
  · exact ⟨error, refused⟩

/-- Only runs that are still at work have something left to do: they end. -/
theorem react (h : l.Over) (event : Event) : ∃ timers, (l.react event).1 = { l with timers } := by
  cases event with
  | call now group c =>
    obtain ⟨error, refused⟩ := h.call now group c
    exact ⟨l.timers, by simp [Listener.react, refused, Except.toOption]⟩
  | query now random q => exact ⟨l.timers, if_pos h.closed⟩
  | cancelPending | shutdown =>
    -- there is nothing left to be forgotten
    obtain ⟨config, groups, generalAlarm, closed, timers⟩ := l
    obtain ⟨rfl, rfl, rfl⟩ := h
    exact ⟨timers, rfl⟩
  | begin run job =>
    have unset : (l.alarm? job).bind (·.wake run) = none := by
      cases job <;> simp [alarm?, h.idle, h.empty, Groups.get?, Alarm.wake]
    simp only [Listener.react, begin, unset]
    exact ⟨_, rfl⟩
  | finish firing now =>
    -- the alarm of the run is idle or gone, so its end sets nothing
    obtain ⟨config, groups, generalAlarm, closed, timers⟩ := l
    obtain ⟨rfl, rfl, rfl⟩ := h
    obtain ⟨run, job, reports, next⟩ := firing
    cases job <;> exact ⟨_, rfl⟩

end Over

end Listener

namespace Tunnel

variable {t t' t'' : Tunnel} {now : Instant} {net : Transmit}

/-- The tunnel has ended: its session is closed, no alarm is set, and its listener was shut down. -/
structure Over (t : Tunnel) : Prop where
  status : t.status ≠ .running
  closed : t.session.phase = .closed
  unset : t.sessionAlarm = .idle
  listener : t.listener.Over

/-- The same tunnel, apart from the socket errors in a row, the counters and the registers of
runs. -/
def Stays (t t' : Tunnel) : Prop :=
  ∃ ioFailures sessionTimers timers counters, t' = { t with
    session := { t.session with ioFailures }
    sessionTimers
    listener := { t.listener with timers }
    counters }

theorem Stays.refl (t : Tunnel) : t.Stays t := ⟨_, _, _, _, rfl⟩

theorem Stays.trans (h : t.Stays t') (h' : t'.Stays t'') : t.Stays t'' := by
  obtain ⟨_, _, _, _, rfl⟩ := h
  obtain ⟨_, _, _, _, rfl⟩ := h'
  exact ⟨_, _, _, _, rfl⟩

namespace Over

theorem of_stays (h : t.Over) (stays : t.Stays t') : t'.Over := by
  obtain ⟨_, _, _, _, rfl⟩ := stays
  exact ⟨h.status, h.closed, h.unset, h.listener.closed, h.listener.empty, h.listener.idle⟩

theorem step (h : t.Over) (s : Step) : t.Stays (t.step s) := by
  obtain ⟨now, net, part, opens⟩ := s
  cases part with
  | wake run =>
    -- a run that sleeps on was superseded, and ends
    have unset : t.sessionAlarm.wake run = none := by simp [h.unset, Alarm.wake]
    simp only [Tunnel.step, fireSession, wake, unset]
    split
    · exact ⟨_, _, _, _, rfl⟩
    · exact .refl t
  | receive sender bytes =>
    have stranger : ∀ message, ¬ t.session.Expects sender message :=
      Session.not_expects_of_closed h.closed
    rw [step_receive_of_not_expects fun message _ => stranger message, ignored]
    split <;> exact ⟨0, _, _, _, rfl⟩
  | ioError error =>
    simp only [Tunnel.step, onIoError, Session.onIoError, h.closed, ↓reduceIte]
    exact .refl t
  | report report =>
    simp only [Tunnel.step, sendReport_of_not_active (t := t) (by simp [h.closed])]
    exact .refl t
  | listen event =>
    obtain ⟨timers, same⟩ := h.listener.react event
    simp only [Tunnel.step, same]
    exact ⟨_, _, _, _, rfl⟩
  | close =>
    simp only [Tunnel.step, close, h.status, ↓reduceIte]
    exact .refl t
  | _ => simp [Part.Opens] at opens

theorem steps (h : t.Over) (steps : List Step) : t.Stays (t.steps steps) := by
  induction steps generalizing t with
  | nil => exact .refl t
  | cons s steps ih => exact (h.step s).trans (ih (h.of_stays (h.step s)))

end Over

/-! ### Ways to end -/

theorem over_settle (stopped : t.Stopped t') {status : TunnelStatus} (final : status ≠ .running) :
    (t'.settle status).Over ∧ (t'.settle status).effects = t'.effects := by
  obtain ⟨status, same, ended⟩ := settle_eq t' status
  rw [same]
  have listener : t'.listener.Over := stopped.listener ▸ ⟨rfl, rfl, rfl⟩
  exact ⟨⟨ended final, stopped.closed, stopped.unset, listener⟩, rfl⟩

/-- A session that has failed ends the tunnel, and nobody is told. -/
theorem over_fail (t : Tunnel) (error : GatewayError) :
    (t.fail error).Over ∧ (t.fail error).effects = t.effects := by
  have stopped : t.Stopped t.stop := ⟨rfl, rfl, rfl, rfl⟩
  have final : TunnelStatus.failed error ≠ .running := by simp
  exact over_settle stopped final

theorem Over.rest (h : t.Over) (run : Nat) (next : Option Duration) (now : Instant) :
    (t.rest run next now).Over ∧ (t.rest run next now).effects = t.effects := by
  refine ⟨⟨h.status, h.closed, ?_, h.listener⟩, rfl⟩
  simp [Tunnel.rest, h.unset, Alarm.finish]

/-- The tunnel goes on, or it is over and nobody was told. -/
def EndsQuietly (t t' : Tunnel) : Prop :=
  t'.status = t.status ∨ t'.Over ∧ t'.effects = t.effects

theorem onIoError_ends (t : Tunnel) (now : Instant) (error : IoError) :
    t.EndsQuietly (t.onIoError now error) := by
  unfold onIoError
  dsimp only
  split
  · exact .inl rfl
  · exact .inl rfl
  · exact .inr (over_fail _ _)

theorem carryOut_ends (t : Tunnel) (net : Transmit) (now : Instant) (step : SessionStep) :
    t.EndsQuietly (t.carryOut net now step).2 := by
  cases step with
  | send message recipient next =>
    simp only [carryOut, transmit]
    cases net recipient message.encode with
    | none => exact .inl rfl
    | some error => exact onIoError_ends t now error
  | fail error => exact .inr (over_fail t error)
  | idle => exact .inl rfl

theorem wake_spec (t : Tunnel) (run : Nat) (now : Instant) :
    (t.wake run now).2.status = t.status ∧ (t.wake run now).2.effects = t.effects := by
  unfold wake
  split
  · exact ⟨rfl, rfl⟩
  · dsimp only
    split <;> split <;> exact ⟨rfl, rfl⟩

theorem fireSession_ends (t : Tunnel) (net : Transmit) (run : Nat) (now : Instant) :
    t.EndsQuietly (t.fireSession net run now) := by
  obtain ⟨status, effects⟩ := wake_spec t run now
  unfold fireSession
  generalize t.wake run now = woken at status effects ⊢
  obtain ⟨_ | step, woken⟩ := woken
  · exact .inl status
  · rcases carryOut_ends woken net now step with goesOn | ⟨finished, quiet⟩
    · exact .inl (goesOn.trans status)
    · -- the alarm was cancelled in the middle of its work, whose end does not set it again
      obtain ⟨rested, same⟩ := finished.rest run (woken.carryOut net now step).1 now
      exact .inr ⟨rested, (same.trans quiet).trans effects⟩

/-- The relay of an active session is told of the end by a teardown, before the tunnel takes its
final status. -/
def TellsRelay (t t' : Tunnel) : Prop :=
  ∃ (told : Tunnel) (relay : Endpoint) (mac : ResponseMac) (nonce : UInt32) (seen : GatewayAddress),
    t.session.phase = .active ∧ t.session.relay = some relay ∧ told.status = .running ∧
    told.effects = t.effects ++ [.sent relay (.teardown mac nonce seen)] ∧
    t' = told.settle .closed

theorem over_close (running : t.status = .running) (net : Transmit) :
    (t.close net).Over ∧
      ((t.close net).effects = t.effects ∨ t.TellsRelay (t.close net)) := by
  obtain ⟨told, closed, stopped, heard⟩ := close_cases running net
  have final : TunnelStatus.closed ≠ .running := by simp
  obtain ⟨finished, same⟩ := over_settle stopped final
  rw [closed]
  refine ⟨finished, heard.imp same.trans ?_⟩
  rintro ⟨message, relay, teardown, sent⟩
  obtain ⟨active, known, mac, nonce, seen, rfl⟩ := Session.teardown_of_teardown? teardown
  exact ⟨told, relay, mac, nonce, seen, active, known, stopped.status.trans running, sent, rfl⟩

theorem status_accept (t : Tunnel) (sender : Endpoint) (bytes : Bytes) :
    (t.accept now sender bytes).status = t.status := by
  unfold accept
  dsimp only
  split
  · rfl
  · next message _ =>
    cases message with
    | advertisement nonce relay =>
      simp only [onMessage, onAdvertisement]
      split <;> split <;> rfl
    | query limited mac nonce packet gateway =>
      simp only [onMessage, onQuery]
      split
      · rfl
      · split <;> rfl
    | data packet => exact (undisturbed_onData _ sender packet).1.status
    | _ => rfl

/-- What ends a tunnel stops everything, and tells the relay at most. -/
theorem over_of_step {s : Step} (running : t.status = .running)
    (ended : (t.step s).status ≠ .running) : (t.step s).Over ∧
      ((t.step s).effects = t.effects ∨ s.part = .close ∧ t.TellsRelay (t.step s)) := by
  have of_quiet : ∀ {t'}, t.EndsQuietly t' → t'.status ≠ .running →
      t'.Over ∧ t'.effects = t.effects :=
    fun ends ended => ends.resolve_left fun same => ended (same.trans running)
  obtain ⟨now, net, part, opens⟩ := s
  cases part with
  | wake run =>
    simp only [Tunnel.step] at ended ⊢
    split at ended
    · next asleep =>
      obtain ⟨finished, quiet⟩ := of_quiet (fireSession_ends t net run now) ended
      rw [if_pos asleep]
      exact ⟨finished, .inl quiet⟩
    · exact absurd running ended
  | receive sender bytes => exact absurd ((status_accept t sender bytes).trans running) ended
  | ioError error =>
    obtain ⟨finished, quiet⟩ := of_quiet (onIoError_ends t now error) ended
    exact ⟨finished, .inl quiet⟩
  | report report =>
    exact absurd ((undisturbed_sendReport t net report).1.status.trans running) ended
  | listen event => exact absurd running ended
  | close =>
    obtain ⟨finished, told⟩ := over_close running net
    exact ⟨finished, told.imp_right fun told => ⟨rfl, told⟩⟩
  | _ => simp [Part.Opens] at opens

/-! ### Runs -/

theorem status_start {config : Config} {random : Randomness}
    (started : Tunnel.start config random now = .ok t) : t.status = .running := by
  unfold Tunnel.start at started
  split at started
  · simp at started
  · obtain rfl := Except.ok.inj started
    rfl

theorem over_steps (running : t.status = .running) (steps : List Step)
    (ended : (t.steps steps).status ≠ .running) : (t.steps steps).Over := by
  induction steps using List.reverseRecOn with
  | nil => exact absurd running ended
  | append_singleton steps s ih =>
    rw [steps_concat] at ended ⊢
    -- it is the last step that ends the tunnel, or one before it
    by_cases before : (t.steps steps).status = .running
    · exact (over_of_step before ended).1
    · exact (ih before).of_stays ((ih before).step s)

/-- A tunnel between two steps runs as long as its session is open. -/
theorem open_of_running {config : Config} {random : Randomness}
    (started : Tunnel.start config random now = .ok t) (steps : List Step)
    (running : (t.steps steps).status = .running) : (t.steps steps).session.phase ≠ .closed := by
  obtain ⟨turns, same⟩ := BusyTunnel.exists_run_of_steps t steps []
  have attended := BusyTunnel.attended_run (b := ⟨t, []⟩) (.start started) turns
  rw [same] at attended
  intro closed
  -- otherwise somebody would be about to end it
  obtain ⟨part, pending, -⟩ := attended.ending running (.inl closed)
  simp at pending

/-- **A tunnel ends once, and nothing happens after that.** Whatever steps a tunnel has taken, it is
running as long as its session is open. If it is not, no alarm is set, and its listener is closed
and empty. Whatever comes then changes nothing but the socket errors in a row, the counters and the
registers of runs: the status is final, nothing is sent or handed to the sink, and every call of the
host is refused. The step that ends a tunnel tells nobody, unless it is a call that closes an active
tunnel: that may send one teardown to the relay, before the status changes. -/
theorem end_is_final {config : Config} {random : Randomness} {start : Instant} {t₀ : Tunnel}
    (started : Tunnel.start config random start = .ok t₀) (past : List Step) :
    let t := t₀.steps past
    (t.status = .running ↔ t.session.phase ≠ .closed) ∧
    (t.status ≠ .running → t.Over ∧ ∀ future, t.Stays (t.steps future) ∧
      ∀ now group call, ∃ error,
        (t.steps future).listener.call now group call = .error error) ∧
    ∀ s : Step, t.status = .running → (t.step s).status ≠ .running →
      (t.step s).effects = t.effects ∨ s.part = .close ∧ t.TellsRelay (t.step s) := by
  intro t
  have finished (ended : t.status ≠ .running) : t.Over :=
    over_steps (status_start started) past ended
  refine ⟨⟨open_of_running started past, fun isOpen => ?_⟩, fun ended => ⟨finished ended, ?_⟩,
    fun s running ended => (over_of_step running ended).2⟩
  · by_contra ended
    exact isOpen (finished ended).closed
  · intro future
    have stays := (finished ended).steps future
    exact ⟨stays, ((finished ended).of_stays stays).listener.call⟩

/-- The first discovery message can not be sent, which is one socket error too many. The tunnel
fails while its alarm is at work, and stays so. -/
theorem end_is_final_unsentDiscovery :
    let config :=
      { Config.standard (.of (.ofOctets 192 0 2 1) tunnelPort) with maxIoFailures := 1 }
    let random := Randomness.fresh (fun _ => 7) (fun _ => 0)
    let lost : IoError := ⟨"NetworkUnreachable", ""⟩
    let first : Step := ⟨0, fun _ _ => some lost, .wake 0, rfl⟩
    ∃ t, Tunnel.start config random 0 = .ok t ∧ t.status = .running ∧
      (t.step first).status = .failed (.socketIo lost) ∧ (t.step first).effects = t.effects ∧
      (t.step first).Over ∧
      ∀ future, ((t.step first).steps future).status = .failed (.socketIo lost) := by
  intro config random lost first
  obtain ⟨t, started⟩ : ∃ t, Tunnel.start config random 0 = .ok t := ⟨_, rfl⟩
  have running : t.status = .running := by
    cases started
    decide
  have failed : (t.step first).status = .failed (.socketIo lost) := by
    cases started
    decide +kernel
  have ended : (t.step first).status ≠ .running := by simp [failed]
  have quiet := (end_is_final started []).2.2 first running ended
  obtain ⟨finished, final⟩ := (end_is_final started [first]).2.1 ended
  refine ⟨t, started, running, failed, quiet.resolve_right (by simp [first]), finished, ?_⟩
  intro future
  obtain ⟨_, _, _, _, same⟩ := (final future).1
  exact (congrArg Tunnel.status same).trans failed

end Tunnel

end MulticastTunnel
