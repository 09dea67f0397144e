import MulticastTunnel.Proofs.Listener.Records
import MulticastTunnel.Proofs.Tunnel.Alarm

/-!
# The steps of a tunnel

A step is everything that comes of one happening, done before anything else happens: a whole run of
the session's alarm, a datagram or a socket error and all that follows from it, a call. The work of
a tunnel in progress may be interrupted (`BusyTunnel`), but some things can only be said of steps.

* `Tunnel.step`, `Tunnel.steps` : the steps, each one the uninterrupted work of a part
  (`Tunnel.step_completes`).
* `Tunnel.Touches` : what a part can do to a tunnel (`Tunnel.perform_touches`).
* `Tunnel.Follows` : what is to be done after a part (`Tunnel.perform_follows`).
* `Tunnel.Stopped` : what failures and calls to close have in common.
* `Tunnel.Sound` : what holds of every tunnel, whatever is in progress (`BusyTunnel.sound_run`).
-/

namespace MulticastTunnel

namespace Tunnel

variable {t t' t'' : Tunnel} {now : Instant} {net : Transmit}

/-! ### Steps -/

/-- Something that happens to a tunnel, and what the socket does meanwhile. -/
structure Step where
  now : Instant
  net : Transmit
  part : Part
  opens : part.Opens = true := by rfl

/-- Everything that comes of what happens. -/
def step (t : Tunnel) (s : Step) : Tunnel :=
  match s.part with
  | .wake run => if t.sessionTimers.Asleep run () then t.fireSession s.net run s.now else t
  | .receive sender bytes => t.accept s.now sender bytes
  | .ioError error => t.onIoError s.now error
  | .report report => (t.sendReport s.net report).2
  | .listen event => { t with listener := (t.listener.react event).1 }
  | .close => t.close s.net
  | _ => t

/-- One step after the other. -/
def steps (t : Tunnel) (steps : List Step) : Tunnel := steps.foldl step t

theorem steps_concat (steps : List Step) (s : Step) :
    t.steps (steps ++ [s]) = (t.steps steps).step s := by
  simp [Tunnel.steps]

/-- The wake-up of a run of the listener, the reports that it sends and its end are steps. -/
theorem exists_steps_of_fireReports (t : Tunnel) (net : Transmit) (run : Nat) (job : ReportJob)
    (now : Instant) : ∃ steps, t.steps steps = t.fireReports net run job now := by
  let woken : Step := ⟨now, net, .listen (.begin run job), rfl⟩
  have step_woken : t.step woken = { t with listener := (t.listener.begin run job).1 } := rfl
  unfold fireReports
  generalize t.listener.begin run job = answer at step_woken ⊢
  obtain ⟨listener, _ | firing⟩ := answer
  -- the run was cancelled before it woke up
  · exact ⟨[woken], step_woken⟩
  · let reports : List Step := firing.reports.map fun report => ⟨now, net, .report report, rfl⟩
    let finished : Step := ⟨now, net, .listen (.finish firing now), rfl⟩
    have sent : ∀ t : Tunnel, t.steps reports = t.sendReports net firing.reports := by
      intro t
      simp only [steps, reports, List.foldl_map, sendReports, step]
    refine ⟨woken :: reports ++ [finished], ?_⟩
    rw [steps_concat]
    change ((t.step woken).steps reports).step finished = _
    rw [sent, step_woken]
    rfl

theorem Completes.unique {parts : List Part} (h : Completes now net parts t t')
    (h' : Completes now net parts t t'') : t' = t'' := by
  induction h with
  | done t =>
    cases h'
    rfl
  | part _ ih =>
    obtain _ | next := h'
    exact ih next

theorem step_completes (t : Tunnel) (s : Step) :
    Completes s.now s.net [s.part] t (t.step s) := by
  obtain ⟨now, net, part, opens⟩ := s
  cases part with
  | wake run =>
    simp only [step]
    split
    · next asleep => exact fireSession_completes t asleep
    · next other =>
      refine .single ?_
      simp only [perform, other, ↓reduceIte]
      exact .done _
  | receive sender bytes => exact accept_completes t sender bytes
  | ioError error => exact onIoError_completes t error
  | report report => exact sendReport_completes t report
  | listen event => exact .part (.done _)
  | close => exact close_completes t
  | _ => simp [Part.Opens] at opens

/-! ### What a part can do -/

theorem consulted_eq (t : Tunnel) (now : Instant) : ∃ random counters,
    t.consulted now =
      { t with session := (t.session.onTimer now t.random.nonce).2, random, counters } := by
  unfold consulted
  dsimp only
  split <;> exact ⟨_, _, rfl⟩

/-- What a part can do to a tunnel. -/
inductive Touches (t : Tunnel) (part : Part) : Tunnel → Prop where
  | counted (counters : Counters) : Touches t part { t with counters }
  /-- The session is told something. -/
  | session (input : Session.Input) (random : Randomness) (counters : Counters) :
      Touches t part { t with session := (t.session.respond input).2, random, counters }
  /-- The listener is told something. -/
  | listener (event : Listener.Event) (random : Randomness) :
      Touches t part { t with listener := (t.listener.react event).1, random }
  | alarm (sessionTimers : Timers Unit) (sessionAlarm : Alarm) :
      Touches t part { t with sessionTimers, sessionAlarm }
  /-- The message that the part carries is sent. -/
  | sent {message : Message} {recipient : Endpoint}
      (carried : part = .transmit message recipient ∨ part = .tell message recipient ∨
        part = .submit message recipient) :
      Touches t part { t with effects := t.effects ++ [.sent recipient message] }
  | unsent (error : IoError) : Touches t part { t with errors := t.errors ++ [error] }
  | handed (active : t.session.phase = .active) (datagram : Datagram) (taken : Bool)
      (sink : Queue Datagram) (counters : Counters) :
      Touches t part
        { t with sink, counters, effects := t.effects ++ [.handed datagram taken] }
  | settled {error? : Option GatewayError} (final : part = .settle error?)
      (running : t.status = .running) :
      Touches t part { t with status := error?.elim .closed .failed }

theorem onData_touches (t : Tunnel) (part : Part) (sender : Endpoint) (packet : Bytes) :
    Touches t part (t.onData sender packet) := by
  unfold onData
  split
  · next expected =>
    split
    · exact .counted _
    · exact .handed expected.1 _ _ _ _
  · exact .counted _

/-- A session that is not active has nobody to report to. -/
theorem sendReport_of_not_active (inactive : t.session.phase ≠ .active) (net : Transmit)
    (report : Report) : t.sendReport net report = (.refused .notConnected, t) := by
  simp [sendReport, compose, Session.updateTarget?, inactive]

theorem perform_touches (t : Tunnel) (now : Instant) (net : Transmit) (part : Part) :
    Touches t part (t.perform now net part).1 := by
  cases part with
  | wake run =>
    simp only [perform]
    split
    · split <;> exact .alarm _ _
    · exact .counted _
  | consult run =>
    obtain ⟨random, counters, same⟩ := consulted_eq t now
    simp only [perform, same]
    exact .session (.timer now t.random.nonce) random counters
  | rest run next | setAlarm delay | stopAlarm teardown error? => exact .alarm _ _
  | cancelPending => exact .listener .cancelPending _
  | transmit message recipient =>
    simp only [perform]
    split
    · exact .counted _
    · exact .sent (.inl rfl)
  | tell message recipient =>
    simp only [perform]
    split
    · exact .counted _
    · exact .sent (.inr (.inl rfl))
  | ioSuccess => exact .session .ioSuccess _ _
  | ioError error => exact .session (.ioError error) _ _
  | receive sender bytes =>
    simp only [perform]
    split <;> exact .session .ioSuccess _ _
  | heed sender message =>
    cases message with
    | advertisement nonce relay => exact .session (.advertisement nonce relay) _ _
    | query limited mac nonce packet gateway =>
      simp only [perform]
      split
      · exact .counted _
      · next q _ => exact .session (.query sender nonce mac gateway q.interval now) _ _
    | data packet => exact onData_touches t _ sender packet
    | _ => exact .counted _
  | askListener q => exact .listener (.query now t.random.delay q) _
  | report report | reported => exact .counted _
  -- an update is lost or sent, and the session does not hear of a loss
  | submit update relay =>
    simp only [perform]
    split
    · exact .unsent _
    · exact .sent (.inr (.inr rfl))
  | listen event => exact .listener event _
  | close => exact .counted _
  | stop error? => exact .session .close _ _
  | stopListener teardown error? => exact .listener .shutdown _
  | settle error? =>
    simp only [perform, settle]
    split
    · next running => exact .settled rfl running
    · exact .counted _

/-! ### What a part leads to -/

/-- What is to be done after a part. -/
inductive Follows (t : Tunnel) (now : Instant) : Part → Part → Prop
  | consult {run : Nat} : Follows t now (.wake run) (.consult run)
  | carryOut {run : Nat} {next : Part}
      (said : next ∈ Part.ofStep run (t.session.onTimer now t.random.nonce).1) :
      Follows t now (.consult run) next
  | cancelPending {part : Part} : Follows t now part .cancelPending
  | setAlarm {part : Part} {delay : Duration} : Follows t now part (.setAlarm delay)
  | ioSuccess {part : Part} : Follows t now part .ioSuccess
  | ioError {message : Message} {recipient : Endpoint} {error : IoError} :
      Follows t now (.transmit message recipient) (.ioError error)
  | heed {sender : Endpoint} {bytes : Bytes} {message : Message} :
      Follows t now (.receive sender bytes) (.heed sender message)
  | askListener {part : Part} {query : Query} : Follows t now part (.askListener query)
  | submit {report : Report} {update : Message} {relay : Endpoint}
      (composed : t.compose report = .ok (update, relay)) :
      Follows t now (.report report) (.submit update relay)
  | reported {part : Part} : Follows t now part .reported
  | stop {part : Part} {error? : Option GatewayError} : Follows t now part (.stop error?)
  | stopAlarm {error? : Option GatewayError} : Follows t now (.stop error?)
      (.stopAlarm (if error?.isNone then t.session.teardown? else none) error?)
  | stopListener {teardown : Option (Message × Endpoint)} {error? : Option GatewayError} :
      Follows t now (.stopAlarm teardown error?) (.stopListener teardown error?)
  | tell {message : Message} {recipient : Endpoint} {error? : Option GatewayError} :
      Follows t now (.stopListener (some (message, recipient)) error?) (.tell message recipient)
  | settle {teardown : Option (Message × Endpoint)} {error? : Option GatewayError} :
      Follows t now (.stopListener teardown error?) (.settle error?)

theorem perform_follows {part next : Part} (h : next ∈ (t.perform now net part).2) :
    Follows t now part next := by
  have forgets {left : Prop} [Decidable left]
      (h : next ∈ if left then [Part.cancelPending] else []) : next = .cancelPending := by
    split at h <;> simp_all
  cases part with
  | wake run =>
    simp only [perform] at h
    split at h
    · split at h
      · cases h
      · obtain rfl := List.mem_singleton.1 h
        exact .consult
    · cases h
  | consult run =>
    rcases List.mem_append.1 h with left | said
    · exact forgets left ▸ .cancelPending
    · exact .carryOut said
  | transmit message recipient =>
    simp only [perform] at h
    split at h
    · exact List.mem_singleton.1 h ▸ .ioError
    · exact List.mem_singleton.1 h ▸ .ioSuccess
  | tell message recipient =>
    simp only [perform] at h
    split at h
    · cases h
    · exact List.mem_singleton.1 h ▸ .ioSuccess
  | ioError error =>
    simp only [perform] at h
    split at h
    · cases h
    · rcases List.mem_pair.1 h with rfl | rfl
      · exact .cancelPending
      · exact .setAlarm
    · exact List.mem_singleton.1 h ▸ .stop
  | receive sender bytes =>
    simp only [perform] at h
    split at h
    · cases h
    · exact List.mem_singleton.1 h ▸ .heed
  | heed sender message =>
    cases message with
    | advertisement nonce relay =>
      simp only [perform] at h
      generalize t.session.onAdvertisement nonce relay = answer at h
      obtain ⟨accepted, session⟩ := answer
      rcases List.mem_append.1 h with left | requests
      · exact forgets left ▸ .cancelPending
      · cases accepted with
        | false => cases requests
        | true => exact List.mem_singleton.1 requests ▸ .setAlarm
    | query limited mac nonce packet gateway =>
      simp only [perform] at h
      split at h
      · cases h
      · dsimp only at h
        split at h
        · cases h
        · rcases List.mem_pair.1 h with rfl | rfl
          · exact .setAlarm
          · exact .askListener
        · exact List.mem_singleton.1 h ▸ .askListener
    | _ => cases h
  | report report =>
    simp only [perform] at h
    split at h
    · next composed =>
      obtain rfl := List.mem_singleton.1 h
      exact .submit composed
    · cases h
  | submit update relay =>
    simp only [perform] at h
    split at h
    · cases h
    · rcases List.mem_pair.1 h with rfl | rfl
      · exact .ioSuccess
      · exact .reported
  | close =>
    simp only [perform] at h
    split at h
    · exact List.mem_singleton.1 h ▸ .stop
    · cases h
  | stop error? => exact List.mem_singleton.1 h ▸ .stopAlarm
  | stopAlarm teardown error? => exact List.mem_singleton.1 h ▸ .stopListener
  | stopListener teardown error? =>
    -- the relay is told before the end is noted
    rcases List.mem_append.1 h with told | final
    · obtain ⟨⟨message, recipient⟩, rfl, rfl⟩ := Option.map_eq_some_iff.1 (Option.mem_toList.1 told)
      exact .tell
    · exact List.mem_singleton.1 final ▸ .settle
  | _ => cases h

/-! ### Stopping -/

/-- The work of a tunnel was stopped for good. -/
structure Stopped (t t' : Tunnel) : Prop where
  status : t'.status = t.status
  closed : t'.session.phase = .closed
  unset : t'.sessionAlarm = .idle
  listener : t'.listener = t.listener.shutdown

/-- A tunnel that is closed stops its work. The relay may be told of it before the tunnel takes its
final status. -/
theorem close_cases (running : t.status = .running) (net : Transmit) : ∃ told,
    t.close net = told.settle .closed ∧ t.Stopped told ∧
      (told.effects = t.effects ∨ ∃ message recipient,
        t.session.teardown? = some (message, recipient) ∧
          told.effects = t.effects ++ [.sent recipient message]) := by
  simp only [close, running, ↓reduceIte]
  -- whether there is a relay to tell, and whether the message can be sent
  cases t.session.teardown? with
  | none => exact ⟨t.stop, rfl, ⟨rfl, rfl, rfl, rfl⟩, .inl rfl⟩
  | some teardown =>
    obtain ⟨message, recipient⟩ := teardown
    simp only [transmit]
    cases net recipient message.encode with
    | none => exact ⟨_, rfl, ⟨rfl, rfl, rfl, rfl⟩, .inr ⟨message, recipient, rfl, rfl⟩⟩
    | some error => exact ⟨t.stop, rfl, ⟨rfl, rfl, rfl, rfl⟩, .inl rfl⟩

theorem settle_eq (t : Tunnel) (status : TunnelStatus) : ∃ final,
    t.settle status = { t with status := final } ∧ (status ≠ .running → final ≠ .running) := by
  unfold settle
  split
  · exact ⟨status, rfl, id⟩
  · next ended => exact ⟨t.status, rfl, fun _ => ended⟩

/-! ### What holds of every tunnel -/

/-- The parts of a tunnel have the same settings, and each of them is in order. -/
structure Sound (config : Config) (t : Tunnel) : Prop where
  settings : t.config = config
  session : t.session.config = config
  coherent : t.session.Coherent
  tidy : t.listener.Tidy

namespace Sound

variable {config : Config}

theorem start {random : Randomness} (started : Tunnel.start config random now = .ok t) :
    t.Sound config := by
  unfold Tunnel.start at started
  split at started
  · simp at started
  · obtain rfl := Except.ok.inj started
    exact ⟨rfl, rfl, .start config, .start config⟩

theorem respond (h : t.Sound config) (input : Session.Input) (random : Randomness)
    (counters : Counters) :
    Sound config { t with session := (t.session.respond input).2, random, counters } where
  settings := h.settings
  session := (Exchange.config_after ⟨t.session, input⟩).trans h.session
  coherent := h.coherent.responds (Session.respond_responds t.session input)
  tidy := h.tidy

theorem perform (h : t.Sound config) (now : Instant) (net : Transmit) (part : Part) :
    (t.perform now net part).1.Sound config := by
  have touches := perform_touches t now net part
  generalize (t.perform now net part).1 = t' at touches ⊢
  cases touches with
  | session input random counters => exact h.respond input random counters
  | listener event random => exact ⟨h.settings, h.session, h.coherent, h.tidy.react event⟩
  | _ => exact ⟨h.settings, h.session, h.coherent, h.tidy⟩

end Sound

end Tunnel

namespace BusyTunnel

open Tunnel (Part)

theorem turn_cases (b : BusyTunnel) (next : Turn) : b.turn next = b ∨
    ∃ now net part others, b.turn next = work b.tunnel others now net part ∧
      others ⊆ b.pending ∧ (part.Opens = true ∨ part ∈ b.pending) := by
  cases next with
  | opening now net part =>
    by_cases opens : part.Opens = true
    · exact .inr ⟨now, net, part, _, if_pos opens, List.Subset.refl _, .inl opens⟩
    · exact .inl (if_neg opens)
  | proceeding now net part =>
    by_cases pending : part ∈ b.pending
    · exact .inr ⟨now, net, part, _, if_pos pending, List.erase_subset, .inr pending⟩
    · exact .inl (if_neg pending)

theorem sound_turn {config : Config} {b : BusyTunnel} (h : b.tunnel.Sound config) (next : Turn) :
    (b.turn next).tunnel.Sound config := by
  rcases b.turn_cases next with idle | ⟨now, net, part, others, works, -⟩
  · rwa [idle]
  · rw [works]
    exact h.perform now net part

/-- **Every tunnel is sound**, whatever has happened to it and whatever is in progress. -/
theorem sound_run {config : Config} {random : Randomness} {now : Instant} {t : Tunnel}
    (started : Tunnel.start config random now = .ok t) (turns : List Turn) :
    (run ⟨t, []⟩ turns).tunnel.Sound config := by
  have initial : (BusyTunnel.mk t []).tunnel.Sound config := .start started
  exact List.foldlRecOn turns turn (motive := fun b => b.tunnel.Sound config) initial
    fun _ h next _ => sound_turn h next

theorem exists_run_of_steps (t : Tunnel) (steps : List Tunnel.Step) (others : List Part) :
    ∃ turns, run ⟨t, others⟩ turns = ⟨t.steps steps, others⟩ := by
  -- the parts of each step take their turns one right after the other
  induction steps generalizing t with
  | nil => exact ⟨[], rfl⟩
  | cons s steps ih =>
    obtain ⟨first, done⟩ := exists_run_of_opens s.opens (t.step_completes s) others
    obtain ⟨rest, all⟩ := ih (t.step s)
    refine ⟨first ++ rest, ?_⟩
    rw [run, List.foldl_append]
    rw [run] at done all
    rw [done, all]
    rfl

end BusyTunnel

/-- A relay is found at once and asked for a tunnel, and answers with a query. All nonces are 7. -/
def Tunnel.handshake (relay : Address) (q : Query) : List Tunnel.Step :=
  let net : Transmit := fun _ _ => none
  let packet := (q.encode relay).toOption.getD []
  [{ now := 0, net, part := .wake 0 },
    { now := 5, net,
      part := .receive (.of relay tunnelPort) (Message.advertisement 7 relay).encode },
    { now := 5, net, part := .wake 1 },
    { now := 9, net, part := .receive (.of relay tunnelPort)
        (Message.query false 1 7 packet none).encode }]

end MulticastTunnel
