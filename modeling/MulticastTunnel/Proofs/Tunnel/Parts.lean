import MulticastTunnel.Proofs.Alarm.Register
import MulticastTunnel.Proofs.Listener.Run
import MulticastTunnel.Tunnel.Firing
import MulticastTunnel.Tunnel.Receive

/-!
# The work of a tunnel, part by part

Several parties work on a tunnel at the same time: the run of its session's alarm, the receiver of
its socket, the sender of its reports, and callers. What each of them does falls into parts. A part
is done without interruption; between two parts, anything may happen. Parts that are pending may be
done in any order, which covers the order that they really have.

* `Tunnel.Part`, `Tunnel.perform` : the parts, and what each leads to.
* `BusyTunnel` : a tunnel, and the parts of the work in progress.
* `Tunnel.Completes` : parts that are done one after the other, without anything in between.
* `Tunnel.fireSession_completes`, `Tunnel.accept_completes`, `Tunnel.onIoError_completes`,
  `Tunnel.close_completes` : the operations of a tunnel are such work.
* `BusyTunnel.exists_run_of_completes` : and such work is one way for a tunnel to go on.
-/

namespace MulticastTunnel

namespace Tunnel

/-! ### Parts -/

/-- What is done to a tunnel without interruption. -/
inductive Part where
  /-- A run of the session's alarm wakes up. -/
  | wake (run : Nat)
  /-- The run asks the session what to do. -/
  | consult (run : Nat)
  /-- The run has done its work. -/
  | rest (run : Nat) (next : Option Duration)
  | setAlarm (delay : Duration)
  | cancelPending
  /-- A message of the session is handed to the socket. -/
  | transmit (message : Message) (recipient : Endpoint)
  /-- A message is handed to the socket, and nothing is done about an error. -/
  | tell (message : Message) (recipient : Endpoint)
  | ioSuccess
  | ioError (error : IoError)
  /-- A datagram comes in. -/
  | receive (sender : Endpoint) (bytes : Bytes)
  /-- A message that came in is dealt with. -/
  | heed (sender : Endpoint) (message : Message)
  | askListener (query : Query)
  /-- A report is to be sent: the session says where to. -/
  | report (report : Report)
  /-- The update of a report is handed to the socket. -/
  | submit (update : Message) (relay : Endpoint)
  /-- An update was sent. -/
  | reported
  | listen (event : Listener.Event)
  | close
  /-- The session is closed, because of an error if there is one. -/
  | stop (error? : Option GatewayError)
  | stopAlarm (teardown : Option (Message × Endpoint)) (error? : Option GatewayError)
  | stopListener (teardown : Option (Message × Endpoint)) (error? : Option GatewayError)
  | settle (error? : Option GatewayError)
  deriving DecidableEq

/-- What a run of the session's alarm is to do. -/
def Part.ofStep (run : Nat) : SessionStep → List Part
  | .send message recipient next => [.transmit message recipient, .rest run (some next)]
  | .fail error => [.stop (some error), .rest run none]
  | .idle => [.rest run none]

/-- The session was asked what to do. -/
def consulted (t : Tunnel) (now : Instant) : Tunnel :=
  let (step, session) := t.session.onTimer now t.random.nonce
  let random := match step with
    | .send .. => t.random.afterNonce
    | _ => t.random
  let answered := { t with session, random }
  if t.session.restarts < session.restarts then answered.count .restart else answered

/-- Does a part, and tells what is to be done after it. -/
def perform (t : Tunnel) (now : Instant) (net : Transmit) : Part → Tunnel × List Part
  | .wake run =>
    if t.sessionTimers.Asleep run () then
      match t.sessionAlarm.wake run with
      | none => ({ t with sessionTimers := t.sessionTimers.remove run }, [])
      | some sessionAlarm =>
        ({ t with sessionTimers := t.sessionTimers.setPhase run .acting, sessionAlarm },
          [.consult run])
    else (t, [])
  | .consult run =>
    let (step, session) := t.session.onTimer now t.random.nonce
    let left := t.session.phase = .active ∧ session.phase ≠ .active
    (t.consulted now, (if left then [.cancelPending] else []) ++ Part.ofStep run step)
  | .rest run next => (t.rest run next now, [])
  | .setAlarm delay => (t.setAlarm now delay, [])
  | .cancelPending => (t.cancelPending, [])
  | .transmit message recipient =>
    match net recipient message.encode with
    | some error => (t, [.ioError error])
    | none => ({ t with effects := t.effects ++ [.sent recipient message] }, [.ioSuccess])
  | .tell message recipient =>
    match net recipient message.encode with
    | some _ => (t, [])
    | none => ({ t with effects := t.effects ++ [.sent recipient message] }, [.ioSuccess])
  | .ioSuccess => ({ t with session := t.session.onIoSuccess }, [])
  | .ioError error =>
    let (outcome, session) := t.session.onIoError error
    ({ t with session }, match outcome with
      | .continue => []
      | .reestablish => [.cancelPending, .setAlarm 0]
      | .fatal error => [.stop (some error)])
  | .receive sender bytes =>
    let received := { t with session := t.session.onIoSuccess }
    match Message.decode bytes with
    | .error _ => (received.count .malformed, [])
    | .ok message => (received, [.heed sender message])
  | .heed _ (.advertisement nonce relay) =>
    let (accepted, session) := t.session.onAdvertisement nonce relay
    let left := t.session.phase = .active ∧ session.phase ≠ .active
    ({ t with session },
      (if left then [.cancelPending] else []) ++ (if accepted then [.setAlarm 0] else []))
  | .heed sender (.query _ mac nonce packet gateway) =>
    match Query.decode packet with
    | .error _ => (t.count .malformed, [])
    | .ok q =>
      let (outcome, session) := t.session.onQuery sender nonce mac gateway q.interval now
      ({ t with session }, match outcome with
        | .rejected => []
        | .activated refreshAfter => [.setAlarm refreshAfter, .askListener q]
        | .accepted => [.askListener q])
  | .heed sender (.data packet) => (t.onData sender packet, [])
  | .heed _ _ => (t, [])
  | .askListener q => (t.askListener now q, [])
  | .report report =>
    (t, match t.compose report with
      | .ok (update, relay) => [.submit update relay]
      | .error _ => [])
  | .submit update relay =>
    match net relay update.encode with
    | some error => ({ t with errors := t.errors ++ [error] }, [])
    | none => ({ t with effects := t.effects ++ [.sent relay update] }, [.ioSuccess, .reported])
  | .reported => (t.count .report, [])
  | .listen event => ({ t with listener := (t.listener.react event).1 }, [])
  | .close => (t, if t.status = .running then [.stop none] else [])
  | .stop error? =>
    ({ t with session := t.session.close.2 },
      [.stopAlarm (if error?.isNone then t.session.teardown? else none) error?])
  | .stopAlarm teardown error? => (t.cancelAlarm, [.stopListener teardown error?])
  | .stopListener teardown error? =>
    ({ t with listener := t.listener.shutdown },
      (teardown.map fun (message, recipient) => Part.tell message recipient).toList
        ++ [.settle error?])
  | .settle error? => (t.settle (error?.elim .closed .failed), [])

/-! ### Uninterrupted work -/

/-- Parts that are done one after the other, each followed by what is to be done after it. -/
inductive Completes (now : Instant) (net : Transmit) : List Part → Tunnel → Tunnel → Prop where
  | done (t : Tunnel) : Completes now net [] t t
  | part {part : Part} {rest : List Part} {t t' : Tunnel}
      (next : Completes now net ((t.perform now net part).2 ++ rest)
        (t.perform now net part).1 t') :
      Completes now net (part :: rest) t t'

variable {t t' t'' : Tunnel} {now : Instant} {net : Transmit} {parts rest : List Part}

theorem Completes.append (h : Completes now net parts t t') (h' : Completes now net rest t' t'') :
    Completes now net (parts ++ rest) t t'' := by
  induction h with
  | done t => exact h'
  | part _ ih => exact .part (by simpa using ih h')

theorem Completes.single {part : Part}
    (next : Completes now net (t.perform now net part).2 (t.perform now net part).1 t') :
    Completes now net [part] t t' :=
  .part (by rwa [List.append_nil])

theorem fail_completes (t : Tunnel) (error : GatewayError) :
    Completes now net [.stop (some error)] t (t.fail error) :=
  .part (.part (.part (.part (.done _))))

theorem onIoError_completes (t : Tunnel) (error : IoError) :
    Completes now net [.ioError error] t (t.onIoError now error) := by
  refine .single ?_
  simp only [perform, onIoError]
  cases (t.session.onIoError error).1 with
  | reestablish => exact .part (.part (.done _))
  | fatal error => exact fail_completes _ error
  | _ => exact .done _

theorem carryOut_completes (t : Tunnel) (run : Nat) (step : SessionStep) :
    Completes now net (Part.ofStep run step) t
      ((t.carryOut net now step).2.rest run (t.carryOut net now step).1 now) := by
  cases step with
  | send message recipient next =>
    have rested : ∀ t : Tunnel,
        Completes now net [.rest run (some next)] t (t.rest run (some next) now) :=
      fun t => .part (.done _)
    refine .part ?_
    simp only [carryOut, transmit, perform]
    cases net recipient message.encode with
    | none => exact .part (rested _)
    | some error => exact (onIoError_completes t error).append (rested _)
  | fail error => exact (fail_completes t error).append (.part (.done _))
  | idle => exact .part (.done _)

theorem cancelPending_completes (t : Tunnel) (left : Prop) [Decidable left] :
    Completes now net (if left then [.cancelPending] else []) t
      (if left then t.cancelPending else t) := by
  split
  · exact .part (.done _)
  · exact .done _

theorem fireSession_completes (t : Tunnel) {run : Nat} (asleep : t.sessionTimers.Asleep run ()) :
    Completes now net [.wake run] t (t.fireSession net run now) := by
  refine .single ?_
  simp only [perform, fireSession, wake, asleep, ↓reduceIte]
  cases t.sessionAlarm.wake run with
  | none => exact .done _
  | some alarm =>
    exact .single ((cancelPending_completes _ _).append (carryOut_completes _ run _))

theorem onMessage_completes (t : Tunnel) (sender : Endpoint) (message : Message) :
    Completes now net [.heed sender message] t (t.onMessage now sender message) := by
  refine .single ?_
  cases message with
  | advertisement nonce relay =>
    simp only [perform, onMessage, onAdvertisement]
    obtain ⟨accepted, session⟩ := t.session.onAdvertisement nonce relay
    refine (cancelPending_completes _ _).append ?_
    cases accepted with
    | false => exact .done _
    | true => exact .single (.done _)
  | query limited mac nonce packet gateway =>
    simp only [perform, onMessage, onQuery]
    cases Query.decode packet with
    | error _ => exact .done _
    | ok q =>
      dsimp only
      obtain ⟨outcome, session⟩ := t.session.onQuery sender nonce mac gateway q.interval now
      cases outcome with
      | rejected => exact .done _
      | activated refreshAfter => exact .part (.single (.done _))
      | accepted => exact .single (.done _)
  | _ => exact .done _

theorem accept_completes (t : Tunnel) (sender : Endpoint) (bytes : Bytes) :
    Completes now net [.receive sender bytes] t (t.accept now sender bytes) := by
  refine .single ?_
  simp only [perform, accept]
  cases Message.decode bytes with
  | error _ => exact .done _
  | ok message => exact onMessage_completes _ sender message

theorem receive_of_running (running : t.status = .running) (sender : Endpoint) (bytes : Bytes) :
    t.receive now sender bytes = t.accept now sender bytes := if_pos running

theorem close_completes (t : Tunnel) : Completes now net [.close] t (t.close net) := by
  refine .single ?_
  simp only [perform, close]
  split
  · refine .part (.part (.part ?_))
    simp only [perform]
    cases t.session.teardown? with
    | none => exact .part (.done _)
    | some teardown =>
      refine .part ?_
      simp only [perform, transmit]
      cases net teardown.2 teardown.1.encode with
      | none => exact .part (.part (.done _))
      | some error => exact .part (.done _)
  · exact .done _

theorem sendReport_completes (t : Tunnel) (report : Report) :
    Completes now net [.report report] t (t.sendReport net report).2 := by
  refine .single ?_
  simp only [perform, sendReport]
  cases t.compose report with
  | error outcome => exact .done _
  | ok composed =>
    refine .single ?_
    simp only [perform, submit, transmit]
    cases net composed.2 composed.1.encode with
    | some error => exact .done _
    | none => exact .part (.part (.done _))

theorem sendReports_completes (t : Tunnel) (reports : List Report) :
    Completes now net (reports.map .report) t (t.sendReports net reports) := by
  induction reports generalizing t with
  | nil => exact .done _
  | cons report rest ih => exact (sendReport_completes t report).append (ih _)

/-- An alarm of the listener goes off, and its reports are sent one after the other. -/
theorem fireReports_completes (t : Tunnel) (run : Nat) (job : ReportJob) :
    Completes now net
      (.listen (.begin run job) :: ((t.listener.begin run job).2.elim [] fun firing =>
        firing.reports.map .report ++ [.listen (.finish firing now)]))
      t (t.fireReports net run job now) := by
  refine .part ?_
  simp only [perform, Listener.react, fireReports]
  obtain ⟨listener, _ | firing⟩ := t.listener.begin run job
  · exact .done _
  · exact (sendReports_completes _ firing.reports).append (.single (.done _))

end Tunnel

/-! ### Work in progress -/

/-- A tunnel, and what is still to be done by those who work on it. -/
structure BusyTunnel where
  tunnel : Tunnel
  pending : List Tunnel.Part

/-- What may begin at any time: a run of the session's alarm wakes up, the socket receives a
datagram or has an error, a report is sent, the listener is told something, or the tunnel is to be
closed. -/
def Tunnel.Part.Opens : Part → Bool
  | wake _ | receive _ _ | ioError _ | report _ | listen _ | close => true
  | _ => false

/-- What happens to a tunnel, and what the socket does meanwhile. -/
inductive Turn where
  /-- Something begins. -/
  | opening (now : Instant) (net : Transmit) (part : Tunnel.Part)
  /-- Something pending is done. -/
  | proceeding (now : Instant) (net : Transmit) (part : Tunnel.Part)

namespace BusyTunnel

open Tunnel (Part)

/-- Does a part, besides the parts that are pending. -/
def work (t : Tunnel) (others : List Part) (now : Instant) (net : Transmit) (part : Part) :
    BusyTunnel :=
  ⟨(t.perform now net part).1, (t.perform now net part).2 ++ others⟩

/-- One turn. Whatever is pending may come next. -/
def turn (b : BusyTunnel) : Turn → BusyTunnel
  | .opening now net part => if part.Opens then work b.tunnel b.pending now net part else b
  | .proceeding now net part =>
    if part ∈ b.pending then work b.tunnel (b.pending.erase part) now net part else b

/-- All turns, one after the other. -/
def run (b : BusyTunnel) (turns : List Turn) : BusyTunnel := turns.foldl turn b

/-- Uninterrupted work is one way for a tunnel to go on. -/
theorem exists_run_of_completes {now : Instant} {net : Transmit} {parts : List Part}
    {t t' : Tunnel} (h : Tunnel.Completes now net parts t t') (others : List Part) :
    ∃ turns, run ⟨t, parts ++ others⟩ turns = ⟨t', others⟩ := by
  induction h with
  | done t => exact ⟨[], rfl⟩
  | @part part rest t t' _ ih =>
    obtain ⟨turns, h⟩ := ih
    refine ⟨.proceeding now net part :: turns, ?_⟩
    simpa [run, turn, work] using h

theorem exists_run_of_opens {now : Instant} {net : Transmit} {part : Part} {t t' : Tunnel}
    (opens : part.Opens) (h : Tunnel.Completes now net [part] t t') (others : List Part) :
    ∃ turns, run ⟨t, others⟩ turns = ⟨t', others⟩ := by
  obtain _ | next := h
  obtain ⟨turns, h⟩ := exists_run_of_completes next others
  exact ⟨.opening now net part :: turns, by simpa [run, turn, work, opens] using h⟩

end BusyTunnel

end MulticastTunnel
