import MulticastTunnel.Proofs.Attempts
import MulticastTunnel.Proofs.History
import MulticastTunnel.Proofs.Session.Rules

/-!
# Runs of a session

A run feeds any inputs to a session, in any order. Its history lists the exchanges: each input
with the session that it met. What was sent, and which answers were accepted, is read off them.

* `Session.run`, `Session.history` : the session after some inputs, and how it came there.
* `Session.run_induction` : what holds at the start and is kept by every exchange holds always.
* `Exchange.discoveryNonce_after`, `Exchange.relay_after`, `Exchange.requestNonce_after` : where
  the three credentials of the handshake can come from.
-/

namespace MulticastTunnel

namespace Session

/-- What can happen to a session. -/
inductive Input where
  /-- The alarm goes off. -/
  | timer (now : Instant) (nonce : UInt32)
  | advertisement (nonce : UInt32) (relay : Address)
  | query (sender : Endpoint) (nonce : UInt32) (mac : ResponseMac)
      (gatewayAddress : Option GatewayAddress) (interval : Option Duration) (now : Instant)
  | ioSuccess
  | ioError (error : IoError)
  | close
  deriving DecidableEq

/-- What a session answers to an input. -/
inductive Output where
  | timer (step : SessionStep)
  /-- Whether the relay was adopted. -/
  | advertisement (adopted : Bool)
  | query (outcome : QueryOutcome)
  | ioSuccess
  | ioError (outcome : IoOutcome)
  /-- The teardown message to be sent, and where to. -/
  | close (teardown : Option (Message × Endpoint))
  deriving DecidableEq

/-- The answer to an input, and the session after it. -/
def respond (s : Session) : Input → Output × Session
  | .timer now nonce => (s.onTimer now nonce).map .timer id
  | .advertisement nonce relay => (s.onAdvertisement nonce relay).map .advertisement id
  | .query sender nonce mac gatewayAddress interval now =>
    (s.onQuery sender nonce mac gatewayAddress interval now).map .query id
  | .ioSuccess => (.ioSuccess, s.onIoSuccess)
  | .ioError error => (s.onIoError error).map .ioError id
  | .close => s.close.map .close id

/-- What an input leaves of a session if what it leads to does not fit a clock whose last time is
`last`. -/
def brokenOff (last : Instant) (s : Session) : Input → Session
  | .timer now _ => s.timerBrokenOff now
  | .query sender nonce mac gatewayAddress interval now =>
    s.queryBrokenOff (s.onQuery sender nonce mac gatewayAddress interval now).2 last
  | input => (s.respond input).2

/-- Inputs to sessions whose clock ends at `last`. -/
def Input.attempts (last : Instant) : Attempts Session Input where
  result s input := (s.respond input).2
  fits s := s.fits last
  left := brokenOff last

/-- The times at which refresh and discovery may be due after an input. -/
def postpones (s : Session) : Input → List Instant
  | .timer now _ =>
    if s.phase = .active then [now + s.queryInterval, now + s.config.rediscoveryInterval] else []
  | .query _ _ _ _ interval now =>
    [now + s.announcedInterval interval, now + s.config.rediscoveryInterval]
  | _ => []

/-- Everything that an input can do, by the rules of the operation that it calls. -/
inductive Responds (s : Session) : Input → Output → Session → Prop where
  | timer {now : Instant} {nonce : UInt32} {step : SessionStep} {s' : Session}
      (fires : Fires s now nonce (step, s')) : Responds s (.timer now nonce) (.timer step) s'
  | advertisement {nonce : UInt32} {relay : Address} {adopted : Bool} {s' : Session}
      (heeds : Heeds s nonce relay (adopted, s')) :
      Responds s (.advertisement nonce relay) (.advertisement adopted) s'
  | query {sender : Endpoint} {nonce : UInt32} {mac : ResponseMac}
      {gatewayAddress : Option GatewayAddress} {interval : Option Duration} {now : Instant}
      {outcome : QueryOutcome} {s' : Session}
      (hears : Hears s sender nonce mac gatewayAddress interval now (outcome, s')) :
      Responds s (.query sender nonce mac gatewayAddress interval now) (.query outcome) s'
  | ioSuccess : Responds s .ioSuccess .ioSuccess { s with ioFailures := 0 }
  | ioError {error : IoError} {outcome : IoOutcome} {s' : Session}
      (suffers : Suffers s error (outcome, s')) :
      Responds s (.ioError error) (.ioError outcome) s'
  | close : Responds s .close (.close s.teardown?) { s with phase := .closed }

theorem respond_responds (s : Session) (input : Input) :
    Responds s input (s.respond input).1 (s.respond input).2 := by
  cases input with
  | timer now nonce => exact .timer (onTimer_fires s now nonce)
  | advertisement nonce relay => exact .advertisement (onAdvertisement_heeds s nonce relay)
  | query sender nonce mac gatewayAddress interval now =>
    exact .query (onQuery_hears s sender nonce mac gatewayAddress interval now)
  | ioSuccess => exact .ioSuccess
  | ioError error => exact .ioError (onIoError_suffers s error)
  | close => exact .close

/-- What comes of an input fits, unless refresh or discovery is due too late or there are too many
restarts. -/
theorem Responds.fits {s s' : Session} {input : Input} {output : Output} {last : Instant}
    (h : s.Responds input output s') (fits : s.fits last)
    (counted : s.phase ≠ .closed → s.restarts + 1 < 0x100000000)
    (inTime : ∀ time ∈ s.postpones input, time ≤ last) : s'.fits last := by
  cases h with
  | timer fires =>
    refine fires.fits fits counted fun phase => ?_
    simpa [postpones, phase] using inTime
  | advertisement heeds => cases heeds <;> exact fits
  | query hears =>
    cases hears with
    | activated answers phase =>
      refine fits_iff.2 ⟨?_, ?_, by simp⟩
      · simpa using inTime _ List.mem_cons_self
      · simpa using inTime _ (List.mem_cons_of_mem _ List.mem_cons_self)
    | _ => exact fits
  | ioError suffers => cases suffers <;> exact fits
  | _ => exact fits

end Session

/-- An input, and the session that it meets. -/
structure Exchange where
  before : Session
  input : Session.Input
  deriving DecidableEq

namespace Exchange

/-- What the session answers. -/
def output (e : Exchange) : Session.Output := (e.before.respond e.input).1

/-- The session after the exchange. -/
def after (e : Exchange) : Session := (e.before.respond e.input).2

theorem responds (e : Exchange) : e.before.Responds e.input e.output e.after :=
  Session.respond_responds e.before e.input

/-- The message that was sent when the alarm went off. -/
def sent? (e : Exchange) : Option (Message × Endpoint) :=
  match e.output with
  | .timer (.send message recipient _) => some (message, recipient)
  | _ => none

/-- The nonce of the discovery message that was sent. -/
def discovered? (e : Exchange) : Option UInt32 :=
  match e.sent? with
  | some (.discovery nonce, _) => some nonce
  | _ => none

/-- The nonce of the request that was sent. -/
def requested? (e : Exchange) : Option UInt32 :=
  match e.sent? with
  | some (.request nonce _, _) => some nonce
  | _ => none

/-- The advertisement that the session heeded: one that had any effect. -/
def heeded? (e : Exchange) : Option (UInt32 × Address) :=
  match e.input with
  | .advertisement nonce relay => if e.after = e.before then none else some (nonce, relay)
  | _ => none

/-- The advertisement by which the session adopted a relay. -/
def adopted? (e : Exchange) : Option (UInt32 × Address) :=
  match e.input, e.output with
  | .advertisement nonce relay, .advertisement true => some (nonce, relay)
  | _, _ => none

/-- Sender, authentication code and nonce of the query that was accepted. -/
def acceptedQuery? (e : Exchange) : Option (Endpoint × ResponseMac × UInt32) :=
  match e.input, e.output with
  | .query _ _ _ _ _ _, .query .rejected => none
  | .query sender nonce mac _ _ _, .query _ => some (sender, mac, nonce)
  | _, _ => none

/-- The exchange brings the session into a phase. -/
def Enters (e : Exchange) (phase : Phase) : Prop :=
  e.before.phase ≠ phase ∧ e.after.phase = phase

instance (e : Exchange) (phase : Phase) : Decidable (e.Enters phase) :=
  inferInstanceAs (Decidable (_ ∧ _))

end Exchange

namespace Session

/-! ### Runs -/

/-- The session after some inputs. -/
def run (config : Config) (inputs : List Input) : Session :=
  inputs.foldl (fun s input => (s.respond input).2) (.start config)

/-- The exchanges with a session, from the first input on. -/
def exchanges (s : Session) : List Input → List Exchange
  | [] => []
  | input :: inputs => ⟨s, input⟩ :: (s.respond input).2.exchanges inputs

/-- How a session came to be what it is after some inputs. -/
def history (config : Config) (inputs : List Input) : List Exchange :=
  (start config).exchanges inputs

theorem exchanges_concat (s : Session) (inputs : List Input) (input : Input) :
    s.exchanges (inputs ++ [input]) =
      s.exchanges inputs ++ [⟨inputs.foldl (fun s input => (s.respond input).2) s, input⟩] := by
  induction inputs generalizing s with
  | nil => rfl
  | cons first inputs ih => simp [exchanges, ih]

variable {config : Config} {inputs : List Input} {input : Input}

theorem run_concat :
    run config (inputs ++ [input]) = (Exchange.mk (run config inputs) input).after := by
  simp [run, Exchange.after]

theorem history_concat :
    history config (inputs ++ [input]) =
      history config inputs ++ [⟨run config inputs, input⟩] :=
  exchanges_concat _ _ _

end Session

namespace Exchange

open Session

/-! ### What an exchange does to the credentials -/

@[simp] theorem config_after (e : Exchange) : e.after.config = e.before.config := by
  have rule := e.responds
  generalize e.before = s, e.input = input, e.output = output, e.after = s' at rule ⊢
  cases rule with
  | timer fires => exact fires.keeps.config
  | advertisement heeds => cases heeds <;> rfl
  | query hears => cases hears <;> rfl
  | ioSuccess => rfl
  | ioError suffers => cases suffers <;> rfl
  | close => rfl

/-- The discovery nonce is that of the last discovery message, unless it has been answered. -/
theorem discoveryNonce_after (e : Exchange) :
    e.after.discoveryNonce = none
    ∨ (e.after.discoveryNonce = e.before.discoveryNonce ∧ e.discovered? = none ∧
        e.heeded? = none ∧ ¬ e.Enters .discovering)
    ∨ ∃ nonce, e.after.discoveryNonce = some nonce ∧
        e.sent? = some (.discovery nonce, e.before.config.discoveryAddress) := by
  have rule := e.responds
  simp only [discovered?, sent?, heeded?, Enters]
  generalize e.before = s, e.input = input, e.output = output, e.after = s' at rule ⊢
  cases rule with
  | timer fires =>
    cases fires with
    | closed phase => simp
    | discovering phase discovers => cases discovers <;> simp_all
    | requesting phase asks =>
      obtain _ | _ | ⟨_, _, _ | _⟩ := asks <;> simp_all [enterDiscovering]
    | relayless phase relay discovers => cases discovers <;> simp_all [enterDiscovering]
    | active phase known attends =>
      obtain _ | ⟨_, _, _ | _ | ⟨_, _, _ | _⟩⟩ | _ := attends <;>
        simp_all [enterDiscovering, enterRequesting]
  | advertisement heeds =>
    cases heeds with
    | ignored other => simp
    | confirmed awaited phase same => simp
    | adopted awaited new => simp [enterRequesting]
  | query hears => cases hears <;> simp_all [Session.answered]
  | ioSuccess => simp
  | ioError suffers => cases suffers <;> simp_all [enterRequesting]
  | close => simp

/-- The relay is the one that was adopted last, unless it has been given up. -/
theorem relay_after (e : Exchange) :
    e.after.relay = none
    ∨ (e.after.relay = e.before.relay ∧ e.adopted? = none ∧ ¬ e.Enters .discovering)
    ∨ ∃ nonce relay, e.adopted? = some (nonce, relay) ∧
        e.after.relay = some (.of relay e.before.config.relayPort) ∧
        e.before.discoveryNonce = some nonce ∧
        relay.sameFamily e.before.config.discoveryAddress.address ∧
        ¬ e.Enters .discovering := by
  have rule := e.responds
  simp only [adopted?, Enters]
  generalize e.before = s, e.input = input, e.output = output, e.after = s' at rule ⊢
  cases rule with
  | timer fires =>
    cases fires with
    | closed phase => simp
    | discovering phase discovers => cases discovers <;> simp_all
    | requesting phase asks =>
      obtain _ | _ | ⟨_, _, _ | _⟩ := asks <;> simp_all [enterDiscovering]
    | relayless phase relay discovers => cases discovers <;> simp_all [enterDiscovering]
    | active phase known attends =>
      obtain _ | ⟨_, _, _ | _ | ⟨_, _, _ | _⟩⟩ | _ := attends <;>
        simp_all [enterDiscovering, enterRequesting]
  | advertisement heeds =>
    cases heeds with
    | ignored other => simp
    | confirmed awaited phase same => simp_all
    | adopted awaited new => simp [enterRequesting, awaited.2.1, awaited.2.2]
  | query hears => cases hears <;> simp_all [Session.answered]
  | ioSuccess => simp
  | ioError suffers => cases suffers <;> simp_all [enterRequesting]
  | close => simp

/-- The request nonce is that of the last request to the relay, unless the relay is to be asked
anew. -/
theorem requestNonce_after (e : Exchange) :
    e.after.requestNonce = none
    ∨ (e.after.requestNonce = e.before.requestNonce ∧ e.after.relay = e.before.relay ∧
        e.requested? = none ∧ e.adopted? = none ∧
        ¬ e.Enters .requesting ∧ ¬ e.Enters .discovering)
    ∨ ∃ nonce relay, e.after.requestNonce = some nonce ∧
        e.sent? = some (.request nonce e.before.config.preferMld, relay) ∧
        e.before.relay = some relay ∧ e.after.relay = some relay ∧
        ¬ e.Enters .discovering := by
  have rule := e.responds
  simp only [requested?, sent?, adopted?, Enters]
  generalize e.before = s, e.input = input, e.output = output, e.after = s' at rule ⊢
  cases rule with
  | timer fires =>
    cases fires with
    | closed phase => simp
    | discovering phase discovers => cases discovers <;> simp_all
    | requesting phase asks =>
      obtain may | _ | ⟨_, _, _ | _⟩ := asks
      · simp [phase, may.1]
      all_goals simp_all [enterDiscovering]
    | relayless phase relay discovers => cases discovers <;> simp_all [enterDiscovering]
    | active phase known attends =>
      cases attends with
      | rediscovers due => simp_all
      | unanswered notDue pending asks =>
        -- the session begins to ask anew, and sends its request at once
        obtain may | _ | ⟨_, _, _ | _⟩ := asks
        · exact .inr (.inr ⟨_, _, rfl, rfl, may.1, may.1, by simp [enterRequesting]⟩)
        all_goals simp [enterDiscovering, enterRequesting]
      | refreshes notDue answered => simp [phase, known]
  | advertisement heeds =>
    cases heeds with
    | ignored other => simp
    | confirmed awaited phase same => simp_all
    | adopted awaited new => simp [enterRequesting]
  | query hears => cases hears <;> simp_all [Session.answered]
  | ioSuccess => simp
  | ioError suffers => cases suffers <;> simp_all [enterRequesting]
  | close => simp

end Exchange

namespace Session

variable {config : Config}

@[simp] theorem config_run (inputs : List Input) : (run config inputs).config = config := by
  induction inputs using List.reverseRecOn with
  | nil => rfl
  | append_singleton inputs input ih => rw [run_concat, Exchange.config_after, ih]

theorem run_induction {Invariant : List Exchange → Session → Prop}
    (initial : Invariant [] (start config))
    (exchange : ∀ history (e : Exchange), e.before.config = config →
      Invariant history e.before → Invariant (history ++ [e]) e.after) (inputs : List Input) :
    Invariant (history config inputs) (run config inputs) := by
  induction inputs using List.reverseRecOn with
  | nil => exact initial
  | append_singleton inputs input ih =>
    rw [run_concat, history_concat]
    exact exchange _ ⟨_, input⟩ (config_run inputs) ih

end Session

end MulticastTunnel
