import MulticastTunnel.Proofs.Session.Run

/-!
# What a phase tells of a session

The fields of a session depend on its phase: a session that looks for a relay knows none, one that
asks for a tunnel knows whom to ask, and an active one knows all that updates and refreshes need.
Several fields are left over by some transitions, so the conditions are kept only together.

* `Session.Coherent` : the invariant.
* `Session.Responds.closed` : a closed session turns every input down, and stays closed.
* `Session.fields_fit_phase` : **every session is coherent**. So it has a target for updates exactly
  if it is active, and it is never active without a relay.
-/

namespace MulticastTunnel

/-- An advertisement can make this endpoint the relay. -/
def Config.MayBeRelay (c : Config) (relay : Endpoint) : Prop :=
  relay.port = c.relayPort ∧ relay.bare = relay ∧
    relay.address.sameFamily c.discoveryAddress.address

namespace Session

/-- The fields of a session agree with its phase and with each other. -/
structure Coherent (s : Session) : Prop where
  discovering : s.phase = .discovering →
    s.relay = none ∧ s.requestNonce = none ∧ s.refused = false ∧
      s.attempts ≤ s.config.maxDiscoveryAttempts
  requesting : s.phase = .requesting →
    s.relay.isSome ∧ s.attempts ≤ s.config.maxRequestAttempts
  active : s.phase = .active →
    s.relay.isSome ∧ s.requestNonce.isSome ∧ s.refreshAt.isSome ∧ s.rediscoverAt.isSome ∧
      s.restarts = 0 ∧ s.refused = false
  relay : ∀ relay, s.relay = some relay → s.config.MayBeRelay relay
  restarts : s.phase ≠ .closed → s.restarts ≤ s.config.maxHandshakeRestarts

namespace Coherent

variable {s s' : Session} {now : Instant} {nonce : UInt32}

theorem start (config : Config) : (start config).Coherent where
  discovering _ := by simp [Session.start]
  requesting phase := by simp [Session.start] at phase
  active phase := by simp [Session.start] at phase
  relay relay known := by simp [Session.start] at known
  restarts _ := Nat.zero_le _

/-! ### Ways into a phase -/

theorem closed (relay : ∀ relay, s.relay = some relay → s.config.MayBeRelay relay)
    (phase : s.phase = .closed) : s.Coherent where
  discovering other := by simp [phase] at other
  requesting other := by simp [phase] at other
  active other := by simp [phase] at other
  relay := relay
  restarts notClosed := absurd phase notClosed

theorem enterDiscovering (refused : s.refused = false)
    (restarts : s.restarts ≤ s.config.maxHandshakeRestarts) : s.enterDiscovering.Coherent where
  discovering _ := ⟨rfl, rfl, refused, Nat.zero_le _⟩
  requesting phase := by simp [Session.enterDiscovering] at phase
  active phase := by simp [Session.enterDiscovering] at phase
  relay relay known := by simp [Session.enterDiscovering] at known
  restarts _ := restarts

/-- Only a session that knows its relay may begin to ask for a tunnel. -/
theorem enterRequesting {relay : Endpoint} (known : s.relay = some relay)
    (mayBe : s.config.MayBeRelay relay) (restarts : s.restarts ≤ s.config.maxHandshakeRestarts) :
    s.enterRequesting.Coherent where
  discovering phase := by simp [Session.enterRequesting] at phase
  requesting _ := ⟨by simp [Session.enterRequesting, known], Nat.zero_le _⟩
  active phase := by simp [Session.enterRequesting] at phase
  relay other same := by
    obtain rfl := Option.some.inj (known.symm.trans same)
    exact mayBe
  restarts _ := restarts

theorem reenterRequesting (h : s.Coherent) (phase : s.phase = .active) :
    s.enterRequesting.Coherent := by
  obtain ⟨relay, known⟩ := Option.isSome_iff_exists.1 (h.active phase).1
  exact .enterRequesting known (h.relay relay known) (h.restarts (by simp [phase]))

/-! ### The operations -/

theorem discovers {step : SessionStep} (h : s.Coherent) (phase : s.phase = .discovering)
    (discovers : Discovers s nonce (step, s')) : s'.Coherent := by
  cases discovers with
  | exhausted enough => exact .closed h.relay rfl
  | sent left =>
    obtain ⟨relay, request, refused, -⟩ := h.discovering phase
    exact ⟨fun _ => ⟨relay, request, refused, left⟩, by simp [phase], by simp [phase], h.relay,
      h.restarts⟩

theorem asks {step : SessionStep} (h : s.Coherent) (phase : s.phase = .requesting)
    (asks : Asks s nonce (step, s')) : s'.Coherent := by
  cases asks with
  | sent may =>
    exact ⟨by simp [phase], fun _ => ⟨(h.requesting phase).1, may.2.1⟩, by simp [phase], h.relay,
      h.restarts⟩
  | gaveUp spent enough => exact .closed h.relay rfl
  | fellBack spent left discovers =>
    -- the restart is counted and the refusal forgotten before the search begins anew
    have fallen := Coherent.enterDiscovering (s := { s with restarts := _, refused := _ }) rfl left
    exact fallen.discovers rfl discovers

theorem fires {step : SessionStep} (h : s.Coherent) (fires : Fires s now nonce (step, s')) :
    s'.Coherent := by
  cases fires with
  | closed phase => exact h
  | discovering phase discovers => exact h.discovers phase discovers
  | requesting phase asks => exact h.asks phase asks
  | relayless phase unknown discovers =>
    -- an active session knows its relay, so nothing happens this way
    have known := (h.active phase).1
    simp [unknown] at known
  | active phase known attends =>
    obtain ⟨relay, request, refresh, rediscovery, rest⟩ := h.active phase
    cases attends with
    | rediscovers due =>
      exact ⟨by simp [phase], by simp [phase], fun _ => ⟨relay, request, refresh, rfl, rest⟩,
        h.relay, h.restarts⟩
    | unanswered notDue pending asks => exact (h.reenterRequesting phase).asks rfl asks
    | refreshes notDue answered =>
      exact ⟨by simp [phase], by simp [phase], fun _ => ⟨relay, rfl, rfl, rediscovery, rest⟩,
        h.relay, h.restarts⟩

theorem attends {r : SessionStep × Session} (h : s.Coherent) (phase : s.phase = .active)
    (fires : Fires s now nonce r) :
    ∃ relay, s.relay = some relay ∧ Attends s relay now nonce r := by
  cases fires with
  | relayless _ unknown =>
    have known := (h.active phase).1
    simp [unknown] at known
  | active _ known attends => exact ⟨_, known, attends⟩
  | closed other | discovering other | requesting other => cases phase.symm.trans other

theorem heeds {relay : Address} {adopted : Bool} (h : s.Coherent)
    (heeds : Heeds s nonce relay (adopted, s')) : s'.Coherent := by
  cases heeds with
  | ignored other => exact h
  | confirmed awaited phase same =>
    exact ⟨by simp [phase], by simp [phase], fun _ => h.active phase, h.relay, h.restarts⟩
  | adopted awaited new =>
    obtain ⟨phase, -, family⟩ := awaited
    exact .enterRequesting rfl ⟨rfl, rfl, family⟩
      (h.restarts (by rcases phase with h | h <;> simp [h]))

theorem hears {sender : Endpoint} {mac : ResponseMac} {gatewayAddress : Option GatewayAddress}
    {interval : Option Duration} {outcome : QueryOutcome} (h : s.Coherent)
    (hears : Hears s sender nonce mac gatewayAddress interval now (outcome, s')) :
    s'.Coherent := by
  cases hears with
  | rejected other => exact h
  | activated answers phase =>
    obtain ⟨-, relay, request⟩ := answers
    exact ⟨by simp, by simp, fun _ => ⟨by simp [answered, relay], by simp [answered, request], rfl,
      rfl, rfl, rfl⟩, h.relay, fun _ => Nat.zero_le _⟩
  | accepted answers phase =>
    exact ⟨by simp [answered, phase], by simp [answered, phase], fun _ => h.active phase, h.relay,
      h.restarts⟩

theorem suffers {error : IoError} {outcome : IoOutcome} (h : s.Coherent)
    (suffers : Suffers s error (outcome, s')) : s'.Coherent := by
  cases suffers with
  | closed phase => exact h
  | fatal phase enough => exact .closed h.relay rfl
  | reestablishes phase left =>
    have failing : Coherent { s with ioFailures := s.ioFailures + 1 } :=
      ⟨h.discovering, h.requesting, h.active, h.relay, h.restarts⟩
    exact failing.reenterRequesting phase
  | refused phase left refusal =>
    exact ⟨by simp [phase], h.requesting, by simp [phase], h.relay, h.restarts⟩
  | counted phase left => exact ⟨h.discovering, h.requesting, h.active, h.relay, h.restarts⟩

theorem responds {input : Input} {output : Output} (h : s.Coherent)
    (responds : Responds s input output s') : s'.Coherent := by
  cases responds with
  | timer fires => exact h.fires fires
  | advertisement heeds => exact h.heeds heeds
  | query hears => exact h.hears hears
  | ioSuccess => exact ⟨h.discovering, h.requesting, h.active, h.relay, h.restarts⟩
  | ioError suffers => exact h.suffers suffers
  | close => exact .closed h.relay rfl

theorem isSome_updateTarget? (h : s.Coherent) :
    s.updateTarget?.isSome ↔ s.phase = .active := by
  by_cases phase : s.phase = .active
  · obtain ⟨relay, request, -⟩ := h.active phase
    obtain ⟨relay, known⟩ := Option.isSome_iff_exists.1 relay
    obtain ⟨nonce, requested⟩ := Option.isSome_iff_exists.1 request
    simp [updateTarget?, phase, known, requested]
  · simp [updateTarget?, phase]

end Coherent

/-! ### The end of a session -/

/-- The answer of a session that has nothing to do with an input any more. -/
def Input.declined : Input → Output
  | .timer .. => .timer .idle
  | .advertisement .. => .advertisement false
  | .query .. => .query .rejected
  | .ioSuccess => .ioSuccess
  | .ioError _ => .ioError .continue
  | .close => .close none

/-- A closed session turns every input down, and stays closed. -/
theorem Responds.closed {s s' : Session} {input : Input} {output : Output}
    (responds : Responds s input output s') (phase : s.phase = .closed) :
    output = input.declined ∧ s'.phase = .closed := by
  cases responds with
  | timer fires =>
    cases fires.outcome with
    | idle => exact ⟨rfl, phase⟩
    | _ before => exact absurd phase before
  | advertisement heeds => cases heeds <;> simp_all [Input.declined, Awaits]
  | query hears => cases hears <;> simp_all [Input.declined]
  | ioSuccess => exact ⟨rfl, phase⟩
  | ioError suffers => cases suffers <;> simp_all [Input.declined]
  | close => exact ⟨by simp [Input.declined, teardown?, phase], rfl⟩

/-- The answer tells that the session is over. -/
def Output.Ends : Output → Prop
  | .timer (.send ..) => False
  | .timer _ => True
  | .ioError (.fatal _) => True
  | .close _ => True
  | _ => False

/-- A session is closed after an input if it was before, or if the answer tells so. -/
theorem Responds.closed_iff {s s' : Session} {input : Input} {output : Output}
    (responds : Responds s input output s') :
    s'.phase = .closed ↔ s.phase = .closed ∨ output.Ends := by
  cases responds with
  | timer fires =>
    cases fires.outcome with
    | idle phase => simp [Output.Ends, phase]
    | fails before after => simp [Output.Ends, after]
    | discovers before after | requests before after =>
      rcases after with after | after <;> simp [Output.Ends, before, after]
  | advertisement heeds =>
    cases heeds with
    | adopted awaited new =>
      rcases awaited.1 with phase | phase <;> simp [Output.Ends, enterRequesting, phase]
    | _ => simp [Output.Ends]
  | query hears => cases hears <;> simp_all [Output.Ends, answered]
  | ioSuccess => simp [Output.Ends]
  | ioError suffers => cases suffers <;> simp_all [Output.Ends, enterRequesting]
  | close => simp [Output.Ends]

theorem Fires.closed_of_idle {s s' : Session} {now : Instant} {nonce : UInt32}
    (fires : Fires s now nonce (.idle, s')) : s.phase = .closed := by
  -- in all other phases a message is sent, or the session fails
  cases fires.outcome with
  | idle phase => exact phase

theorem coherent_run (config : Config) (inputs : List Input) : (run config inputs).Coherent :=
  @run_induction config (fun _ s => s.Coherent) (.start config)
    (fun _ e _ h => h.responds e.responds) inputs

/-- **Every session is coherent.** After any inputs the fields of a session agree with its phase.
It has a target for updates exactly if it is active, it is not active without a relay, and once it
is closed it declines all inputs and stays closed. -/
theorem fields_fit_phase (config : Config) (inputs : List Input) :
    let s := run config inputs
    s.config = config ∧ s.Coherent ∧ (s.updateTarget?.isSome ↔ s.phase = .active) ∧
    ¬ (s.phase = .active ∧ s.relay = none) ∧
    (s.phase = .closed → ∀ input,
      (s.respond input).1 = input.declined ∧ (s.respond input).2.phase = .closed) := by
  intro s
  have coherent : s.Coherent := coherent_run config inputs
  refine ⟨config_run inputs, coherent, coherent.isSome_updateTarget?, ?_, fun phase input => ?_⟩
  · rintro ⟨phase, unknown⟩
    have known := (coherent.active phase).1
    simp [unknown] at known
  · exact (respond_responds s input).closed phase

/-- A session that was closed while it asked for a tunnel ignores the query it had asked for. -/
theorem fields_fit_phase_closedHandshake :
    let config := Config.standard (.of (.ofOctets 192 0 2 1) tunnelPort)
    let relay := Address.ofOctets 192 0 2 7
    let s := run config [.timer 0 11, .advertisement 11 relay, .timer 0 22, .close]
    s.relay = some (.of relay tunnelPort) ∧ s.phase = .closed ∧
      (s.respond (.query (.of relay tunnelPort) 22 1 none none 0)).1 = .query .rejected := by
  intro config relay s
  have phase : s.phase = .closed := by decide
  exact ⟨by decide, phase, ((fields_fit_phase config _).2.2.2.2 phase _).1⟩

end Session

end MulticastTunnel
