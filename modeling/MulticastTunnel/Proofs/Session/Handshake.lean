import MulticastTunnel.Proofs.Session.Run

/-!
# The order of the handshake

A tunnel comes up by a query only, after a discovery message, the advertisement that answered it,
and a request to the relay adopted by that advertisement, in this order. The three conditions
`Discovered`, `Adopted` and `Requested` speak of the history of a session alone; each contains the
one before it.

* `Session.InStep` : the invariant: the nonces and the relay that a session remembers are those of
  the handshake so far.
* `Session.handshake_in_order` : **no step of the handshake can be skipped**, no discovery message
  is answered twice, and a relay that was left is not listened to.
-/

namespace MulticastTunnel

namespace Session

/-! ### The steps of a handshake -/

/-- The last discovery message carried `nonce`. Since then no advertisement has been heeded, and
discovery has not begun anew. -/
def Discovered (config : Config) (nonce : UInt32) : List Exchange → Prop :=
  Since (fun e => e.discovered? = none ∧ e.heeded? = none ∧ ¬ e.Enters .discovering)
    fun _ e => e.sent? = some (.discovery nonce, config.discoveryAddress)

/-- The advertisement of `relay` was heeded in answer to the last discovery message before it, and
no relay has been adopted since. Discovery has not begun anew either. -/
def Adopted (config : Config) (relay : Endpoint) : List Exchange → Prop :=
  Since (fun e => e.adopted? = none ∧ ¬ e.Enters .discovering)
    fun earlier e => ∃ nonce address, e.adopted? = some (nonce, address) ∧
      relay = .of address config.relayPort ∧
      address.sameFamily config.discoveryAddress.address ∧ ¬ e.Enters .discovering ∧
      Discovered config nonce earlier

/-- The last request carried `nonce` and went to `relay`, the relay adopted last. Since then no
other relay has been adopted, and the session has not begun to ask or to discover anew. -/
def Requested (config : Config) (relay : Endpoint) (nonce : UInt32) : List Exchange → Prop :=
  Since (fun e => e.requested? = none ∧ e.adopted? = none ∧ ¬ e.Enters .requesting ∧
      ¬ e.Enters .discovering)
    fun earlier e => e.sent? = some (.request nonce config.preferMld, relay) ∧
      ¬ e.Enters .discovering ∧ Adopted config relay earlier

end Session

namespace Exchange

open Session

variable {e : Exchange}

/-- An active session leaves `relay` for another one. -/
def Leaves (e : Exchange) (config : Config) (relay : Endpoint) : Prop :=
  e.before.phase = .active ∧ e.before.relay = some relay ∧
    ∃ nonce address, e.adopted? = some (nonce, address) ∧ .of address config.relayPort ≠ relay

theorem answers_of_enters_active (h : e.Enters .active) :
    ∃ sender nonce mac gatewayAddress interval now,
      e.input = .query sender nonce mac gatewayAddress interval now ∧
      e.before.Answers sender nonce := by
  have rule := e.responds
  obtain ⟨before, after⟩ := h
  generalize e.before = s, e.input = input, e.output = output, e.after = s' at rule before after ⊢
  cases rule with
  | timer fires => exact absurd (fires.keeps.active after) before
  | advertisement heeds => cases heeds <;> simp_all [enterRequesting]
  | query hears =>
    cases hears with
    | rejected other => exact absurd after before
    | activated answers phase => exact ⟨_, _, _, _, _, _, rfl, answers⟩
    | accepted answers phase => exact absurd phase before
  | ioSuccess => exact absurd after before
  | ioError suffers => cases suffers <;> simp_all
  | close => simp at after

theorem awaits_of_heeded {nonce : UInt32} {relay : Address}
    (h : e.heeded? = some (nonce, relay)) : e.before.Awaits nonce relay := by
  have rule := e.responds
  simp only [heeded?] at h
  generalize e.before = s, e.input = input, e.output = output, e.after = s' at rule h ⊢
  cases rule with
  | advertisement heeds => cases heeds <;> simp_all
  | _ => simp at h

theorem answers_of_accepted {sender : Endpoint} {mac : ResponseMac} {nonce : UInt32}
    (h : e.acceptedQuery? = some (sender, mac, nonce)) : e.before.Answers sender nonce := by
  have rule := e.responds
  simp only [acceptedQuery?] at h
  generalize e.before = s, e.input = input, e.output = output, e.after = s' at rule h ⊢
  cases rule with
  | query hears => cases hears <;> simp_all
  | _ => simp at h

end Exchange

namespace Session

variable {config : Config} {past : List Exchange} {e : Exchange}

/-! ### The invariant -/

/-- What a session remembers is where the handshake stands. -/
structure InStep (config : Config) (past : List Exchange) (s : Session) : Prop where
  discovered : ∀ nonce, s.discoveryNonce = some nonce → Discovered config nonce past
  adopted : ∀ relay, s.relay = some relay → Adopted config relay past
  requested : ∀ relay nonce, s.relay = some relay → s.requestNonce = some nonce →
    Requested config relay nonce past

theorem InStep.initial : InStep config [] (start config) :=
  ⟨by simp [start], by simp [start], by simp [start]⟩

theorem InStep.exchange (hconfig : e.before.config = config) (h : InStep config past e.before) :
    InStep config (past ++ [e]) e.after where
  discovered nonce hnonce := by
    rcases e.discoveryNonce_after with hnone | ⟨hkept, quiet⟩ | ⟨sent, hsent, message⟩
    · simp [hnone] at hnonce
    · rw [hkept] at hnonce
      exact (h.discovered nonce hnonce).keep quiet
    · obtain rfl := Option.some.inj (hsent.symm.trans hnonce)
      rw [hconfig] at message
      exact .now message
  adopted relay hrelay := by
    rcases e.relay_after with hnone | ⟨hkept, quiet⟩ |
      ⟨nonce, address, adopted, hadopted, answer, family, enters⟩
    · simp [hnone] at hrelay
    · rw [hkept] at hrelay
      exact (h.adopted relay hrelay).keep quiet
    · -- the advertisement answers the last discovery message, by the first part of the invariant
      subst hconfig
      obtain rfl := Option.some.inj (hadopted.symm.trans hrelay)
      have discovered := h.discovered nonce answer
      exact .now ⟨nonce, address, adopted, rfl, family, enters, discovered⟩
  requested relay nonce hrelay hnonce := by
    rcases e.requestNonce_after with hnone | ⟨hkept, same, quiet⟩ |
      ⟨sent, recipient, hsent, message, known, stays, enters⟩
    · simp [hnone] at hnonce
    · rw [same] at hrelay
      rw [hkept] at hnonce
      exact (h.requested relay nonce hrelay hnonce).keep quiet
    · -- the request goes to the relay adopted last, by the second part
      subst hconfig
      obtain rfl := Option.some.inj (hsent.symm.trans hnonce)
      obtain rfl := Option.some.inj (stays.symm.trans hrelay)
      have adopted := h.adopted recipient known
      exact .now ⟨message, enters, adopted⟩

theorem inStep_run (config : Config) (inputs : List Input) :
    InStep config (history config inputs) (run config inputs) :=
  run_induction InStep.initial (fun _ _ hconfig h => h.exchange hconfig) inputs

theorem Adopted.again {relay : Endpoint} {earlier later : List Exchange}
    (h : Adopted config relay (earlier ++ e :: later)) (leaves : e.Leaves config relay) :
    ∃ readopts ∈ later, ∃ nonce address,
      readopts.adopted? = some (nonce, address) ∧ relay = .of address config.relayPort := by
  obtain ⟨-, -, nonce, address, adopted, other⟩ := leaves
  -- the departure breaks what has to hold since the relay was adopted
  have breaks : ¬ (e.adopted? = none ∧ ¬ e.Enters .discovering) := by simp [adopted]
  obtain ⟨readopts, hlater, -, nonce', address', adopted', hrelay, -⟩ := h.exists_after breaks (by
    rintro before ⟨nonce', address', adopted', hrelay, -⟩
    obtain ⟨-, rfl⟩ := Prod.mk.inj (Option.some.inj (adopted.symm.trans adopted'))
    exact other hrelay.symm)
  exact ⟨readopts, hlater, nonce', address', adopted', hrelay⟩

/-- **The handshake is in order.** After any inputs: what brings the tunnel up is a query that
answers the last request, sent to the relay adopted last, whose advertisement answered the last
discovery message; an advertisement is heeded only if it is the first answer to the last discovery
message; and a query is accepted from a relay that an active session has left only if that relay
was adopted again. -/
theorem handshake_in_order (config : Config) (inputs : List Input) :
    (∀ input, (Exchange.mk (run config inputs) input).Enters .active →
      ∃ sender nonce mac gatewayAddress interval now,
        input = .query sender nonce mac gatewayAddress interval now ∧
        Requested config sender nonce (history config inputs)) ∧
    (∀ input nonce relay,
      (Exchange.mk (run config inputs) input).heeded? = some (nonce, relay) →
        Discovered config nonce (history config inputs)) ∧
    ∀ input relay mac nonce earlier e later,
      (Exchange.mk (run config inputs) input).acceptedQuery? = some (relay, mac, nonce) →
      history config inputs = earlier ++ e :: later → e.Leaves config relay →
        ∃ readopts ∈ later, ∃ nonce address,
          readopts.adopted? = some (nonce, address) ∧ relay = .of address config.relayPort := by
  have inStep := inStep_run config inputs
  refine ⟨?_, ?_, ?_⟩
  · intro input enters
    obtain ⟨sender, nonce, mac, gatewayAddress, interval, now, rfl, answers⟩ :=
      Exchange.answers_of_enters_active enters
    obtain ⟨-, relay, request⟩ := answers
    exact ⟨sender, nonce, mac, gatewayAddress, interval, now, rfl,
      inStep.requested sender nonce relay request⟩
  · intro input nonce relay heeded
    have awaits := Exchange.awaits_of_heeded heeded
    exact inStep.discovered nonce awaits.2.1
  · intro input relay mac nonce earlier e later accepted split leaves
    have answers := Exchange.answers_of_accepted accepted
    have adopted : Adopted config relay (history config inputs) := inStep.adopted relay answers.2.1
    rw [split] at adopted
    exact adopted.again leaves

/-- Inputs that bring a tunnel up with one relay, then with another, and have the first one adopted
and asked again. -/
def thereAndBack (first second : Address) : List Input :=
  let day := Duration.ofSeconds 86400
  [.timer 0 11, .advertisement 11 first, .timer 0 22,
    .query (.of first tunnelPort) 22 1 none none 0,
    .timer day 33, .advertisement 33 second, .timer day 44,
    .query (.of second tunnelPort) 44 2 none none day,
    .timer (2 * day) 55, .advertisement 55 first, .timer (2 * day) 66]

theorem handshake_in_order_thereAndBack :
    let first := Address.ofOctets 192 0 2 7
    let second := Address.ofOctets 192 0 2 8
    let config := Config.standard (.of (.ofOctets 192 0 2 1) tunnelPort)
    let inputs := thereAndBack first second
    let e : Exchange := ⟨run config inputs, .query (.of first tunnelPort) 66 3 none none 0⟩
    e.Enters .active ∧ Requested config (.of first tunnelPort) 66 (history config inputs) ∧
      Discovered config 33 (history config (inputs.take 5)) ∧
      ∃ readopts ∈ (history config inputs).drop 6, ∃ nonce,
        readopts.adopted? = some (nonce, first) := by
  intro first second config inputs e
  have enters : e.Enters .active := by decide
  obtain ⟨_, _, _, _, _, _, query, requested⟩ :=
    (handshake_in_order config inputs).1 e.input enters
  obtain ⟨rfl, rfl, -⟩ := Input.query.inj query
  have discovered : Discovered config 33 (history config (inputs.take 5)) :=
    (handshake_in_order config (inputs.take 5)).2.1 (.advertisement 33 second) 33 second (by decide)
  obtain ⟨readopts, later, nonce, address, adopted, same⟩ :=
    (handshake_in_order config inputs).2.2 e.input (.of first tunnelPort) 3 66
      (history config (inputs.take 5)) ⟨run config (inputs.take 5), .advertisement 33 second⟩
      ((history config inputs).drop 6) (by decide) (by decide)
      ⟨by decide, by decide, 33, second, by decide, by decide⟩
  obtain ⟨rfl, -⟩ := Endpoint.mk.inj same
  exact ⟨enters, requested, discovered, readopts, later, nonce, adopted⟩

end Session

end MulticastTunnel
