import MulticastTunnel.Proofs.Tunnel.Steps

/-!
# Datagrams that nobody waits for

Anybody can send datagrams to the socket of a tunnel. Most messages are heeded only if they answer
a message that the session has sent, and multicast data only if it comes from the relay in use. All
else is ignored, whoever sends it and in whatever state the tunnel is: the socket is known to work,
and what can not be read is counted.

* `Session.Expects` : the messages that a session waits for.
* `Tunnel.ignored` : a tunnel that has received something else.
* `Tunnel.perform_heed_of_not_expects`, `Tunnel.step_receive_of_not_expects` : nothing more happens.
* `BusyTunnel.strangers_change_nothing` : **so it is for every tunnel**, and nearly so if its own
  relay is advertised once more.
-/

namespace MulticastTunnel

namespace Session

variable {s : Session} {sender : Endpoint} {nonce : UInt32} {relay : Address}

/-- The session waits for the message: it is an answer to the last discovery message, or to the last
request by a relay that asks a query, or it is data of the relay in use. -/
def Expects (s : Session) (sender : Endpoint) : Message → Prop
  | .advertisement nonce relay => s.Awaits nonce relay
  | .query _ _ nonce packet _ => s.Answers sender nonce ∧ ∃ q, Query.decode packet = .ok q
  | .data _ => s.phase = .active ∧ s.relay = some sender
  | _ => False

theorem not_expects_of_closed (closed : s.phase = .closed) (message : Message) :
    ¬ s.Expects sender message := by
  cases message <;> simp [Expects, Awaits, Answers, closed]

theorem onAdvertisement_of_not_awaits (other : ¬ s.Awaits nonce relay) :
    s.onAdvertisement nonce relay = (false, s) := by
  have heeds := onAdvertisement_heeds s nonce relay
  generalize s.onAdvertisement nonce relay = answer at heeds ⊢
  cases heeds with
  | ignored => rfl
  | confirmed awaited => exact absurd awaited other
  | adopted awaited => exact absurd awaited other

theorem onAdvertisement_of_own (awaited : s.Awaits nonce relay) (active : s.phase = .active)
    (own : s.relay = some (.of relay s.config.relayPort)) :
    s.onAdvertisement nonce relay = (false, { s with discoveryNonce := none }) := by
  have heeds := onAdvertisement_heeds s nonce relay
  generalize s.onAdvertisement nonce relay = answer at heeds ⊢
  cases heeds with
  | ignored other => exact absurd awaited other
  | confirmed => rfl
  | adopted _ new => exact absurd own (new active)

theorem onQuery_of_not_answers (other : ¬ s.Answers sender nonce) (mac : ResponseMac)
    (gatewayAddress : Option GatewayAddress) (interval : Option Duration) (now : Instant) :
    s.onQuery sender nonce mac gatewayAddress interval now = (.rejected, s) := by
  have hears := onQuery_hears s sender nonce mac gatewayAddress interval now
  generalize s.onQuery sender nonce mac gatewayAddress interval now = answer at hears ⊢
  cases hears with
  | rejected => rfl
  | activated answers => exact absurd answers other
  | accepted answers => exact absurd answers other

end Session

/-! ### What can not be read -/

/-- The message carries a query that can not be read. -/
def Message.isMalformed : Message → Bool
  | .query _ _ _ packet _ => !(Query.decode packet).isOk
  | _ => false

/-- The datagram is no message, or carries a query that can not be read. -/
def Message.isMalformedDatagram (bytes : Bytes) : Bool :=
  match Message.decode bytes with
  | .error _ => true
  | .ok message => message.isMalformed

namespace Tunnel

variable {t : Tunnel} {now : Instant} {net : Transmit} {sender : Endpoint} {bytes : Bytes}

/-- The tunnel has received something that it does not wait for. -/
def ignored (t : Tunnel) (malformed : Bool) : Tunnel :=
  if malformed then t.count .malformed else t

/-- A message that the session does not wait for is the end of its datagram. -/
theorem perform_heed_of_not_expects {message : Message}
    (stranger : ¬ t.session.Expects sender message) :
    t.perform now net (.heed sender message) = (t.ignored message.isMalformed, []) := by
  cases message with
  | advertisement nonce relay =>
    have other : ¬ t.session.Awaits nonce relay := stranger
    simp [perform, Session.onAdvertisement_of_not_awaits other, ignored, Message.isMalformed]
  | query limited mac nonce packet gateway =>
    simp only [perform, Message.isMalformed]
    cases h : Query.decode packet with
    | error _ => rfl
    | ok q =>
      -- it can be read, so it must be the session that does not want it
      have other : ¬ t.session.Answers sender nonce := fun answers => stranger ⟨answers, q, h⟩
      dsimp only
      rw [Session.onQuery_of_not_answers other]
      rfl
  | data packet =>
    have other : ¬ (t.session.phase = .active ∧ t.session.relay = some sender) := stranger
    simp only [perform, onData, if_neg other]
    rfl
  | _ => rfl

theorem perform_heed_of_own {nonce : UInt32} {relay : Address}
    (awaited : t.session.Awaits nonce relay) (active : t.session.phase = .active)
    (own : t.session.relay = some (.of relay t.session.config.relayPort)) :
    t.perform now net (.heed sender (.advertisement nonce relay)) =
      ({ t with session := { t.session with discoveryNonce := none } }, []) := by
  simp [perform, Session.onAdvertisement_of_own awaited active own, active]

/-- What a datagram does, if its message is dealt with at once. -/
theorem step_receive {opens : (Part.receive sender bytes).Opens = true} {message : Message}
    {t' : Tunnel} (decoded : Message.decode bytes = .ok message)
    (heeded : { t with session := t.session.onIoSuccess }.perform now net (.heed sender message) =
      (t', [])) :
    t.step ⟨now, net, .receive sender bytes, opens⟩ = t' := by
  have done : Completes now net [.receive sender bytes] t t' := by
    refine .single ?_
    simp only [perform, decoded]
    refine .single ?_
    rw [heeded]
    exact .done t'
  exact (step_completes t ⟨now, net, .receive sender bytes, opens⟩).unique done

theorem step_receive_of_not_expects {opens : (Part.receive sender bytes).Opens = true}
    (stranger : ∀ message, Message.decode bytes = .ok message →
      ¬ t.session.Expects sender message) :
    t.step ⟨now, net, .receive sender bytes, opens⟩ =
      { t with session := t.session.onIoSuccess }.ignored (Message.isMalformedDatagram bytes) := by
  cases decoded : Message.decode bytes with
  | error _ => simp [step, accept, decoded, ignored, Message.isMalformedDatagram]
  | ok message =>
    -- what is waited for does not depend on the errors in a row
    have unexpected : ¬ t.session.onIoSuccess.Expects sender message := by
      cases message <;> exact stranger _ decoded
    rw [step_receive decoded (perform_heed_of_not_expects unexpected), Message.isMalformedDatagram,
      decoded]

end Tunnel

namespace BusyTunnel

/-- **Datagrams that nobody waits for change nothing.** At any time, whatever is in progress, a
datagram from any sender that is not a message the session waits for is received and forgotten: the
socket errors in a row are over, and one more malformed message is counted exactly if the datagram
or the query in it can not be read. Even if other work comes between its arrival and its message
being dealt with, the message changes no more than that count. An advertisement of the relay in use
only ends the discovery that it answers. This is all that a running tunnel does when it receives a
datagram. -/
theorem strangers_change_nothing {config : Config} {random : Randomness} {start : Instant}
    {t₀ : Tunnel} (started : Tunnel.start config random start = .ok t₀) (turns : List Turn)
    (now : Instant) (net : Transmit) (sender : Endpoint) (bytes : Bytes) :
    let t := (run ⟨t₀, []⟩ turns).tunnel
    ((∀ message, Message.decode bytes = .ok message → ¬ t.session.Expects sender message) →
      t.step { now, net, part := .receive sender bytes } = { t with
        session := { t.session with ioFailures := 0 }
        counters := if Message.isMalformedDatagram bytes then t.counters.count .malformed
          else t.counters }) ∧
    (∀ message, ¬ t.session.Expects sender message →
      t.perform now net (.heed sender message) = ({ t with
        counters := if message.isMalformed then t.counters.count .malformed
          else t.counters }, [])) ∧
    (∀ nonce relay, t.session.Awaits nonce relay → t.session.phase = .active →
      t.session.relay.map Endpoint.address = some relay →
      (Message.decode bytes = .ok (.advertisement nonce relay) →
        t.step { now, net, part := .receive sender bytes } = { t with
          session := { t.session with ioFailures := 0, discoveryNonce := none } }) ∧
      t.perform now net (.heed sender (.advertisement nonce relay)) =
        ({ t with session := { t.session with discoveryNonce := none } }, [])) ∧
    (t.status = .running →
      t.receive now sender bytes = t.step { now, net, part := .receive sender bytes }) := by
  intro t
  have sound : t.Sound config := sound_run started turns
  have counts : ∀ (t : Tunnel) (malformed : Bool), t.ignored malformed = { t with
      counters := if malformed then t.counters.count .malformed else t.counters } := by
    intro t malformed
    cases malformed <;> rfl
  refine ⟨fun stranger => ?_, fun message stranger => ?_, fun nonce relay awaited active own => ?_,
    fun running => Tunnel.receive_of_running running sender bytes⟩
  · refine (Tunnel.step_receive_of_not_expects stranger).trans ?_
    rw [counts]
    rfl
  · rw [Tunnel.perform_heed_of_not_expects stranger, counts]
  · -- the port of the relay in use is the one that advertised relays have
    obtain ⟨endpoint, known, rfl⟩ := Option.map_eq_some_iff.1 own
    obtain ⟨port, bare, -⟩ := sound.coherent.relay endpoint known
    have known : t.session.relay = some (.of endpoint.address t.session.config.relayPort) := by
      rw [known, ← port]
      exact congrArg some bare.symm
    refine ⟨fun decoded => ?_, Tunnel.perform_heed_of_own awaited active known⟩
    exact Tunnel.step_receive decoded (Tunnel.perform_heed_of_own awaited active known)

/-- The tunnel is up and looks for a relay once more. An advertisement with an old nonce is ignored,
and that of the relay in use ends the discovery. -/
theorem strangers_change_nothing_rediscovery :
    let config := Config.standard (.of (.ofOctets 192 0 2 1) tunnelPort)
    let random := Randomness.fresh (fun _ => 7) (fun _ => 0)
    let relay := Address.ofOctets 192 0 2 7
    let later : Instant := 9 + config.rediscoveryInterval
    let net : Transmit := fun _ _ => none
    let past := Tunnel.handshake relay (.general 100) ++ [{ now := later, net, part := .wake 2 }]
    ∃ t₀, Tunnel.start config random 0 = .ok t₀ ∧
      let t := t₀.steps past
      let advertised (nonce : UInt32) : Tunnel.Step :=
        ⟨later, net,
          .receive (.of relay tunnelPort) (Message.advertisement nonce relay).encode, rfl⟩
      t.session.phase = .active ∧ t.session.discoveryNonce = some 7 ∧
      t.step (advertised 8) = { t with session := { t.session with ioFailures := 0 } } ∧
      t.step (advertised 7) = { t with
        session := { t.session with ioFailures := 0, discoveryNonce := none } } := by
  intro config random relay later net past
  obtain ⟨t₀, started⟩ : ∃ t₀, Tunnel.start config random 0 = .ok t₀ := ⟨_, rfl⟩
  refine ⟨t₀, started, ?_⟩
  intro t advertised
  have phase : t.session.phase = .active := by
    cases started
    decide +kernel
  have nonce : t.session.discoveryNonce = some 7 := by
    cases started
    decide +kernel
  have own : t.session.relay.map Endpoint.address = some relay := by
    cases started
    decide +kernel
  have family : relay.sameFamily t.session.config.discoveryAddress.address := by
    cases started
    decide +kernel
  obtain ⟨turns, same⟩ := exists_run_of_steps t₀ past []
  have unaffected := fun bytes =>
    strangers_change_nothing started turns later net (.of relay tunnelPort) bytes
  simp only [same] at unaffected
  refine ⟨phase, nonce, ?_, ?_⟩
  · -- the nonce is not the one that is waited for
    have decoded : Message.decode (Message.advertisement 8 relay).encode =
        .ok (.advertisement 8 relay) := by decide
    have readable : Message.isMalformedDatagram (Message.advertisement 8 relay).encode = false := by
      decide
    refine ((unaffected _).1 fun message read => ?_).trans ?_
    · rw [decoded] at read
      cases read
      intro awaited
      have other : t.session.discoveryNonce = some 8 := awaited.2.1
      simp [nonce] at other
    · rw [readable]
      rfl
  · have decoded : Message.decode (Message.advertisement 7 relay).encode =
        .ok (.advertisement 7 relay) := by decide
    exact ((unaffected _).2.2.1 7 relay ⟨.inr phase, nonce, family⟩ phase own).1 decoded

end BusyTunnel

end MulticastTunnel
