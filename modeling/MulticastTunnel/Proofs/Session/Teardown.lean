import MulticastTunnel.Proofs.Session.Phases

/-!
# The address in a teardown

A teardown tells a relay under which address it has seen the gateway. The session remembers the
address that was announced last, whichever relay announced it; it is not forgotten when another
relay is adopted. So the address in a teardown may be one that its recipient has never announced.

* `Session.lastAnnounced?`, `Session.announcedSinceAdoption` : what relays have announced.
* `Session.teardown_address` : **a teardown carries the address announced last in all the run**,
  which is the one announced last by its recipient if that has announced any.
* `Session.teardown_address_of_moved` : a run in which the recipient has announced none.
-/

namespace MulticastTunnel

namespace Exchange

open Session

/-- The address of the gateway that an accepted query announced, and the sender of the query. -/
def announced? (e : Exchange) : Option (Endpoint × GatewayAddress) :=
  match e.input, e.output with
  | .query _ _ _ _ _ _, .query .rejected => none
  | .query sender _ _ gatewayAddress _ _, .query _ => gatewayAddress.map fun seen => (sender, seen)
  | _, _ => none

theorem gatewayAddress_after (e : Exchange) :
    e.after.gatewayAddress = (e.announced?.map Prod.snd).or e.before.gatewayAddress := by
  have rule := e.responds
  simp only [announced?]
  generalize e.before = s, e.input = input, e.output = output, e.after = s' at rule ⊢
  cases rule with
  | timer fires => exact fires.keeps.gatewayAddress
  | advertisement heeds => cases heeds <;> rfl
  | @query _ _ _ gatewayAddress _ _ _ _ hears =>
    cases hears <;> cases gatewayAddress <;> simp [Session.answered]
  | ioSuccess => rfl
  | ioError suffers => cases suffers <;> rfl
  | close => rfl

theorem relay_of_announced {e : Exchange} {sender : Endpoint} {seen : GatewayAddress}
    (h : e.announced? = some (sender, seen)) : e.before.relay = some sender := by
  have rule := e.responds
  simp only [announced?] at h
  generalize e.before = s, e.input = input, e.output = output, e.after = s' at rule h ⊢
  cases rule with
  | query hears => cases hears <;> simp_all [Answers]
  | _ => simp at h

end Exchange

namespace Session

variable {config : Config} {past : List Exchange} {s : Session} {e : Exchange}

/-- The announcement that came last. -/
def lastAnnounced? (past : List Exchange) : Option (Endpoint × GatewayAddress) :=
  (past.filterMap Exchange.announced?).getLast?

/-- The announcements since a relay was adopted last. -/
def announcedSinceAdoption (past : List Exchange) : List (Endpoint × GatewayAddress) :=
  (past.rtakeWhile fun e => e.adopted?.isNone).filterMap Exchange.announced?

theorem lastAnnounced?_concat :
    lastAnnounced? (past ++ [e]) = e.announced?.or (lastAnnounced? past) := by
  cases h : e.announced? <;> simp [lastAnnounced?, h]

theorem announcedSinceAdoption_concat :
    announcedSinceAdoption (past ++ [e]) =
      if e.adopted?.isNone then announcedSinceAdoption past ++ e.announced?.toList else [] := by
  rw [announcedSinceAdoption, List.rtakeWhile_concat]
  cases h : e.announced? <;> split <;> simp [announcedSinceAdoption, h]

/-- If there are announcements since the last adoption, they end with the one that came last. -/
theorem getLast?_announcedSinceAdoption (h : announcedSinceAdoption past ≠ []) :
    (announcedSinceAdoption past).getLast? = lastAnnounced? past := by
  obtain ⟨earlier, split⟩ : announcedSinceAdoption past <:+ past.filterMap Exchange.announced? :=
    (List.rtakeWhile_suffix _ past).filterMap Exchange.announced?
  rw [lastAnnounced?, ← split, List.getLast?_append_of_ne_nil _ h]

/-- The address remembered is the one announced last, and what was announced since the relay was
adopted was announced by the relay. -/
structure Remembers (past : List Exchange) (s : Session) : Prop where
  address : s.gatewayAddress = (lastAnnounced? past).map Prod.snd
  announcer : ∀ relay, s.relay = some relay → ∀ a ∈ announcedSinceAdoption past, a.1 = relay

theorem Remembers.exchange (h : Remembers past e.before) : Remembers (past ++ [e]) e.after where
  address := by
    rw [e.gatewayAddress_after, h.address, lastAnnounced?_concat]
    cases e.announced? <;> rfl
  announcer relay known a ha := by
    rw [announcedSinceAdoption_concat] at ha
    rcases e.relay_after with unknown | ⟨same, unadopted, -⟩ | ⟨nonce, address, adopted, -⟩
    · simp [unknown] at known
    · -- the relay stays the same, and it is the only one to announce anything
      rw [same] at known
      rw [if_pos (by simp [unadopted]), List.mem_append, Option.mem_toList] at ha
      rcases ha with ha | ha
      · exact h.announcer relay known a ha
      · have announcer := Exchange.relay_of_announced (Option.mem_def.1 ha)
        exact Option.some.inj (announcer.symm.trans known)
    · simp [adopted] at ha

theorem remembers_run (config : Config) (inputs : List Input) :
    Remembers (history config inputs) (run config inputs) :=
  run_induction ⟨rfl, by simp [start]⟩ (fun _ _ _ h => h.exchange) inputs

/-- **The address in a teardown.** After any inputs, a session that is not active has no teardown to
send. An active one sends the address announced last to its relay, if any relay has announced one.
All that was announced since the relay was adopted comes from the relay itself; so the address is
the last one of these exactly if there are any, or if nothing was ever announced. -/
theorem teardown_address (config : Config) (inputs : List Input) :
    let s := run config inputs
    let past := history config inputs
    (s.phase ≠ .active → s.close.1 = none) ∧
    (s.phase = .active → ∃ relay nonce, s.relay = some relay ∧ s.requestNonce = some nonce ∧
      s.close.1 =
        (lastAnnounced? past).map fun last => (.teardown s.mac nonce last.2, relay)) ∧
    (∀ relay, s.relay = some relay → ∀ a ∈ announcedSinceAdoption past, a.1 = relay) ∧
    ((announcedSinceAdoption past).getLast? = lastAnnounced? past ↔
      announcedSinceAdoption past ≠ [] ∨ lastAnnounced? past = none) := by
  intro s past
  have remembers : Remembers past s := remembers_run config inputs
  refine ⟨fun inactive => if_neg inactive, fun active => ?_, remembers.announcer, ?_⟩
  · have coherent : s.Coherent := coherent_run config inputs
    obtain ⟨relay, request, -⟩ := coherent.active active
    obtain ⟨relay, known⟩ := Option.isSome_iff_exists.1 relay
    obtain ⟨nonce, requested⟩ := Option.isSome_iff_exists.1 request
    refine ⟨relay, nonce, known, requested, ?_⟩
    simp only [close, teardown?, active, known, requested, remembers.address]
    cases lastAnnounced? past <;> rfl
  · by_cases none : announcedSinceAdoption past = []
    · simp [none, eq_comm]
    · simp [none, getLast?_announcedSinceAdoption none]

/-- Inputs that bring a tunnel up with a relay that announces an address of the gateway, and then
with another relay that does not. -/
def moved (first second : Address) (seen : GatewayAddress) : List Input :=
  let day := Duration.ofSeconds 86400
  [.timer 0 11, .advertisement 11 first, .timer 0 22,
    .query (.of first tunnelPort) 22 0x010203040506 (some seen) none 0,
    .timer day 33, .advertisement 33 second, .timer day 44,
    .query (.of second tunnelPort) 44 0x0a0b0c0d0e0f none none day]

/-- Before the second relay is found, the first one is sent the address that it has announced. -/
theorem teardown_address_of_announced :
    let first := Address.ofOctets 192 0 2 7
    let second := Address.ofOctets 192 0 2 8
    let seen : GatewayAddress := ⟨40000, .ofOctets 198 51 100 3⟩
    let config := Config.standard (.of (.ofOctets 192 0 2 1) tunnelPort)
    let inputs := (moved first second seen).take 4
    (run config inputs).phase = .active ∧
      announcedSinceAdoption (history config inputs) = [(.of first tunnelPort, seen)] ∧
      ∃ relay nonce, (run config inputs).relay = some relay ∧
        (run config inputs).close.1 =
          some (.teardown (run config inputs).mac nonce seen, relay) := by
  intro first second seen config inputs
  have active : (run config inputs).phase = .active := by decide
  have last : lastAnnounced? (history config inputs) = some (.of first tunnelPort, seen) := by
    decide
  obtain ⟨relay, nonce, known, -, sent⟩ := (teardown_address config inputs).2.1 active
  rw [last] at sent
  exact ⟨active, by decide, relay, nonce, known, sent⟩

/-- The second relay is told an address that only the first one has announced. -/
theorem teardown_address_of_moved :
    let first := Address.ofOctets 192 0 2 7
    let second := Address.ofOctets 192 0 2 8
    let seen : GatewayAddress := ⟨40000, .ofOctets 198 51 100 3⟩
    let config := Config.standard (.of (.ofOctets 192 0 2 1) tunnelPort)
    let inputs := moved first second seen
    (run config inputs).close.1 =
        some (.teardown 0x0a0b0c0d0e0f 44 seen, .of second tunnelPort) ∧
      announcedSinceAdoption (history config inputs) = [] ∧
      lastAnnounced? (history config inputs) = some (.of first tunnelPort, seen) := by
  decide

end Session

end MulticastTunnel
