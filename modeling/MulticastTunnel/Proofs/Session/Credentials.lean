import MulticastTunnel.Proofs.Session.Run

/-!
# The credentials that a session announces

Updates and teardowns carry an authentication code and a nonce, by which the relay recognizes the
gateway. The code is always that of the query accepted last. The nonce is that of the last request,
so it runs ahead of the code while a refresh waits for its answer.

* `Session.mostRecentQuery?`, `Session.requestsSinceQuery` : what the history says about them.
* `Session.InTouch` : the invariant of active sessions.
* `Session.announced_credentials` : **code and nonce belong to one query exactly if no request with
  another nonce has followed it.**
* `Session.announced_credentials_of_refresh` : a run in which they do not.
-/

namespace MulticastTunnel

namespace Session

/-- Sender, authentication code and nonce of the query accepted last. -/
def mostRecentQuery? (past : List Exchange) : Option (Endpoint × ResponseMac × UInt32) :=
  (past.filterMap Exchange.acceptedQuery?).getLast?

/-- The nonces of the requests sent since then. -/
def requestsSinceQuery (past : List Exchange) : List UInt32 :=
  (past.rtakeWhile fun e => e.acceptedQuery?.isNone).filterMap Exchange.requested?

/-- An update or a teardown of the session goes to `recipient`, with these credentials. -/
def Announces (s : Session) (recipient : Endpoint) (mac : ResponseMac) (nonce : UInt32) : Prop :=
  s.updateTarget? = some (recipient, mac, nonce) ∨
    ∃ gatewayAddress, s.close.1 = some (.teardown mac nonce gatewayAddress, recipient)

theorem Announces.credentials {s : Session} {recipient : Endpoint} {mac : ResponseMac}
    {nonce : UInt32} (h : s.Announces recipient mac nonce) :
    s.phase = .active ∧ s.relay = some recipient ∧ s.mac = mac ∧ s.requestNonce = some nonce := by
  by_cases phase : s.phase = .active
  · rcases h with h | ⟨gatewayAddress, h⟩
    · simp only [updateTarget?, phase, ↓reduceIte, Option.pure_def, Option.bind_eq_bind,
        Option.bind_eq_some_iff, Option.some.injEq, Prod.mk.injEq] at h
      obtain ⟨relay, known, sent, nonce', rfl, rfl, rfl⟩ := h
      exact ⟨phase, known, rfl, nonce'⟩
    · simp only [close, teardown?, phase, ↓reduceIte, Option.pure_def, Option.bind_eq_bind,
        Option.bind_eq_some_iff, Option.some.injEq, Prod.mk.injEq, Message.teardown.injEq] at h
      obtain ⟨sent, nonce', address, -, relay, known, ⟨rfl, rfl, -⟩, rfl⟩ := h
      exact ⟨phase, known, rfl, nonce'⟩
  · simp [Announces, updateTarget?, close, teardown?, phase] at h

variable {past : List Exchange} {e : Exchange}

theorem mostRecentQuery?_concat :
    mostRecentQuery? (past ++ [e]) = e.acceptedQuery?.or (mostRecentQuery? past) := by
  cases h : e.acceptedQuery? <;> simp [mostRecentQuery?, h]

theorem requestsSinceQuery_concat :
    requestsSinceQuery (past ++ [e]) =
      if e.acceptedQuery?.isNone then requestsSinceQuery past ++ e.requested?.toList else [] := by
  rw [requestsSinceQuery, List.rtakeWhile_concat]
  cases h : e.requested? <;> split <;> simp [requestsSinceQuery, h]

end Session

namespace Exchange

open Session

/-- How a session gets active or stays so: it accepts a query, or keeps code and relay; of the
messages that it sends only a request changes the nonce, and it then waits for the answer. -/
theorem active_after {e : Exchange} (h : e.after.phase = .active) :
    (∃ sender nonce, e.acceptedQuery? = some (sender, e.after.mac, nonce) ∧
      e.after.relay = some sender ∧ e.after.requestNonce = some nonce ∧
      e.after.refreshPending = false) ∨
    e.acceptedQuery? = none ∧ e.before.phase = .active ∧ e.after.relay = e.before.relay ∧
      e.after.mac = e.before.mac ∧
      (e.requested? = none ∧ e.after.requestNonce = e.before.requestNonce ∧
          e.after.refreshPending = e.before.refreshPending ∨
        ∃ nonce, e.requested? = some nonce ∧ e.after.requestNonce = some nonce ∧
          e.before.refreshPending = false ∧ e.after.refreshPending = true) := by
  have rule := e.responds
  simp only [acceptedQuery?, requested?, sent?]
  generalize e.before = s, e.input = input, e.output = output, e.after = s' at rule h ⊢
  cases rule with
  | timer fires =>
    have before := fires.keeps.active h
    cases fires with
    | closed other | discovering other | requesting other => cases before.symm.trans other
    | relayless phase relay discovers => cases discovers.keeps.active h
    | active phase known attends =>
      cases attends with
      | rediscovers due => simp [phase]
      | unanswered notDue pending asks => cases asks.keeps.active h
      | refreshes notDue answered => simp_all
  | advertisement heeds => cases heeds <;> simp_all [enterRequesting]
  | query hears =>
    cases hears with
    | rejected other => simp [h]
    | activated answers phase => simp [Session.answered, answers.2.1, answers.2.2]
    | accepted answers phase => simp [Session.answered, answers.2.1, answers.2.2]
  | ioSuccess => simp_all
  | ioError suffers => cases suffers <;> simp_all [enterRequesting]
  | close => simp at h

end Exchange

namespace Session

variable {config : Config} {past : List Exchange} {s : Session} {e : Exchange}

/-- An active session has the code of the query accepted last, and talks to its sender. Its nonce
is that of the query, or that of the one refresh sent since. -/
def InTouch (past : List Exchange) (s : Session) : Prop :=
  s.phase = .active → ∃ sender nonce, mostRecentQuery? past = some (sender, s.mac, nonce) ∧
    s.relay = some sender ∧
    (s.refreshPending = false ∧ s.requestNonce = some nonce ∧ requestsSinceQuery past = [] ∨
      s.refreshPending = true ∧
        ∃ refresh, s.requestNonce = some refresh ∧ requestsSinceQuery past = [refresh])

theorem InTouch.exchange (h : InTouch past e.before) : InTouch (past ++ [e]) e.after := by
  intro active
  rcases Exchange.active_after active with
    ⟨sender, nonce, accepted, relay, request, answered⟩ |
    ⟨unasked, phase, relay, mac, quiet | ⟨refresh, requested, request, answered, pending⟩⟩
  · -- a query was accepted, and is now the most recent one
    refine ⟨sender, nonce, ?_, relay, .inl ⟨answered, request, ?_⟩⟩
    · simp [mostRecentQuery?_concat, accepted]
    · simp [requestsSinceQuery_concat, accepted]
  · -- nothing was asked, and nothing changes
    obtain ⟨unrequested, request, pending⟩ := quiet
    obtain ⟨sender, nonce, recent, known, state⟩ := h phase
    refine ⟨sender, nonce, ?_, relay.trans known, ?_⟩
    · simpa [mostRecentQuery?_concat, unasked, mac] using recent
    · simpa [requestsSinceQuery_concat, unasked, unrequested, request, pending] using state
  · -- a refresh was sent, which is the first one since that query
    obtain ⟨sender, nonce, recent, known, ⟨-, -, none⟩ | ⟨waiting, -⟩⟩ := h phase
    · refine ⟨sender, nonce, ?_, relay.trans known, .inr ⟨pending, refresh, request, ?_⟩⟩
      · simpa [mostRecentQuery?_concat, unasked, mac] using recent
      · simp [requestsSinceQuery_concat, unasked, requested, none]
    · simp [answered] at waiting

theorem inTouch_run (config : Config) (inputs : List Input) :
    InTouch (history config inputs) (run config inputs) :=
  run_induction (by simp [InTouch, start]) (fun _ _ _ h => h.exchange) inputs

/-- **The announced credentials.** After any inputs, the recipient and the code of an update or a
teardown are those of the query accepted last. The nonce is that of the last request sent since, if
there is one. So it is the nonce of the same query exactly if no request with another nonce has been
sent since. -/
theorem announced_credentials (config : Config) (inputs : List Input) {recipient : Endpoint}
    {mac : ResponseMac} {nonce : UInt32}
    (announces : (run config inputs).Announces recipient mac nonce) :
    ∃ queryNonce,
      mostRecentQuery? (history config inputs) = some (recipient, mac, queryNonce) ∧
      nonce = (requestsSinceQuery (history config inputs)).getLast?.getD queryNonce ∧
      (nonce = queryNonce ↔
        ∀ refresh ∈ requestsSinceQuery (history config inputs), refresh = queryNonce) := by
  obtain ⟨active, relay, rfl, request⟩ := announces.credentials
  obtain ⟨sender, queryNonce, recent, known, state⟩ := inTouch_run config inputs active
  obtain rfl := Option.some.inj (known.symm.trans relay)
  refine ⟨queryNonce, recent, ?_⟩
  rcases state with ⟨-, same, none⟩ | ⟨-, refresh, last, since⟩
  · obtain rfl := Option.some.inj (same.symm.trans request)
    simp [none]
  · obtain rfl := Option.some.inj (last.symm.trans request)
    simp [since]

/-- Inputs that bring a tunnel up and have it refreshed, with the refresh still unanswered. -/
def refreshing (relay : Endpoint) (seen : GatewayAddress) : List Input :=
  [.timer 0 11, .advertisement 11 relay.address, .timer 0 22,
    .query relay 22 0x010203040506 (some seen) none 0, .timer 0 33]

theorem announced_credentials_of_answered_refresh :
    let relay := Endpoint.of (.ofOctets 192 0 2 7) tunnelPort
    let config := Config.standard (.of (.ofOctets 192 0 2 1) tunnelPort)
    let seen : GatewayAddress := ⟨40000, .ofOctets 198 51 100 3⟩
    let inputs := refreshing relay seen ++ [.query relay 33 7 none none 0]
    (run config inputs).Announces relay 7 33 ∧
      ∃ queryNonce, mostRecentQuery? (history config inputs) = some (relay, 7, queryNonce) ∧
        33 = (requestsSinceQuery (history config inputs)).getLast?.getD queryNonce ∧
        (33 = queryNonce ↔
          ∀ refresh ∈ requestsSinceQuery (history config inputs), refresh = queryNonce) := by
  intro relay config seen inputs
  have announces : (run config inputs).Announces relay 7 33 := .inl (by decide)
  exact ⟨announces, announced_credentials config inputs announces⟩

/-- The unanswered refresh has replaced the nonce that goes with the code. -/
theorem announced_credentials_of_refresh :
    let relay := Endpoint.of (.ofOctets 192 0 2 7) tunnelPort
    let seen : GatewayAddress := ⟨40000, .ofOctets 198 51 100 3⟩
    let config := Config.standard (.of (.ofOctets 192 0 2 1) tunnelPort)
    let inputs := refreshing relay seen
    (run config inputs).updateTarget? = some (relay, 0x010203040506, 33) ∧
      (run config inputs).close.1 = some (.teardown 0x010203040506 33 seen, relay) ∧
      mostRecentQuery? (history config inputs) = some (relay, 0x010203040506, 22) := by
  decide

end Session

end MulticastTunnel
