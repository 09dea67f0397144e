import Mathlib.Logic.Basic
import MulticastTunnel.Session.Answers
import MulticastTunnel.Session.Timer

/-!
# The rules of a session

Everything that an operation of a session can do, one constructor for each way through it, with
the conditions under which it is taken. Invariants are proved by cases over these rules.

* `Session.Discovers`, `Session.Asks`, `Session.Attends`, `Session.Fires` : the alarm goes off, in
  each phase (`onTimer_fires`).
* `Session.Fires.keeps`, `Session.Fires.outcome` : what an alarm leaves alone, and what comes of it.
* `Session.Heeds` : an advertisement comes in (`onAdvertisement_heeds`).
* `Session.Hears` : a query comes in (`onQuery_hears`).
* `Session.Suffers` : a socket error is reported (`onIoError_suffers`).
-/

namespace MulticastTunnel

namespace Session

/-! ### The alarm goes off -/

/-- The alarm goes off while a relay is looked for. -/
inductive Discovers (s : Session) (nonce : UInt32) : SessionStep × Session → Prop where
  | exhausted (enough : s.config.maxDiscoveryAttempts ≤ s.attempts) :
      Discovers s nonce (.fail (.discoveryFailed s.attempts), { s with phase := .closed })
  | sent (left : s.attempts < s.config.maxDiscoveryAttempts) :
      Discovers s nonce
        (.send (.discovery nonce) s.config.discoveryAddress s.discoveryBackoff.upcoming,
          { s with
            attempts := s.attempts + 1
            discoveryBackoff := s.discoveryBackoff.advance
            discoveryNonce := some nonce })

/-- One more request may be sent to the relay. -/
def MayAsk (s : Session) (relay : Endpoint) : Prop :=
  s.relay = some relay ∧ s.attempts < s.config.maxRequestAttempts ∧ ¬ s.refused

/-- The alarm goes off while a tunnel is asked for. -/
inductive Asks (s : Session) (nonce : UInt32) : SessionStep × Session → Prop where
  | sent {relay : Endpoint} (may : s.MayAsk relay) :
      Asks s nonce
        (.send (.request nonce s.config.preferMld) relay s.requestBackoff.upcoming,
          { s with
            attempts := s.attempts + 1
            requestBackoff := s.requestBackoff.advance
            requestNonce := some nonce })
  | gaveUp (spent : ∀ relay, ¬ s.MayAsk relay)
      (enough : s.config.maxHandshakeRestarts < s.restarts + 1) :
      Asks s nonce
        (.fail (if s.refused then .requestRejected s.restarts else .requestTimeout s.restarts),
          { s with restarts := s.restarts + 1, phase := .closed })
  | fellBack (spent : ∀ relay, ¬ s.MayAsk relay)
      (left : s.restarts + 1 ≤ s.config.maxHandshakeRestarts) {r : SessionStep × Session}
      (discovers : Discovers
        { s with restarts := s.restarts + 1, refused := false }.enterDiscovering nonce r) :
      Asks s nonce r

/-- A discovery is due in an active session. -/
def RediscoveryDue (s : Session) (now : Instant) : Prop := s.rediscoverAt.any (· ≤ now)

/-- The alarm goes off while the tunnel to a relay is up. -/
inductive Attends (s : Session) (relay : Endpoint) (now : Instant) (nonce : UInt32) :
    SessionStep × Session → Prop where
  | rediscovers (due : s.RediscoveryDue now) :
      Attends s relay now nonce
        (.send (.discovery nonce) s.config.discoveryAddress
            (min (s.refreshAt.getD now) (now + s.config.rediscoveryInterval) - now),
          { s with
            rediscoverAt := some (now + s.config.rediscoveryInterval)
            discoveryNonce := some nonce })
  | unanswered (notDue : ¬ s.RediscoveryDue now) (pending : s.refreshPending)
      {r : SessionStep × Session} (asks : Asks s.enterRequesting nonce r) :
      Attends s relay now nonce r
  | refreshes (notDue : ¬ s.RediscoveryDue now) (answered : ¬ s.refreshPending) :
      Attends s relay now nonce
        (.send (.request nonce s.config.preferMld) relay
            (s.rediscoverAt.elim (now + s.queryInterval) (min (now + s.queryInterval)) - now),
          { s with
            refreshPending := true
            refreshAt := some (now + s.queryInterval)
            requestNonce := some nonce })

/-- The alarm goes off. -/
inductive Fires (s : Session) (now : Instant) (nonce : UInt32) : SessionStep × Session → Prop where
  | closed (phase : s.phase = .closed) : Fires s now nonce (.idle, s)
  | discovering (phase : s.phase = .discovering) {r : SessionStep × Session}
      (discovers : Discovers s nonce r) : Fires s now nonce r
  | requesting (phase : s.phase = .requesting) {r : SessionStep × Session}
      (asks : Asks s nonce r) : Fires s now nonce r
  | relayless (phase : s.phase = .active) (relay : s.relay = none) {r : SessionStep × Session}
      (discovers : Discovers s.enterDiscovering nonce r) : Fires s now nonce r
  | active (phase : s.phase = .active) {relay : Endpoint} (known : s.relay = some relay)
      {r : SessionStep × Session} (attends : Attends s relay now nonce r) : Fires s now nonce r

theorem timerDiscovering_discovers (s : Session) (nonce : UInt32) :
    Discovers s nonce (s.timerDiscovering nonce) := by
  simp only [timerDiscovering]
  split
  · next enough => exact .exhausted enough
  · next left => exact .sent (Nat.lt_of_not_le left)

theorem handshakeFailed_asks {s : Session} {nonce : UInt32} (spent : ∀ relay, ¬ s.MayAsk relay) :
    Asks s nonce (s.handshakeFailed nonce) := by
  simp only [handshakeFailed]
  split
  · next enough => exact .gaveUp spent enough
  · next left => exact .fellBack spent (Nat.le_of_not_lt left) (timerDiscovering_discovers _ _)

theorem timerRequesting_asks (s : Session) (nonce : UInt32) :
    Asks s nonce (s.timerRequesting nonce) := by
  unfold timerRequesting
  split
  · next relay known =>
    split
    · next may => exact .sent ⟨known, may⟩
    · next spent => exact handshakeFailed_asks fun other may => spent may.2
  · next unknown => exact handshakeFailed_asks fun relay may => by simp [may.1] at unknown

theorem timerActive_fires {s : Session} (phase : s.phase = .active) (now : Instant)
    (nonce : UInt32) : Fires s now nonce (s.timerActive now nonce) := by
  unfold timerActive
  split
  · next unknown => exact .relayless phase unknown (timerDiscovering_discovers _ _)
  · next relay known =>
    refine .active phase known ?_
    split
    · next due => exact .rediscovers due
    · next notDue =>
      split
      · next pending => exact .unanswered notDue pending (timerRequesting_asks _ _)
      · next answered => exact .refreshes notDue answered

theorem onTimer_fires (s : Session) (now : Instant) (nonce : UInt32) :
    Fires s now nonce (s.onTimer now nonce) := by
  unfold onTimer
  split
  · next phase => exact .discovering phase (timerDiscovering_discovers _ _)
  · next phase => exact .requesting phase (timerRequesting_asks _ _)
  · next phase => exact timerActive_fires phase now nonce
  · next phase => exact .closed phase

/-! ### What comes of an alarm -/

variable {s : Session} {now : Instant} {nonce : UInt32} {r : SessionStep × Session}

/-- What an alarm leaves alone. -/
structure Keeps (s s' : Session) : Prop where
  config : s'.config = s.config
  mac : s'.mac = s.mac
  gatewayAddress : s'.gatewayAddress = s.gatewayAddress
  queryInterval : s'.queryInterval = s.queryInterval
  active : s'.phase = .active → s.phase = .active

theorem Discovers.keeps (h : s.Discovers nonce r) : s.Keeps r.2 := by
  cases h with
  | exhausted enough => exact ⟨rfl, rfl, rfl, rfl, nofun⟩
  | sent left => exact ⟨rfl, rfl, rfl, rfl, id⟩

theorem Asks.keeps (h : s.Asks nonce r) : s.Keeps r.2 := by
  cases h with
  | sent may => exact ⟨rfl, rfl, rfl, rfl, id⟩
  | gaveUp spent enough => exact ⟨rfl, rfl, rfl, rfl, nofun⟩
  | fellBack spent left discovers =>
    exact { discovers.keeps with active := fun h => nomatch discovers.keeps.active h }

/-- An alarm leaves alone what only queries change, and brings no tunnel up. -/
theorem Fires.keeps (h : s.Fires now nonce r) : s.Keeps r.2 := by
  cases h with
  | closed phase => exact ⟨rfl, rfl, rfl, rfl, id⟩
  | discovering phase discovers => exact discovers.keeps
  | requesting phase asks => exact asks.keeps
  | relayless phase unknown discovers => exact { discovers.keeps with active := fun _ => phase }
  | active phase known attends =>
    cases attends with
    | unanswered notDue pending asks => exact { asks.keeps with active := fun _ => phase }
    | _ => exact ⟨rfl, rfl, rfl, rfl, id⟩

theorem Discovers.restarts (h : s.Discovers nonce r) : r.2.restarts = s.restarts := by
  cases h <;> rfl

theorem Asks.restarts_le (h : s.Asks nonce r) : r.2.restarts ≤ s.restarts + 1 := by
  cases h with
  | sent may => exact Nat.le_succ _
  | gaveUp spent enough => exact Nat.le_refl _
  | fellBack spent left discovers => exact Nat.le_of_eq discovers.restarts

theorem Fires.restarts_le (h : s.Fires now nonce r) : r.2.restarts ≤ s.restarts + 1 := by
  cases h with
  | closed phase => exact Nat.le_succ _
  | discovering phase discovers => exact discovers.restarts ▸ Nat.le_succ _
  | requesting phase asks => exact asks.restarts_le
  | relayless phase unknown discovers => exact discovers.restarts ▸ Nat.le_succ _
  | active phase known attends =>
    cases attends with
    | unanswered notDue pending asks => exact asks.restarts_le
    | _ => exact Nat.le_succ _

/-- An alarm, by what the session says is to be done. -/
inductive Outcome (s : Session) (nonce : UInt32) : SessionStep × Session → Prop where
  | idle (phase : s.phase = .closed) : Outcome s nonce (.idle, s)
  | fails {error : GatewayError} {s' : Session} (before : s.phase ≠ .closed)
      (after : s'.phase = .closed) : Outcome s nonce (.fail error, s')
  | discovers {next : Duration} {s' : Session} (before : s.phase ≠ .closed)
      (after : s'.phase = .discovering ∨ s'.phase = .active) :
      Outcome s nonce (.send (.discovery nonce) s.config.discoveryAddress next, s')
  | requests {relay : Endpoint} {next : Duration} {s' : Session} (before : s.phase ≠ .closed)
      (after : s'.phase = .requesting ∨ s'.phase = .active) :
      Outcome s nonce (.send (.request nonce s.config.preferMld) relay next, s')

theorem Discovers.outcome (h : s.Discovers nonce r) (phase : s.phase = .discovering) :
    s.Outcome nonce r := by
  have before : s.phase ≠ .closed := by simp [phase]
  cases h with
  | exhausted enough => exact .fails before rfl
  | sent left => exact .discovers before (.inl phase)

theorem Asks.outcome (h : s.Asks nonce r) (phase : s.phase = .requesting) :
    s.Outcome nonce r := by
  have before : s.phase ≠ .closed := by simp [phase]
  cases h with
  | sent may => exact .requests before (.inl phase)
  | gaveUp spent enough => exact .fails before rfl
  | fellBack spent left discovers =>
    cases discovers with
    | exhausted enough => exact .fails before rfl
    | sent left => exact .discovers before (.inl rfl)

theorem Fires.outcome (h : s.Fires now nonce r) : s.Outcome nonce r := by
  cases h with
  | closed phase => exact .idle phase
  | discovering phase discovers => exact discovers.outcome phase
  | requesting phase asks => exact asks.outcome phase
  | relayless phase unknown discovers =>
    have before : s.phase ≠ .closed := by simp [phase]
    cases discovers with
    | exhausted enough => exact .fails before rfl
    | sent left => exact .discovers before (.inl rfl)
  | active phase known attends =>
    have before : s.phase ≠ .closed := by simp [phase]
    cases attends with
    | rediscovers due => exact .discovers before (.inr phase)
    | unanswered notDue pending asks =>
      cases asks.outcome rfl with
      | idle other => cases other
      | fails _ after => exact .fails before after
      | discovers _ after => exact .discovers before after
      | requests _ after => exact .requests before after
    | refreshes notDue answered => exact .requests before (.inr phase)

/-! ### What fits a clock -/

theorem fits_iff {last : Instant} : s.fits last ↔ s.refreshAt.all (· ≤ last) ∧
    s.rediscoverAt.all (· ≤ last) ∧ s.restarts < 0x100000000 := by
  simp [fits, and_assoc]

theorem Discovers.fits {last : Instant} (h : s.Discovers nonce r) (fits : s.fits last) :
    r.2.fits last := by
  cases h <;> exact fits

theorem Asks.fits {last : Instant} (h : s.Asks nonce r) (fits : s.fits last)
    (counted : s.restarts + 1 < 0x100000000) : r.2.fits last := by
  obtain ⟨refreshAt, rediscoverAt, -⟩ := fits_iff.1 fits
  cases h with
  | sent may => exact fits
  | gaveUp spent enough => exact fits_iff.2 ⟨refreshAt, rediscoverAt, counted⟩
  | fellBack spent left discovers =>
    exact discovers.fits (fits_iff.2 ⟨refreshAt, rediscoverAt, counted⟩)

theorem Attends.fits {relay : Endpoint} {last : Instant} (h : s.Attends relay now nonce r)
    (fits : s.fits last) (counted : s.restarts + 1 < 0x100000000)
    (refresh : now + s.queryInterval ≤ last)
    (discovery : now + s.config.rediscoveryInterval ≤ last) : r.2.fits last := by
  obtain ⟨refreshAt, rediscoverAt, restarts⟩ := fits_iff.1 fits
  cases h with
  | rediscovers due => exact fits_iff.2 ⟨refreshAt, by simpa using discovery, restarts⟩
  | unanswered notDue pending asks => exact asks.fits fits counted
  | refreshes notDue answered => exact fits_iff.2 ⟨by simpa using refresh, rediscoverAt, restarts⟩

theorem Fires.fits {last : Instant} (h : s.Fires now nonce r) (fits : s.fits last)
    (counted : s.phase ≠ .closed → s.restarts + 1 < 0x100000000)
    (inTime : s.phase = .active →
      now + s.queryInterval ≤ last ∧ now + s.config.rediscoveryInterval ≤ last) :
    r.2.fits last := by
  cases h with
  | closed phase => exact fits
  | discovering phase discovers => exact discovers.fits fits
  | requesting phase asks => exact asks.fits fits (counted (by simp [phase]))
  | relayless phase unknown discovers => exact discovers.fits fits
  | active phase known attends =>
    obtain ⟨refresh, discovery⟩ := inTime phase
    exact attends.fits fits (counted (by simp [phase])) refresh discovery

/-! ### Answers of relays -/

/-- The advertisement is an answer to the last discovery message. -/
def Awaits (s : Session) (nonce : UInt32) (relay : Address) : Prop :=
  (s.phase = .discovering ∨ s.phase = .active) ∧ s.discoveryNonce = some nonce ∧
    relay.sameFamily s.config.discoveryAddress.address

/-- An advertisement comes in. -/
inductive Heeds (s : Session) (nonce : UInt32) (relay : Address) : Bool × Session → Prop where
  | ignored (other : ¬ s.Awaits nonce relay) : Heeds s nonce relay (false, s)
  | confirmed (awaited : s.Awaits nonce relay) (phase : s.phase = .active)
      (same : s.relay = some (.of relay s.config.relayPort)) :
      Heeds s nonce relay (false, { s with discoveryNonce := none })
  | adopted (awaited : s.Awaits nonce relay)
      (new : s.phase = .active → s.relay ≠ some (.of relay s.config.relayPort)) :
      Heeds s nonce relay
        (true, { s with
          discoveryNonce := none
          relay := some (.of relay s.config.relayPort) }.enterRequesting)

theorem onAdvertisement_heeds (s : Session) (nonce : UInt32) (relay : Address) :
    Heeds s nonce relay (s.onAdvertisement nonce relay) := by
  unfold onAdvertisement
  split
  · next other => exact .ignored fun awaited => awaited.1.elim other.1 other.2
  · next phase =>
    split
    · next other => exact .ignored fun awaited => other awaited.2.1
    · next known =>
      split
      · next other => exact .ignored fun awaited => by simp [awaited.2.2] at other
      · next family =>
        have awaited : s.Awaits nonce relay :=
          ⟨(not_and_or.1 phase).imp not_not.1 not_not.1, not_not.1 known, by simpa using family⟩
        dsimp only
        split
        · next same => exact .confirmed awaited same.1 same.2
        · next new => exact .adopted awaited fun phase same => new ⟨phase, same⟩

/-- The query is the relay's answer to the last request. -/
def Answers (s : Session) (sender : Endpoint) (nonce : UInt32) : Prop :=
  (s.phase = .requesting ∨ s.phase = .active) ∧ s.relay = some sender ∧
    s.requestNonce = some nonce

/-- What a session takes over from a query that it accepts. -/
def answered (s : Session) (mac : ResponseMac) (gatewayAddress : Option GatewayAddress)
    (interval : Option Duration) : Session :=
  { s with
    mac
    gatewayAddress := gatewayAddress <|> s.gatewayAddress
    queryInterval := s.announcedInterval interval
    refreshPending := false }

/-- A query comes in. -/
inductive Hears (s : Session) (sender : Endpoint) (nonce : UInt32) (mac : ResponseMac)
    (gatewayAddress : Option GatewayAddress) (interval : Option Duration) (now : Instant) :
    QueryOutcome × Session → Prop where
  | rejected (other : ¬ s.Answers sender nonce) :
      Hears s sender nonce mac gatewayAddress interval now (.rejected, s)
  | activated (answers : s.Answers sender nonce) (phase : s.phase = .requesting) :
      Hears s sender nonce mac gatewayAddress interval now
        (.activated (min (s.announcedInterval interval) s.config.rediscoveryInterval),
          { s.answered mac gatewayAddress interval with
            phase := .active
            refreshAt := some (now + s.announcedInterval interval)
            rediscoverAt := some (now + s.config.rediscoveryInterval)
            restarts := 0
            refused := false
            ioFailures := 0 })
  | accepted (answers : s.Answers sender nonce) (phase : s.phase = .active) :
      Hears s sender nonce mac gatewayAddress interval now
        (.accepted, s.answered mac gatewayAddress interval)

theorem onQuery_hears (s : Session) (sender : Endpoint) (nonce : UInt32) (mac : ResponseMac)
    (gatewayAddress : Option GatewayAddress) (interval : Option Duration) (now : Instant) :
    Hears s sender nonce mac gatewayAddress interval now
      (s.onQuery sender nonce mac gatewayAddress interval now) := by
  unfold onQuery
  split
  · next other => exact .rejected fun answers => answers.1.elim other.1 other.2
  · next phase =>
    split
    · next other => exact .rejected fun answers => other answers.2.1
    · next relay =>
      split
      · next other => exact .rejected fun answers => other answers.2.2
      · next known =>
        have answers : s.Answers sender nonce :=
          ⟨(not_and_or.1 phase).imp not_not.1 not_not.1, not_not.1 relay, not_not.1 known⟩
        dsimp only
        split
        · next requesting => exact .activated answers requesting
        · next active => exact .accepted answers (answers.1.resolve_left active)

/-! ### Socket errors -/

/-- A socket error is reported. -/
inductive Suffers (s : Session) (error : IoError) : IoOutcome × Session → Prop where
  | closed (phase : s.phase = .closed) : Suffers s error (.continue, s)
  | fatal (phase : s.phase ≠ .closed) (enough : s.config.maxIoFailures ≤ s.ioFailures + 1) :
      Suffers s error
        (.fatal (.socketIo error), { s with ioFailures := s.ioFailures + 1, phase := .closed })
  | reestablishes (phase : s.phase = .active) (left : s.ioFailures + 1 < s.config.maxIoFailures) :
      Suffers s error
        (.reestablish, { s with ioFailures := s.ioFailures + 1 }.enterRequesting)
  | refused (phase : s.phase = .requesting) (left : s.ioFailures + 1 < s.config.maxIoFailures)
      (refusal : error.isRefusal) :
      Suffers s error (.continue, { s with ioFailures := s.ioFailures + 1, refused := true })
  | counted (phase : s.phase = .discovering ∨ s.phase = .requesting ∧ ¬ error.isRefusal)
      (left : s.ioFailures + 1 < s.config.maxIoFailures) :
      Suffers s error (.continue, { s with ioFailures := s.ioFailures + 1 })

theorem onIoError_suffers (s : Session) (error : IoError) :
    Suffers s error (s.onIoError error) := by
  unfold onIoError
  split
  · next phase => exact .closed phase
  · next notClosed =>
    dsimp only
    split
    · next enough => exact .fatal notClosed enough
    · next left =>
      have left := Nat.lt_of_not_le left
      split
      · next phase => exact .reestablishes phase left
      · next phase =>
        split
        · next refusal => exact .refused phase left refusal
        · next other => exact .counted (.inr ⟨phase, other⟩) left
      · next notActive notRequesting =>
        refine .counted (.inl ?_) left
        cases phase : s.phase <;> simp_all

end Session

end MulticastTunnel
