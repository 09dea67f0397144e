import Mathlib.Data.List.Basic
import MulticastTunnel.Proofs.Session.Phases

/-!
# How long a handshake is tried

Messages that nobody answers are sent again, and when there have been enough of them the session
looks for a relay anew; but not for ever. What the session has left to try is a number that every
message takes one off, and that nothing adds to except a query that is accepted.

* `Session.Defers` : the alarm may find that the session has to move on first. This happens at most
  twice, one after the other (`Session.Defers.twice`).
* `Session.effort` : the number of messages that are left, and `Exchange.effort_after`.
* `Session.Fires.failed` : what a session fails of.
* `Session.handshake_gives_up` : **a handshake that is not answered gives up**, as long as restarts
  can be counted; with the greatest limit that there can be, it may not
  (`Session.handshake_does_not_give_up`).
-/

namespace MulticastTunnel

/-- A message is to be sent. -/
def SessionStep.isSend : SessionStep → Bool
  | send .. => true
  | _ => false

namespace Session

variable {s s' : Session} {now : Instant} {nonce : UInt32}

/-! ### Moving on before an answer -/

/-- The alarm makes the session move on, and what to do is said by the session it becomes. -/
inductive Defers (s : Session) (now : Instant) : Session → Prop where
  | relayless (phase : s.phase = .active) (relay : s.relay = none) :
      Defers s now s.enterDiscovering
  | unanswered (phase : s.phase = .active) (relay : s.relay ≠ none)
      (notDue : ¬ s.RediscoveryDue now) (pending : s.refreshPending) :
      Defers s now s.enterRequesting
  | fellBack (phase : s.phase = .requesting) (spent : ∀ relay, ¬ s.MayAsk relay)
      (left : s.restarts + 1 ≤ s.config.maxHandshakeRestarts) :
      Defers s now { s with restarts := s.restarts + 1, refused := false }.enterDiscovering

namespace Defers

theorem phases (h : s.Defers now s') :
    s.phase = .active ∧ (s'.phase = .requesting ∨ s'.phase = .discovering) ∨
      s.phase = .requesting ∧ s'.phase = .discovering := by
  cases h with
  | relayless phase relay => exact .inl ⟨phase, .inr rfl⟩
  | unanswered phase relay notDue pending => exact .inl ⟨phase, .inl rfl⟩
  | fellBack phase spent left => exact .inr ⟨phase, rfl⟩

/-- A session that looks for a relay, or is closed, says at once what to do. -/
theorem twice {s₁ s₂ s₃ : Session} (h₁ : s.Defers now s₁) (h₂ : s₁.Defers now s₂) :
    ¬ s₂.Defers now s₃ := by
  intro h₃
  rcases h₁.phases with ⟨-, phase | phase⟩ | ⟨-, phase⟩ <;>
    rcases h₂.phases with ⟨phase', -⟩ | ⟨phase', phase''⟩ <;>
      rcases h₃.phases with ⟨phase₃, -⟩ | ⟨phase₃, -⟩ <;> simp_all

theorem onTimer_eq (h : s.Defers now s') (nonce : UInt32) :
    s.onTimer now nonce = s'.onTimer now nonce := by
  cases h with
  | relayless phase relay => simp only [onTimer, phase, timerActive, relay, enterDiscovering]
  | unanswered phase relay notDue pending =>
    obtain ⟨relay, known⟩ := Option.ne_none_iff_exists'.1 relay
    have notDue : ¬ s.rediscoverAt.any (· ≤ now) := notDue
    simp only [onTimer, phase, timerActive, known, notDue, pending, enterRequesting, ↓reduceIte,
      Bool.false_eq_true]
  | fellBack phase spent left =>
    have failed : s.timerRequesting nonce = s.handshakeFailed nonce := by
      unfold timerRequesting
      split
      · next relay known => exact if_neg fun may => spent relay ⟨known, may⟩
      · rfl
    simp only [onTimer, phase, failed, handshakeFailed, Nat.not_lt.2 left, ↓reduceIte,
      enterDiscovering]

end Defers

/-! ### What is left to try -/

/-- The session looks for a relay, or asks it for a tunnel. -/
def Trying (s : Session) : Prop := s.phase = .discovering ∨ s.phase = .requesting

/-- The number of messages that the session can send before it fails, unless a query is accepted:
those of its phase, and those of the restarts that it has left. -/
def effort (s : Session) : Nat :=
  let round := s.config.maxDiscoveryAttempts + s.config.maxRequestAttempts
  let later := (s.config.maxHandshakeRestarts - s.restarts) * round
  match s.phase with
  | .discovering =>
    (s.config.maxDiscoveryAttempts - s.attempts) + s.config.maxRequestAttempts + later
  | .requesting => (s.config.maxRequestAttempts - s.attempts) + later
  | .active | .closed => 0

theorem effort_le (s : Session) :
    s.effort ≤ (s.config.maxHandshakeRestarts + 1) *
      (s.config.maxDiscoveryAttempts + s.config.maxRequestAttempts) := by
  have later : (s.config.maxHandshakeRestarts - s.restarts) *
      (s.config.maxDiscoveryAttempts + s.config.maxRequestAttempts) ≤
      s.config.maxHandshakeRestarts *
        (s.config.maxDiscoveryAttempts + s.config.maxRequestAttempts) :=
    Nat.mul_le_mul_right _ (Nat.sub_le _ _)
  rw [Nat.succ_mul]
  unfold effort
  dsimp only
  split <;> omega

theorem restart_pays (left : s.restarts + 1 ≤ s.config.maxHandshakeRestarts) (round : Nat) :
    (s.config.maxHandshakeRestarts - s.restarts) * round =
      (s.config.maxHandshakeRestarts - (s.restarts + 1)) * round + round := by
  have more : s.config.maxHandshakeRestarts - s.restarts =
      s.config.maxHandshakeRestarts - (s.restarts + 1) + 1 := by omega
  rw [more, Nat.succ_mul]

theorem Discovers.effort_le {step : SessionStep} (phase : s.phase = .discovering)
    (discovers : Discovers s nonce (step, s')) :
    s'.phase ≠ .active ∧ step.isSend.toNat + s'.effort ≤ s.effort := by
  cases discovers with
  | exhausted enough => simp [SessionStep.isSend, effort]
  | sent left =>
    refine ⟨by simp [phase], ?_⟩
    simp only [SessionStep.isSend, effort, phase, Bool.toNat_true]
    omega

theorem Asks.effort_le {step : SessionStep} (phase : s.phase = .requesting)
    (asks : Asks s nonce (step, s')) :
    s'.phase ≠ .active ∧ step.isSend.toNat + s'.effort ≤ s.effort := by
  cases asks with
  | sent may =>
    obtain ⟨-, left, -⟩ := may
    refine ⟨by simp [phase], ?_⟩
    simp only [SessionStep.isSend, effort, phase, Bool.toNat_true]
    omega
  | gaveUp spent enough => simp [SessionStep.isSend, effort]
  | fellBack spent left discovers =>
    obtain ⟨phase', le⟩ := discovers.effort_le rfl
    refine ⟨phase', le.trans ?_⟩
    -- the search begins anew with all its messages, which the restart has paid for
    have pays := restart_pays left (s.config.maxDiscoveryAttempts + s.config.maxRequestAttempts)
    simp only [effort, enterDiscovering, phase, Nat.sub_zero]
    omega

end Session

namespace Exchange

open Session

variable {e : Exchange} {error : GatewayError}

/-- What the session had to do when its alarm went off. -/
def step? (e : Exchange) : Option SessionStep :=
  match e.output with
  | .timer step => some step
  | _ => none

/-- The exchange leaves the handshake undecided: no query is accepted, no socket error is fatal,
and the session is not closed. -/
def undecided (e : Exchange) : Bool :=
  match e.output with
  | .query outcome => outcome = .rejected
  | .ioError (.fatal _) | .close _ => false
  | _ => true

/-- **Every message takes one off what is left to try**, and nothing adds to it as long as no query
is accepted. -/
theorem effort_after (notActive : e.before.phase ≠ .active) (undecided : e.undecided) :
    e.after.phase ≠ .active ∧
      (e.step?.any SessionStep.isSend).toNat + e.after.effort ≤ e.before.effort := by
  have rule := e.responds
  simp only [Exchange.undecided, step?] at undecided ⊢
  generalize e.before = s, e.input = input, e.output = output, e.after = s'
    at rule notActive undecided ⊢
  cases rule with
  | timer fires =>
    cases fires with
    | closed phase => simp [phase, SessionStep.isSend]
    | discovering phase discovers => exact discovers.effort_le phase
    | requesting phase asks => exact asks.effort_le phase
    | relayless phase | active phase => exact absurd phase notActive
  | advertisement heeds =>
    cases heeds with
    | ignored other => exact ⟨notActive, by simp⟩
    | confirmed awaited phase same => exact absurd phase notActive
    | adopted awaited new =>
      have phase : s.phase = .discovering := awaited.1.resolve_right notActive
      refine ⟨by simp [enterRequesting], ?_⟩
      simp only [effort, phase, enterRequesting, Option.any_none, Bool.toNat_false]
      omega
  | query hears =>
    cases hears with
    | rejected other => exact ⟨notActive, by simp⟩
    | activated answers phase => simp at undecided
    | accepted answers phase => exact absurd phase notActive
  | ioSuccess => exact ⟨notActive, by simp [effort]⟩
  | ioError suffers =>
    cases suffers with
    | closed phase => exact ⟨notActive, by simp⟩
    | fatal phase enough => simp at undecided
    | reestablishes phase left => exact absurd phase notActive
    | refused phase left refusal => exact ⟨notActive, by simp [effort]⟩
    | counted phase left => exact ⟨notActive, by simp [effort]⟩
  | close => simp at undecided

/-- An alarm goes off for a message or for a failure, as long as the session is trying. -/
theorem trying_after (trying : e.before.Trying) (undecided : e.undecided) :
    (∃ error, e.step? = some (.fail error)) ∨
      e.after.Trying ∧ ∀ step, e.step? = some step → step.isSend := by
  have rule := e.responds
  simp only [Exchange.undecided, step?] at undecided ⊢
  generalize e.before = s, e.input = input, e.output = output, e.after = s'
    at rule trying undecided ⊢
  cases rule with
  | timer fires =>
    have keeps := fires.keeps.active
    -- an alarm that sends something leaves the session trying, as it does not make it active
    cases fires.outcome with
    | idle phase => simp [Trying, phase] at trying
    | fails before after => exact .inl ⟨_, rfl⟩
    | discovers before after | requests before after =>
      rcases after with after | after
      · simp [Trying, after, SessionStep.isSend]
      · simp [Trying, keeps after] at trying
  | advertisement heeds =>
    cases heeds with
    | ignored other => exact .inr ⟨trying, by simp⟩
    | confirmed awaited phase same => simp [Trying, phase] at trying
    | adopted awaited new => exact .inr ⟨.inr rfl, by simp⟩
  | query hears =>
    cases hears with
    | rejected other => exact .inr ⟨trying, by simp⟩
    | activated answers phase => simp at undecided
    | accepted answers phase => simp at undecided
  | ioSuccess => exact .inr ⟨trying, by simp⟩
  | ioError suffers =>
    cases suffers with
    | fatal phase enough => simp at undecided
    | reestablishes phase left => simp [Trying, phase] at trying
    | _ => exact .inr ⟨trying, by simp⟩
  | close => simp at undecided

theorem fits_after {last : Instant} (fits : e.before.fits last)
    (counted : e.before.phase ≠ .closed → e.before.restarts + 1 < 0x100000000)
    (notActive : e.before.phase ≠ .active) (undecided : e.undecided) : e.after.fits last := by
  have rule := e.responds
  simp only [Exchange.undecided] at undecided
  generalize e.before = s, e.input = input, e.output = output, e.after = s'
    at rule fits counted notActive undecided ⊢
  cases rule with
  | timer fires => exact fires.fits fits counted fun phase => absurd phase notActive
  | query hears =>
    cases hears with
    | rejected other => exact fits
    | activated answers phase => simp at undecided
    | accepted answers phase => exact absurd phase notActive
  | advertisement heeds =>
    exact (Responds.advertisement heeds).fits fits counted (by simp [postpones])
  | ioSuccess => exact fits
  | ioError suffers => exact (Responds.ioError suffers).fits fits counted (by simp [postpones])
  | close => simp at undecided

end Exchange

namespace Session

/-! ### Why a session fails -/

variable {s s' : Session} {now : Instant} {nonce : UInt32} {error : GatewayError}

/-- A failure of the alarm is one of discovery while the session looks for a relay, or one of the
requests while it asks for a tunnel and has no restarts left. -/
theorem Fires.failed (coherent : s.Coherent) (discovery : 1 ≤ s.config.maxDiscoveryAttempts)
    (requests : 1 ≤ s.config.maxRequestAttempts) (fires : Fires s now nonce (.fail error, s')) :
    s.phase = .discovering ∧ error = .discoveryFailed s.config.maxDiscoveryAttempts ∨
    s.phase = .requesting ∧ s.restarts = s.config.maxHandshakeRestarts ∧
      error = if s.refused then .requestRejected s.restarts else .requestTimeout s.restarts := by
  -- a search that has just begun has messages left
  have fresh : ∀ {r s₁ : Session}, r.config = s.config →
      ¬ Discovers r.enterDiscovering nonce (.fail error, s₁) := by
    rintro r s₁ same ⟨enough⟩
    have : s.config.maxDiscoveryAttempts ≤ 0 := same ▸ enough
    omega
  cases fires with
  | discovering phase discovers =>
    obtain ⟨enough⟩ := discovers
    obtain ⟨-, -, -, atMost⟩ := coherent.discovering phase
    exact .inl ⟨phase, by rw [Nat.le_antisymm atMost enough]⟩
  | requesting phase asks =>
    cases asks with
    | gaveUp spent enough =>
      have atMost := coherent.restarts (by simp [phase])
      exact .inr ⟨phase, by omega, rfl⟩
    | fellBack spent left discovers => exact absurd discovers (fresh rfl)
  | relayless phase relay discovers => exact absurd discovers (fresh rfl)
  | active phase known attends =>
    obtain - | ⟨notDue, pending, asks⟩ | - := attends
    -- an active session that asks for its tunnel anew has requests left
    obtain ⟨-, -, -, -, -, accepting⟩ := coherent.active phase
    have may : s.enterRequesting.MayAsk _ :=
      ⟨known, requests, by simp [enterRequesting, accepting]⟩
    cases asks with
    | gaveUp spent enough => exact absurd may (spent _)
    | fellBack spent left discovers => exact absurd may (spent _)

/-! ### Runs without an answer -/

/-- What a session had to do at each of its alarms. -/
def steps (exchanges : List Exchange) : List SessionStep := exchanges.filterMap Exchange.step?

theorem steps_cons (e : Exchange) (exchanges : List Exchange) :
    steps (e :: exchanges) = e.step?.toList ++ steps exchanges := by
  cases h : e.step? <;> simp [steps, h]

theorem countP_steps_le (inputs : List Input) (notActive : s.phase ≠ .active)
    (undecided : ∀ e ∈ s.exchanges inputs, e.undecided) :
    (steps (s.exchanges inputs)).countP SessionStep.isSend ≤ s.effort := by
  induction inputs generalizing s with
  | nil => exact Nat.zero_le _
  | cons input inputs ih =>
    obtain ⟨first, later⟩ := List.forall_mem_cons.1 undecided
    obtain ⟨notActive', le⟩ := Exchange.effort_after (e := ⟨s, input⟩) notActive first
    have rest := ih notActive' later
    have one : (Exchange.mk s input).step?.toList.countP SessionStep.isSend =
        ((Exchange.mk s input).step?.any SessionStep.isSend).toNat := by
      cases (Exchange.mk s input).step? with
      | none => rfl
      | some step => cases hsend : step.isSend <;> simp [hsend]
    rw [exchanges, steps_cons, List.countP_append, one]
    exact (Nat.add_le_add_left rest _).trans le

theorem find?_steps (inputs : List Input) (trying : s.Trying)
    (undecided : ∀ e ∈ s.exchanges inputs, e.undecided) {step : SessionStep}
    (first : (steps (s.exchanges inputs)).find? (!·.isSend) = some step) :
    ∃ error, step = .fail error := by
  induction inputs generalizing s with
  | nil => simp [exchanges, steps] at first
  | cons input inputs ih =>
    obtain ⟨now, later⟩ := List.forall_mem_cons.1 undecided
    rw [exchanges, steps_cons, List.find?_append] at first
    rcases Exchange.trying_after (e := ⟨s, input⟩) trying now with ⟨error, failed⟩ | ⟨still, sends⟩
    · simp only [failed, Option.toList_some, List.find?_cons, SessionStep.isSend, Bool.not_false,
        Option.some_or, Option.some.injEq] at first
      exact ⟨error, first.symm⟩
    · -- this alarm, if it was one, has sent a message
      have none : (Exchange.mk s input).step?.toList.find? (!·.isSend) = none := by
        simpa using sends
      rw [none, Option.none_or] at first
      exact ih still later first

theorem exists_all_of_undecided {last : Instant} (inputs : List Input) (coherent : s.Coherent)
    (counted : s.config.maxHandshakeRestarts + 1 < 0x100000000) (fits : s.fits last)
    (notActive : s.phase ≠ .active) (undecided : ∀ e ∈ s.exchanges inputs, e.undecided) :
    ∃ after, (Input.attempts last).all s inputs = .ok after := by
  induction inputs generalizing s with
  | nil => exact ⟨s, rfl⟩
  | cons input inputs ih =>
    obtain ⟨first, later⟩ := List.forall_mem_cons.1 undecided
    have fits' := Exchange.fits_after (e := ⟨s, input⟩) fits (fun isOpen =>
      Nat.lt_of_le_of_lt (Nat.succ_le_succ (coherent.restarts isOpen)) counted) notActive first
    have notActive' := (Exchange.effort_after (e := ⟨s, input⟩) notActive first).1
    have coherent' := coherent.responds (respond_responds s input)
    have same : (s.respond input).2.config = s.config := Exchange.config_after ⟨s, input⟩
    obtain ⟨after, went⟩ := ih coherent' (same ▸ counted) fits' notActive' later
    exact ⟨after, Attempts.all_cons_eq_ok_iff.2 ⟨fits', went⟩⟩

/-- **A handshake that is not answered gives up**, as long as nothing breaks off. A session that
looks for a relay or asks for a tunnel, and has no query accepted, sends no more messages than its
limits allow for all rounds; the first alarm that does not send one reports a failure, at the latest
when they are used up. Nothing breaks off if one restart more than are allowed can still be counted.

Discovery fails only while a relay is looked for, requests only while a tunnel is asked for and no
restart is left. An alarm adds at most one restart, and makes the session move on at most twice
before it says what to do. -/
theorem handshake_gives_up {config : Config} (discovery : 1 ≤ config.maxDiscoveryAttempts)
    (requests : 1 ≤ config.maxRequestAttempts) {last : Instant} {inputs : List Input}
    (reached : (Input.attempts last).all (start config) inputs = .ok s) (trying : s.Trying) :
    let limit := (config.maxHandshakeRestarts + 1) *
      (config.maxDiscoveryAttempts + config.maxRequestAttempts)
    (∀ continuation after, (∀ e ∈ s.exchanges continuation, e.undecided) →
      (Input.attempts last).all s continuation = .ok after →
      let steps := steps (s.exchanges continuation)
      steps.countP SessionStep.isSend ≤ limit ∧
      (∀ step, steps.find? (!·.isSend) = some step → ∃ error, step = .fail error) ∧
      (limit < steps.length → ∃ error, .fail error ∈ steps)) ∧
    (config.maxHandshakeRestarts + 1 < 0x100000000 →
      ∀ continuation, (∀ e ∈ s.exchanges continuation, e.undecided) →
        ∃ after, (Input.attempts last).all s continuation = .ok after) ∧
    (∀ past s, (Input.attempts last).all (start config) past = .ok s →
      ∀ now nonce error, (s.onTimer now nonce).1 = .fail error →
        s.phase = .discovering ∧ error = .discoveryFailed config.maxDiscoveryAttempts ∨
        s.phase = .requesting ∧ s.restarts = config.maxHandshakeRestarts ∧
          error = if s.refused then .requestRejected s.restarts else .requestTimeout s.restarts) ∧
    ∀ (s : Session) now nonce, (s.onTimer now nonce).2.restarts ≤ s.restarts + 1 ∧
      ∀ s₁, s.Defers now s₁ → s.onTimer now nonce = s₁.onTimer now nonce ∧
        ∀ s₂ s₃, s₁.Defers now s₂ → ¬ s₂.Defers now s₃ := by
  intro limit
  have fits : s.fits last := Attempts.fits_of_all reached rfl
  obtain rfl : run config inputs = s := Attempts.foldl_of_all reached
  have notActive : (run config inputs).phase ≠ .active := by
    rcases trying with phase | phase <;> simp [phase]
  refine ⟨fun continuation after undecided _ => ?_, fun counted continuation undecided => ?_,
    fun past s reached now nonce error failed => ?_, ?_⟩
  · intro steps
    have bound : steps.countP SessionStep.isSend ≤ limit := by
      have le := effort_le (run config inputs)
      rw [config_run] at le
      exact (countP_steps_le continuation notActive undecided).trans le
    have fails : ∀ step, steps.find? (!·.isSend) = some step → ∃ error, step = .fail error :=
      fun _ => find?_steps continuation trying undecided
    refine ⟨bound, fails, fun more => ?_⟩
    cases first : steps.find? (!·.isSend) with
    | none =>
      -- every alarm has sent a message, and these are more than there can be
      have all : steps.countP SessionStep.isSend = steps.length :=
        List.countP_eq_length.2 (by simpa using first)
      omega
    | some step =>
      obtain ⟨error, rfl⟩ := fails step first
      exact ⟨error, List.mem_of_find?_eq_some first⟩
  · exact exists_all_of_undecided continuation (coherent_run config inputs)
      (by rwa [config_run]) fits notActive undecided
  · obtain rfl : run config past = s := Attempts.foldl_of_all reached
    have fires := onTimer_fires (run config past) now nonce
    generalize (run config past).onTimer now nonce = answer at fires failed
    obtain ⟨step, s'⟩ := answer
    obtain rfl : step = .fail error := failed
    simpa using fires.failed (coherent_run config past) (by simpa using discovery)
      (by simpa using requests)
  · intro s now nonce
    exact ⟨(onTimer_fires s now nonce).restarts_le,
      fun s₁ h₁ => ⟨h₁.onTimer_eq nonce, fun s₂ s₃ h₂ => h₁.twice h₂⟩⟩

/-- The relay does not answer, another one is found, and nobody listens at its address. -/
def inVain (other : Address) : List Input :=
  [.timer 0 22, .timer 0 33, .advertisement 33 other, .ioError ⟨"ConnectionRefused", "refused"⟩]

theorem handshake_gives_up_inVain :
    let config := { Config.standard (.of (.ofOctets 192 0 2 1) tunnelPort) with
      maxDiscoveryAttempts := 1, maxRequestAttempts := 1, maxHandshakeRestarts := 1 }
    let found := [.timer 0 11, .advertisement 11 (.ofOctets 192 0 2 7)]
    let lost := inVain (.ofOctets 192 0 2 8)
    let continuation := lost ++ [.timer 0 44, .timer 0 55]
    let steps := steps ((run config found).exchanges continuation)
    let s := run config (found ++ lost)
    (Input.attempts .last).all (start config) found = .ok (run config found) ∧
      (run config found).Trying ∧
      (∃ after, (Input.attempts .last).all (run config found) continuation = .ok after) ∧
      steps.countP SessionStep.isSend ≤ 4 ∧
      (∃ error, steps.find? (!·.isSend) = some (.fail error)) ∧
      (s.onTimer 0 44).1 = .fail (.requestRejected 1) ∧ s.phase = .requesting ∧ s.restarts = 1 := by
  intro config found lost continuation steps s
  have reached : (Input.attempts .last).all (start config) found = .ok (run config found) := by
    decide +kernel
  have trying : (run config found).Trying := .inr (by decide)
  have discovery : 1 ≤ config.maxDiscoveryAttempts := by decide
  have requests : 1 ≤ config.maxRequestAttempts := by decide
  have undecided : ∀ e ∈ (run config found).exchanges continuation, e.undecided := by decide
  obtain ⟨sends, goes, failures, -⟩ := handshake_gives_up discovery requests reached trying
  obtain ⟨after, went⟩ := goes (by decide) continuation undecided
  obtain ⟨bound, fails, -⟩ := sends continuation after undecided went
  have rejected : (s.onTimer 0 44).1 = .fail (.requestRejected 1) := by decide
  have first : steps.find? (!·.isSend) = some (.fail (.requestRejected 1)) := by decide
  obtain ⟨error, failed⟩ := fails _ first
  refine ⟨reached, trying, ⟨after, went⟩, bound, ⟨error, failed ▸ first⟩, rejected, ?_⟩
  have past : (Input.attempts .last).all (start config) (found ++ lost) = .ok s := by
    decide +kernel
  rcases failures (found ++ lost) s past 0 44 _ rejected with ⟨-, other⟩ | ⟨phase, restarts, -⟩
  · cases other
  · exact ⟨phase, restarts⟩

/-! ### Restarts that can not be counted -/

/-- One message of each kind in every round, and as many rounds as can be asked for. -/
def tireless : Config :=
  { Config.standard (.of (.ofOctets 192 0 2 1) tunnelPort) with
    maxDiscoveryAttempts := 1, maxRequestAttempts := 1, maxHandshakeRestarts := 0xffffffff }

/-- A relay is found that does not answer the request. -/
def round : List Input := [.advertisement 7 (.ofOctets 192 0 2 7), .timer 0 7, .timer 0 7]

/-- Looking for a relay, after some restarts. -/
def searching (restarts : Nat) : Session := { run tireless (.timer 0 7 :: round) with restarts }

theorem fits_searching (restarts : Nat) :
    (searching restarts).fits .last = decide (restarts < 0x100000000) := rfl

/-- The request was sent that nobody answers. -/
def spent (restarts : Nat) : Session :=
  (round.take 2).foldl (fun s input => (s.respond input).2) (searching restarts)

theorem onTimer_spent {restarts : Nat} (left : restarts + 1 ≤ 0xffffffff) (now : Instant) :
    ((spent restarts).onTimer now 7).2 = searching (restarts + 1) := by
  have defers : (spent restarts).Defers now
      { spent restarts with restarts := restarts + 1, refused := false }.enterDiscovering :=
    .fellBack rfl (fun relay may => Nat.lt_irrefl 1 may.2.1) left
  rw [defers.onTimer_eq]
  rfl

theorem all_spent {restarts : Nat} (counted : restarts < 0x100000000) :
    (Input.attempts .last).all (searching restarts) (round.take 2) = .ok (spent restarts) := by
  have fits : decide (restarts < 0x100000000) = true := decide_eq_true counted
  exact Attempts.all_cons_eq_ok_iff.2 ⟨fits, Attempts.all_cons_eq_ok_iff.2 ⟨fits, rfl⟩⟩

theorem all_round {restarts : Nat} (left : restarts + 1 ≤ 0xffffffff) :
    (Input.attempts .last).all (searching restarts) round = .ok (searching (restarts + 1)) := by
  have next : (Input.attempts .last).one (spent restarts) (.timer 0 7) =
      .ok (searching (restarts + 1)) := by
    refine Attempts.one_eq_ok_iff.2 ⟨?_, onTimer_spent left 0⟩
    show ((spent restarts).onTimer 0 7).2.fits .last
    rw [onTimer_spent left, fits_searching, decide_eq_true_iff]
    omega
  refine (Attempts.all_append_of_all (all_spent (by omega))).trans ?_
  obtain ⟨fits, same⟩ := Attempts.one_eq_ok_iff.1 next
  exact Attempts.all_cons_eq_ok_iff.2 ⟨fits, congrArg Except.ok same⟩

theorem exists_searching (restarts : Nat) (left : restarts + 1 ≤ 0xffffffff) :
    ∃ inputs, (Input.attempts .last).all (start tireless) inputs =
      .ok (searching (restarts + 1)) := by
  induction restarts with
  | zero => exact ⟨.timer 0 7 :: round, by decide +kernel⟩
  | succ restarts ih =>
    obtain ⟨inputs, reached⟩ := ih (by omega)
    exact ⟨inputs ++ round, (Attempts.all_append_of_all reached).trans (all_round left)⟩

/-- With the greatest limit of restarts that there can be, a handshake that is not answered may
never give up: one restart more than allowed can not be counted, so the alarm breaks off, and does
so again whenever it goes off. -/
theorem handshake_does_not_give_up :
    tireless.problem = none ∧ ∃ inputs s,
      (Input.attempts .last).all (start tireless) inputs = .ok s ∧ s.Trying ∧
        ∀ now nonce, (Input.attempts .last).one s (.timer now nonce) = .error s := by
  obtain ⟨inputs, reached⟩ := exists_searching 0xfffffffe (by decide)
  refine ⟨by decide, inputs ++ round.take 2, spent 0xffffffff,
    (Attempts.all_append_of_all reached).trans (all_spent (by decide)), .inr rfl,
    fun now nonce => ?_⟩
  have late : (Input.attempts .last).fits
      ((Input.attempts .last).result (spent 0xffffffff) (.timer now nonce)) = false := rfl
  exact Attempts.one_of_not_fits late

end Session

end MulticastTunnel
