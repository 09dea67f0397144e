import MulticastTunnel.Proofs.Session.Handshake
import MulticastTunnel.Proofs.Session.Phases

/-!
# Sessions in time

A session whose alarm is kept while it is active: it goes off exactly when the time has passed that
the session has asked for, and the clock does not go on before it has gone off. Apart from that,
anything can happen at any time, and a session that is not active may be woken up whenever one
likes. Of each exchange it is recorded when it took place.

* `Chronicle.react`, `Chronicle.run` : what can happen, and what it leads to.
* `Chronicle.attempts` : the same with a clock that ends.
* `Chronicle.exists_inputs` : a chronicle is a run of a session, with its history.
* `Chronicle.ordered_run` : exchanges are recorded in the order of their times.
* `Exchange.Upholds`, `Exchange.activated_of_enters` : what can happen to an active session that
  stays active, and how a session gets active.
* `Chronicle.interval_run` : the time between two refreshes is what the last accepted query asks
  for.
-/

namespace MulticastTunnel

namespace Exchange

open Session

/-! ### What an exchange says about time -/

/-- The time after which the alarm is to go off: a session tells it when it sends a message, and
when its tunnel comes up. -/
def delay? (e : Exchange) : Option Duration :=
  match e.output with
  | .timer (.send _ _ next) => some next
  | .query (.activated refreshAfter) => some refreshAfter
  | _ => none

/-- The time between two refreshes that an accepted query asks for. -/
def interval? (e : Exchange) : Option Duration :=
  match e.input, e.output with
  | .query _ _ _ _ _ _, .query .rejected => none
  | .query _ _ _ _ interval _, .query _ => some (e.before.announcedInterval interval)
  | _, _ => none

theorem queryInterval_after (e : Exchange) :
    e.after.queryInterval = e.interval?.getD e.before.queryInterval := by
  have rule := e.responds
  simp only [interval?]
  generalize e.before = s, e.input = input, e.output = output, e.after = s' at rule ⊢
  cases rule with
  | timer fires => exact fires.keeps.queryInterval
  | advertisement heeds => cases heeds <;> rfl
  | query hears => cases hears <;> rfl
  | ioSuccess => rfl
  | ioError suffers => cases suffers <;> rfl
  | close => rfl

/-- What can happen to an active session that stays active. -/
inductive Upholds (e : Exchange) : Prop where
  /-- A discovery is due, and its message is sent. The refresh is left where it is. -/
  | rediscovers {now : Instant} {nonce : UInt32} (input : e.input = .timer now nonce)
      (discovered : e.discovered? = some nonce) (requested : e.requested? = none)
      (interval : e.interval? = none) (due : e.before.RediscoveryDue now)
      (delay : e.delay? =
        some (min (e.before.refreshAt.getD now) (now + e.before.config.rediscoveryInterval) - now))
      (refreshAt : e.after.refreshAt = e.before.refreshAt)
      (rediscoverAt : e.after.rediscoverAt = some (now + e.before.config.rediscoveryInterval))
      (pending : e.after.refreshPending = e.before.refreshPending)
  /-- Otherwise the tunnel is refreshed, unless the last refresh has not been answered. -/
  | refreshes {now : Instant} {nonce : UInt32} (input : e.input = .timer now nonce)
      (discovered : e.discovered? = none) (requested : e.requested? = some nonce)
      (interval : e.interval? = none) (notDue : ¬ e.before.RediscoveryDue now)
      (answered : e.before.refreshPending = false)
      (delay : e.delay? = some (e.before.rediscoverAt.elim (now + e.before.queryInterval)
        (min (now + e.before.queryInterval)) - now))
      (refreshAt : e.after.refreshAt = some (now + e.before.queryInterval))
      (rediscoverAt : e.after.rediscoverAt = e.before.rediscoverAt)
      (pending : e.after.refreshPending = true)
  /-- Nothing is sent, and neither the refresh nor the discovery is put off. -/
  | listens (discovered : e.discovered? = none) (requested : e.requested? = none)
      (delay : e.delay? = none) (refreshAt : e.after.refreshAt = e.before.refreshAt)
      (rediscoverAt : e.after.rediscoverAt = e.before.rediscoverAt)
      (pending : e.after.refreshPending = (e.interval?.isNone && e.before.refreshPending))

theorem upholds {e : Exchange} (before : e.before.phase = .active)
    (after : e.after.phase = .active) : e.Upholds := by
  have rule := e.responds
  obtain ⟨s, input⟩ := e
  generalize output_eq : Exchange.output ⟨s, input⟩ = output,
    after_eq : Exchange.after ⟨s, input⟩ = s' at rule after
  cases rule with
  | timer fires =>
    cases fires with
    | closed phase => cases before.symm.trans phase
    | discovering phase => cases before.symm.trans phase
    | requesting phase => cases before.symm.trans phase
    | relayless phase relay discovers => cases discovers.keeps.active after
    | active phase known attends =>
      -- of the three ways to attend to the alarm, the one that asks anew ends the activity
      cases attends with
      | rediscovers due =>
        refine .rediscovers rfl ?_ ?_ ?_ due ?_ ?_ ?_ ?_ <;>
          simp [discovered?, requested?, sent?, delay?, interval?, output_eq, after_eq]
      | unanswered notDue pending asks => cases asks.keeps.active after
      | refreshes notDue answered =>
        refine .refreshes rfl ?_ ?_ ?_ notDue (by simpa using answered) ?_ ?_ ?_ ?_ <;>
          simp [discovered?, requested?, sent?, delay?, interval?, output_eq, after_eq]
  | advertisement heeds =>
    cases heeds with
    | adopted awaited new => simp [enterRequesting] at after
    | _ =>
      refine .listens ?_ ?_ ?_ ?_ ?_ ?_ <;>
        simp [discovered?, requested?, sent?, delay?, interval?, output_eq, after_eq]
  | query hears =>
    cases hears with
    | activated answers phase => cases before.symm.trans phase
    | _ =>
      refine .listens ?_ ?_ ?_ ?_ ?_ ?_ <;>
        simp [discovered?, requested?, sent?, delay?, interval?, output_eq, after_eq,
          Session.answered]
  | ioSuccess =>
    refine .listens ?_ ?_ ?_ ?_ ?_ ?_ <;>
      simp [discovered?, requested?, sent?, delay?, interval?, output_eq, after_eq]
  | ioError suffers =>
    cases suffers with
    | closed phase => cases before.symm.trans phase
    | fatal phase enough => simp at after
    | reestablishes phase left => simp [enterRequesting] at after
    | refused phase => cases before.symm.trans phase
    | counted phase left =>
      rcases phase with phase | ⟨phase, -⟩
      · cases before.symm.trans phase
      · cases before.symm.trans phase
  | close => simp at after

/-- How a tunnel comes up: with a query, which starts both the time to the refresh and the time to
the discovery. -/
theorem activated_of_enters {e : Exchange} (enters : e.Enters .active) :
    ∃ sender nonce mac gatewayAddress interval now,
      e.input = .query sender nonce mac gatewayAddress interval now ∧
      e.interval? = some e.after.queryInterval ∧
      e.delay? = some (min e.after.queryInterval e.before.config.rediscoveryInterval) ∧
      e.after.refreshAt = some (now + e.after.queryInterval) ∧
      e.after.rediscoverAt = some (now + e.before.config.rediscoveryInterval) ∧
      e.after.refreshPending = false := by
  obtain ⟨sender, nonce, mac, gatewayAddress, interval, now, input, -⟩ :=
    answers_of_enters_active enters
  obtain ⟨before, after⟩ := enters
  have rule := e.responds
  simp only [interval?, delay?]
  generalize e.before = s, e.input = i, e.output = output, e.after = s'
    at rule before after input ⊢
  subst input
  cases rule with
  | query hears =>
    cases hears with
    | rejected other => exact absurd after before
    | activated answers phase => exact ⟨_, _, _, _, _, _, rfl, rfl, rfl, rfl, rfl, rfl⟩
    | accepted answers phase => exact absurd phase before

end Exchange

/-! ### What happens in time -/

/-- An exchange, and when it took place. -/
structure Moment where
  time : Instant
  exchange : Exchange
  deriving DecidableEq

/-- The time between two refreshes, from this moment on. -/
def Moment.interval (m : Moment) : Duration := m.exchange.after.queryInterval

/-- A session at some time, when its alarm is to go off, and all exchanges so far. -/
structure Chronicle where
  now : Instant
  session : Session
  alarm : Option Instant
  past : List Moment
  deriving DecidableEq

namespace Chronicle

open Session (Input)

/-- What can happen. -/
inductive Event where
  | pass (time : Duration)
  | input (input : Input)
  deriving DecidableEq

/-- Time passes, or the alarm goes off: nothing comes from outside. -/
def Event.IsInternal : Event → Prop
  | .pass _ | .input (.timer ..) => True
  | _ => False

/-- Nothing has happened yet. -/
def start (config : Config) : Chronicle := ⟨0, .start config, none, []⟩

/-- No alarm of an active session is to go off before the time. -/
def Rests (c : Chronicle) (time : Instant) : Prop :=
  c.session.phase = .active → c.alarm.all (time ≤ ·)

instance (c : Chronicle) (time : Instant) : Decidable (c.Rests time) :=
  inferInstanceAs (Decidable (_ → _))

/-- The input can come now. The alarm of an active session goes off when it is to do so. -/
def Admits (c : Chronicle) : Input → Prop
  | .timer now _ => now = c.now ∧ (c.session.phase = .active → c.alarm = some now)
  | .query _ _ _ _ _ now => now = c.now
  | _ => True

instance (c : Chronicle) (input : Input) : Decidable (c.Admits input) := by
  cases input <;> unfold Admits <;> infer_instance

/-- The exchange that an input leads to. -/
def moment (c : Chronicle) (input : Input) : Moment := ⟨c.now, ⟨c.session, input⟩⟩

/-- An input comes in. -/
def told (c : Chronicle) (input : Input) : Chronicle where
  now := c.now
  session := (c.moment input).exchange.after
  alarm := ((c.moment input).exchange.delay?.map (c.now + ·)).or c.alarm
  past := c.past ++ [c.moment input]

/-- What comes next. While the session is active, the clock does not pass the time at which its
alarm is to go off, and the alarm does not go off before. -/
def react (c : Chronicle) : Event → Chronicle
  | .pass time => if c.Rests (c.now + time) then { c with now := c.now + time } else c
  | .input input => if c.Admits input then c.told input else c

/-- What comes of anything that happens, from the start. -/
def run (config : Config) (events : List Event) : Chronicle := events.foldl react (start config)

/-- What is left if an input leads to what does not fit: there has been no exchange. -/
def brokenOff (last : Instant) (c : Chronicle) : Event → Chronicle
  | .pass time => c.react (.pass time)
  | .input input => { c with session := c.session.brokenOff last input }

/-- What happens with a clock that ends at `last`. -/
def attempts (last : Instant) : Attempts Chronicle Event where
  result := react
  fits c := c.session.fits last
  left := brokenOff last

variable {config : Config} {c : Chronicle}

theorem react_pass {time : Instant} (rests : c.Rests time) (ahead : c.now ≤ time) :
    c.react (.pass (time - c.now)) = { c with now := time } := by
  have reached : c.now + (time - c.now) = time := Nat.add_sub_cancel' ahead
  rw [react, reached, if_pos rests]

theorem run_concat (events : List Event) (event : Event) :
    run config (events ++ [event]) = (run config events).react event := by simp [run]

theorem run_induction {motive : Chronicle → Prop} (initial : motive (start config))
    (pass : ∀ c time, motive c → c.Rests (c.now + time) →
      motive { c with now := c.now + time })
    (input : ∀ c input, motive c → c.Admits input → motive (c.told input))
    (events : List Event) : motive (run config events) := by
  induction events using List.reverseRecOn with
  | nil => exact initial
  | append_singleton events event ih =>
    rw [run_concat]
    cases event with
    | pass time =>
      simp only [react]
      split
      · next rests => exact pass _ time ih rests
      · exact ih
    | input i =>
      simp only [react]
      split
      · next admits => exact input _ i ih admits
      · exact ih

/-- **A chronicle is a run of a session**, with its history. -/
theorem exists_inputs (config : Config) (events : List Event) :
    ∃ inputs, (run config events).session = Session.run config inputs ∧
      (run config events).past.map Moment.exchange = Session.history config inputs := by
  refine run_induction (motive := fun c => ∃ inputs, c.session = Session.run config inputs ∧
    c.past.map Moment.exchange = Session.history config inputs) ⟨[], rfl, rfl⟩ ?_ ?_ events
  · exact fun c time h _ => h
  · rintro c input ⟨inputs, session, past⟩ -
    refine ⟨inputs ++ [input], ?_, ?_⟩
    · simp only [told, moment, session, Session.run_concat]
    · simp [told, moment, session, past, Session.history_concat]

theorem coherent_run (config : Config) (events : List Event) :
    (run config events).session.Coherent := by
  obtain ⟨inputs, session, -⟩ := exists_inputs config events
  exact session ▸ Session.coherent_run config inputs

theorem config_run (config : Config) (events : List Event) :
    (run config events).session.config = config := by
  obtain ⟨inputs, session, -⟩ := exists_inputs config events
  exact session ▸ Session.config_run inputs

/-- **Exchanges are recorded in the order of their times.** -/
theorem ordered_run (config : Config) (events : List Event) :
    (run config events).past.Pairwise (fun m m' => m.time ≤ m'.time) ∧
      ∀ m ∈ (run config events).past, m.time ≤ (run config events).now := by
  refine run_induction (motive := fun c => c.past.Pairwise (fun m m' => m.time ≤ m'.time) ∧
    ∀ m ∈ c.past, m.time ≤ c.now) ⟨.nil, by simp [start]⟩ ?_ ?_ events
  · rintro c time ⟨ordered, past⟩ -
    exact ⟨ordered, fun m hm => (past m hm).trans (Nat.le_add_right ..)⟩
  · rintro c input ⟨ordered, past⟩ -
    refine ⟨List.pairwise_append.2 ⟨ordered, List.pairwise_singleton .., ?_⟩, fun m hm => ?_⟩
    · intro m hm m' hm'
      obtain rfl := List.mem_singleton.1 hm'
      exact past m hm
    · rcases List.mem_append.1 hm with hm | hm
      · exact past m hm
      · obtain rfl := List.mem_singleton.1 hm
        exact Nat.le_refl _

/-! ### The time between two refreshes -/

/-- The time between two refreshes, as the last accepted query asks for it. -/
def interval (config : Config) (past : List Moment) : Duration :=
  (past.filterMap fun m => m.exchange.interval?).getLast?.getD config.defaultQueryInterval

theorem interval_concat (past : List Moment) (m : Moment) :
    interval config (past ++ [m]) = m.exchange.interval?.getD (interval config past) := by
  cases h : m.exchange.interval? <;> simp [interval, h]

/-- At any moment, the time between two refreshes is what the last query accepted until then has
asked for. -/
theorem interval_run (config : Config) (events : List Event) {earlier later : List Moment}
    {m : Moment} (past : (run config events).past = earlier ++ m :: later) :
    m.interval = interval config (earlier ++ [m]) := by
  have both := run_induction (motive := fun c =>
    c.session.queryInterval = interval config c.past ∧
      ∀ earlier m later, c.past = earlier ++ m :: later →
        m.interval = interval config (earlier ++ [m])) ⟨rfl, by simp [start]⟩ ?_ ?_ events
  · exact both.2 earlier m later past
  · exact fun c time h _ => h
  · rintro c input ⟨session, moments⟩ -
    have after : (c.moment input).interval = interval config (c.past ++ [c.moment input]) := by
      rw [interval_concat, ← session]
      exact Exchange.queryInterval_after _
    refine ⟨after, fun earlier m later past => ?_⟩
    rcases concat_eq_append_cons past with ⟨-, rfl, rfl⟩ | ⟨between, -, before⟩
    · exact after
    · exact moments earlier m between before

end Chronicle

end MulticastTunnel
