import Mathlib.Data.List.Chain
import Mathlib.Data.List.Range
import MulticastTunnel.Proofs.Session.Chronicle

/-!
# The schedule of an active session

An active session has two things to do over and over again, with one alarm: to refresh its tunnel,
and to find out whether another relay should be used. What it has done since the tunnel came up
tells when each is due next, and the alarm goes off for whichever comes first.

* `Chronicle.ActiveSince` : the session has been active since the tunnel came up.
* `Chronicle.refreshDue`, `Chronicle.discoveryDue` : the next refresh and the next discovery.
* `Chronicle.OnSchedule` : the invariant of active sessions; `OnSchedule.told` is its step.
* `Chronicle.exists_later` : the clock is never stuck.
* `Chronicle.active_on_schedule` : **discoveries and refreshes keep their own time**, and do not put
  each other off, as long as the clock can show it.
-/

namespace MulticastTunnel

namespace Moment

/-- A request was sent. -/
def requests (m : Moment) : Bool := m.exchange.requested?.isSome

/-- A discovery message was sent. -/
def discovers (m : Moment) : Bool := m.exchange.discovered?.isSome

/-- The session has told a time after which its alarm is to go off, and then the refresh or the
discovery is due, whichever comes first. -/
def LeadsToNext (m : Moment) : Prop :=
  ∀ delay, m.exchange.delay? = some delay → ∃ refreshAt rediscoverAt,
    m.exchange.after.refreshAt = some refreshAt ∧
    m.exchange.after.rediscoverAt = some rediscoverAt ∧
    m.time + delay = min refreshAt rediscoverAt

end Moment

namespace Chronicle

open Session (Input)

/-- The tunnel came up at some moment of the past, and the session has been active since. -/
structure ActiveSince (c : Chronicle) (up : Moment) (later : List Moment) : Prop where
  past : ∃ earlier, c.past = earlier ++ up :: later
  enters : up.exchange.Enters .active
  stays : ∀ m ∈ later, m.exchange.after.phase = .active

/-! ### What is due next -/

/-- The last request since the tunnel came up, or else its coming up. -/
def lastRefresh (up : Moment) (later : List Moment) : Moment :=
  (later.filter Moment.requests).getLast?.getD up

/-- A refresh is due as long after the last one as was the time between two refreshes then. -/
def refreshDue (up : Moment) (later : List Moment) : Instant :=
  (lastRefresh up later).time + (lastRefresh up later).interval

/-- Discoveries are due at fixed intervals. -/
def discoveryDue (config : Config) (up : Moment) (later : List Moment) : Instant :=
  up.time + (later.countP Moment.discovers + 1) * config.rediscoveryInterval

/-- The last request has not been answered. -/
def Unanswered : List Moment → Prop :=
  Since (fun m => m.requests = false ∧ m.exchange.interval? = none) fun _ m => m.requests = true

variable {config : Config} {c : Chronicle} {up m : Moment} {later : List Moment} {input : Input}

theorem lastRefresh_concat_of_requests (h : m.requests = true) :
    lastRefresh up (later ++ [m]) = m := by simp [lastRefresh, h]

theorem lastRefresh_concat (h : m.requests = false) :
    lastRefresh up (later ++ [m]) = lastRefresh up later := by simp [lastRefresh, h]

theorem refreshDue_concat (h : m.requests = false) :
    refreshDue up (later ++ [m]) = refreshDue up later := by
  rw [refreshDue, lastRefresh_concat h, refreshDue]

theorem discoveryDue_concat_of_discovers (h : m.discovers = true) :
    discoveryDue config up (later ++ [m]) =
      discoveryDue config up later + config.rediscoveryInterval := by
  simp only [discoveryDue, List.countP_append, List.countP_singleton, h, if_true, Nat.succ_mul,
    Nat.add_assoc]

theorem discoveryDue_concat (h : m.discovers = false) :
    discoveryDue config up (later ++ [m]) = discoveryDue config up later := by
  simp [discoveryDue, h]

theorem mem_getLast?_refreshes :
    m ∈ (up :: later.filter Moment.requests).getLast? ↔ lastRefresh up later = m := by
  rw [List.getLast?_cons, Option.mem_def, Option.some.injEq, lastRefresh]

/-! ### What has been done -/

/-- Since the tunnel came up, everything has been done when it was due, and every delay led to what
was due next. -/
structure Orderly (config : Config) (up : Moment) (later : List Moment) : Prop where
  delays : ∀ m ∈ up :: later, m.LeadsToNext
  discoveries : (later.filter Moment.discovers).map Moment.time =
    (List.range (later.countP Moment.discovers)).map fun k =>
      up.time + (k + 1) * config.rediscoveryInterval
  refreshes : (up :: later.filter Moment.requests).IsChain fun m m' =>
    m'.time = m.time + m.interval
  unmoved : ∀ m ∈ later, m.requests = false →
    m.exchange.after.refreshAt = m.exchange.before.refreshAt

theorem Orderly.concat (h : Orderly config up later) (delay : m.LeadsToNext)
    (discovery : m.discovers = true → m.time = discoveryDue config up later)
    (refresh : m.requests = true → m.time = refreshDue up later)
    (unmoved : m.requests = false →
      m.exchange.after.refreshAt = m.exchange.before.refreshAt) :
    Orderly config up (later ++ [m]) where
  delays m' hm' := by
    rw [← List.cons_append, List.mem_append, List.mem_singleton] at hm'
    rcases hm' with hm' | rfl
    · exact h.delays m' hm'
    · exact delay
  discoveries := by
    cases found : m.discovers with
    | true =>
      have time : m.time = _ := discovery found
      simp [found, h.discoveries, List.range_succ, time, discoveryDue]
    | false => simp [found, h.discoveries]
  refreshes := by
    cases sent : m.requests with
    | true =>
      have time : m.time = _ := refresh sent
      have appended : up :: (later ++ [m]).filter Moment.requests =
          (up :: later.filter Moment.requests) ++ [m] := by simp [sent]
      rw [appended, List.isChain_append]
      refine ⟨h.refreshes, List.isChain_singleton m, fun last hlast next hnext => ?_⟩
      obtain rfl := mem_getLast?_refreshes.1 hlast
      obtain rfl : m = next := by simpa using hnext
      exact time
    | false => simpa [sent] using h.refreshes
  unmoved m' hm' := by
    rw [List.mem_append, List.mem_singleton] at hm'
    rcases hm' with hm' | rfl
    · exact h.unmoved m' hm'
    · exact unmoved

/-! ### The invariant -/

/-- The alarm of an active session is set for what is due next, as its past tells. -/
structure OnSchedule (config : Config) (c : Chronicle) (up : Moment) (later : List Moment) :
    Prop where
  phase : c.session.phase = .active
  config_eq : c.session.config = config
  refreshAt : c.session.refreshAt = some (refreshDue up later)
  rediscoverAt : c.session.rediscoverAt = some (discoveryDue config up later)
  alarm : c.alarm = some (min (refreshDue up later) (discoveryDue config up later))
  ahead : c.now ≤ min (refreshDue up later) (discoveryDue config up later)
  pending : c.session.refreshPending = true → Unanswered later
  orderly : Orderly config up later

namespace OnSchedule

theorem pass (h : OnSchedule config c up later) {time : Duration} (rests : c.Rests (c.now + time)) :
    OnSchedule config { c with now := c.now + time } up later := by
  refine { h with ahead := ?_ }
  have ahead := rests h.phase
  simpa [h.alarm] using ahead

theorem discoveryDue_eq (h : OnSchedule config c up later) (due : c.session.RediscoveryDue c.now) :
    discoveryDue config up later = c.now := by
  have came : discoveryDue config up later ≤ c.now := by
    simpa [Session.RediscoveryDue, h.rediscoverAt] using due
  exact Nat.le_antisymm came (h.ahead.trans (Nat.min_le_right ..))

theorem refreshDue_eq (h : OnSchedule config c up later) (set : c.alarm = some c.now)
    (notDue : ¬ c.session.RediscoveryDue c.now) : refreshDue up later = c.now := by
  have notYet : c.now < discoveryDue config up later := by
    simpa [Session.RediscoveryDue, h.rediscoverAt] using notDue
  have first : min (refreshDue up later) (discoveryDue config up later) = c.now :=
    Option.some.inj (h.alarm.symm.trans set)
  rcases Nat.le_total (refreshDue up later) (discoveryDue config up later) with le | le
  · rwa [Nat.min_eq_left le] at first
  · rw [Nat.min_eq_right le] at first
    exact absurd notYet (first ▸ Nat.lt_irrefl _)

/-- The tunnel comes up, and refresh and discovery are due an interval later each. -/
theorem activated (known : c.session.config = config) (admits : c.Admits input)
    (enters : (c.moment input).exchange.Enters .active) :
    OnSchedule config (c.told input) (c.moment input) [] := by
  obtain ⟨sender, nonce, mac, gatewayAddress, interval, now, asks, -, delay, refreshAt,
    rediscoverAt, answered⟩ := Exchange.activated_of_enters enters
  obtain rfl : input = .query sender nonce mac gatewayAddress interval now := asks
  obtain rfl : now = c.now := admits
  generalize hinput : Input.query sender nonce mac gatewayAddress interval c.now = input at *
  have before : (c.moment input).exchange.before.config = config := known
  rw [before] at delay rediscoverAt
  have refresh : refreshDue (c.moment input) [] =
      c.now + (c.moment input).exchange.after.queryInterval := rfl
  have discovery : discoveryDue config (c.moment input) [] =
      c.now + config.rediscoveryInterval := by
    simp [discoveryDue, moment]
  have both : c.now + min (c.moment input).exchange.after.queryInterval
      config.rediscoveryInterval =
      min (refreshDue (c.moment input) []) (discoveryDue config (c.moment input) []) := by
    rw [refresh, discovery, Nat.add_min_add_left]
  exact
    { phase := enters.2
      config_eq := (Exchange.config_after _).trans before
      refreshAt := refreshAt
      rediscoverAt := discovery ▸ rediscoverAt
      alarm := by rw [← both, told, delay, Option.map_some, Option.some_or]
      ahead := both ▸ Nat.le_add_right ..
      pending := fun pending => absurd (answered.symm.trans pending) Bool.false_ne_true
      orderly :=
        { delays := fun m hm d hd => by
            obtain rfl := List.mem_singleton.1 hm
            obtain rfl := Option.some.inj (delay.symm.trans hd)
            exact ⟨_, _, refreshAt, rediscoverAt, (Nat.add_min_add_left ..).symm⟩
          discoveries := rfl
          refreshes := List.isChain_singleton _
          unmoved := by simp } }

/-- An input comes in, and the session stays active. What was done was due; the alarm is set for
what is due next, or left alone if that is still the same. -/
theorem append (h : OnSchedule config c up later)
    (stays : (c.moment input).exchange.after.phase = .active)
    (refreshAt : (c.moment input).exchange.after.refreshAt =
      some (refreshDue up (later ++ [c.moment input])))
    (rediscoverAt : (c.moment input).exchange.after.rediscoverAt =
      some (discoveryDue config up (later ++ [c.moment input])))
    (delay : ∀ d, (c.moment input).exchange.delay? = some d → c.now + d =
      min (refreshDue up (later ++ [c.moment input]))
        (discoveryDue config up (later ++ [c.moment input])))
    (left : (c.moment input).exchange.delay? = none →
      refreshDue up (later ++ [c.moment input]) = refreshDue up later ∧
        discoveryDue config up (later ++ [c.moment input]) = discoveryDue config up later)
    (pending : (c.moment input).exchange.after.refreshPending = true →
      Unanswered (later ++ [c.moment input]))
    (discovery : (c.moment input).discovers = true → c.now = discoveryDue config up later)
    (refresh : (c.moment input).requests = true → c.now = refreshDue up later)
    (unmoved : (c.moment input).requests = false →
      (c.moment input).exchange.after.refreshAt = c.session.refreshAt) :
    OnSchedule config (c.told input) up (later ++ [c.moment input]) where
  phase := stays
  config_eq := (Exchange.config_after _).trans h.config_eq
  refreshAt := refreshAt
  rediscoverAt := rediscoverAt
  alarm := by
    show ((c.moment input).exchange.delay?.map (c.now + ·)).or c.alarm = _
    cases told : (c.moment input).exchange.delay? with
    | none =>
      obtain ⟨refresh, discovery⟩ := left told
      rw [Option.map_none, Option.none_or, h.alarm, refresh, discovery]
    | some d => rw [Option.map_some, Option.some_or, delay d told]
  ahead := by
    cases told : (c.moment input).exchange.delay? with
    | none =>
      obtain ⟨refresh, discovery⟩ := left told
      rw [refresh, discovery]
      exact h.ahead
    | some d => exact delay d told ▸ Nat.le_add_right ..
  pending := pending
  orderly := h.orderly.concat (fun d hd => ⟨_, _, refreshAt, rediscoverAt, delay d hd⟩) discovery
    refresh unmoved

/-- **The schedule is kept by every input** after which the session is still active. -/
theorem told (h : OnSchedule config c up later) (admits : c.Admits input)
    (stays : (c.moment input).exchange.after.phase = .active) :
    OnSchedule config (c.told input) up (later ++ [c.moment input]) := by
  have upholds : (c.moment input).exchange.Upholds := Exchange.upholds h.phase stays
  have before : (c.moment input).exchange.before = c.session := rfl
  cases upholds with
  | @rediscovers now nonce asks discovered requested interval due delay refreshAt rediscoverAt
      pending =>
    -- the discovery goes out at its time, and nothing but the next discovery is put off
    obtain rfl : input = .timer now nonce := asks
    obtain ⟨rfl, -⟩ := admits
    have unsent : (c.moment (.timer c.now nonce)).requests = false := by
      simp [Moment.requests, requested]
    have found : (c.moment (.timer c.now nonce)).discovers = true := by
      simp [Moment.discovers, discovered]
    rw [before, h.config_eq, h.refreshAt, Option.getD_some] at delay
    rw [before, h.config_eq] at rediscoverAt
    have now : discoveryDue config up later = c.now := h.discoveryDue_eq due
    have refresh : refreshDue up (later ++ [c.moment (.timer c.now nonce)]) =
        refreshDue up later := refreshDue_concat unsent
    have discovery : discoveryDue config up (later ++ [c.moment (.timer c.now nonce)]) =
        c.now + config.rediscoveryInterval := by
      rw [discoveryDue_concat_of_discovers found, now]
    have ahead : c.now ≤ min (refreshDue up later) (c.now + config.rediscoveryInterval) :=
      Nat.le_min.2 ⟨h.ahead.trans (Nat.min_le_left ..), Nat.le_add_right ..⟩
    refine h.append stays ?_ (discovery ▸ rediscoverAt) (fun d hd => ?_) (fun none => ?_)
      (fun waits => ?_) (fun _ => now.symm) (fun sent => ?_) (fun _ => refreshAt)
    · rw [refreshAt, before, h.refreshAt, refresh]
    · obtain rfl := Option.some.inj (delay.symm.trans hd)
      rw [refresh, discovery, Nat.add_sub_cancel' ahead]
    · simp [none] at delay
    · exact (h.pending (pending ▸ waits)).keep ⟨unsent, interval⟩
    · simp [unsent] at sent
  | @refreshes now nonce asks discovered requested interval notDue answered delay refreshAt
      rediscoverAt pending =>
    -- the refresh goes out at its time, and the next one is an interval later
    obtain rfl : input = .timer now nonce := asks
    obtain ⟨rfl, set⟩ := admits
    have sent : (c.moment (.timer c.now nonce)).requests = true := by
      simp [Moment.requests, requested]
    have unfound : (c.moment (.timer c.now nonce)).discovers = false := by
      simp [Moment.discovers, discovered]
    have now : refreshDue up later = c.now := h.refreshDue_eq (set h.phase) notDue
    have discovery : discoveryDue config up (later ++ [c.moment (.timer c.now nonce)]) =
        discoveryDue config up later := discoveryDue_concat unfound
    have same : (c.moment (.timer c.now nonce)).interval = c.session.queryInterval := by
      rw [Moment.interval, Exchange.queryInterval_after, interval, Option.getD_none, before]
    have refresh : refreshDue up (later ++ [c.moment (.timer c.now nonce)]) =
        c.now + c.session.queryInterval := by
      rw [refreshDue, lastRefresh_concat_of_requests sent, same]
      rfl
    rw [before, h.rediscoverAt, Option.elim_some] at delay
    have ahead : c.now ≤ min (c.now + c.session.queryInterval) (discoveryDue config up later) :=
      Nat.le_min.2 ⟨Nat.le_add_right .., h.ahead.trans (Nat.min_le_right ..)⟩
    refine h.append stays ?_ ?_ (fun d hd => ?_) (fun none => ?_) (fun _ => Since.now sent)
      (fun found => ?_) (fun _ => now.symm) (fun unsent => ?_)
    · rw [refreshAt, refresh, before]
    · rw [rediscoverAt, before, h.rediscoverAt, discovery]
    · obtain rfl := Option.some.inj (delay.symm.trans hd)
      rw [refresh, discovery, Nat.add_sub_cancel' ahead]
    · simp [none] at delay
    · simp [unfound] at found
    · simp [sent] at unsent
  | listens discovered requested delay refreshAt rediscoverAt pending =>
    -- nothing goes out, so what is due and the alarm stay as they are
    have unsent : (c.moment input).requests = false := by simp [Moment.requests, requested]
    have unfound : (c.moment input).discovers = false := by simp [Moment.discovers, discovered]
    refine h.append stays ?_ ?_ (fun d hd => ?_) (fun _ => ?_) (fun waits => ?_) (fun found => ?_)
      (fun sent => ?_) (fun _ => refreshAt)
    · rw [refreshAt, before, h.refreshAt, refreshDue_concat unsent]
    · rw [rediscoverAt, before, h.rediscoverAt, discoveryDue_concat unfound]
    · simp [delay] at hd
    · exact ⟨refreshDue_concat unsent, discoveryDue_concat unfound⟩
    · rw [pending, Bool.and_eq_true, Option.isNone_iff_eq_none] at waits
      exact (h.pending waits.2).keep ⟨unsent, waits.1⟩
    · simp [unfound] at found
    · simp [unsent] at sent

/-- If the alarm ends the activity, then the refresh is due, and the last one has not been
answered. A discovery that is due at the same time comes first, and ends nothing. -/
theorem leaves (h : OnSchedule config c up later) (coherent : c.session.Coherent)
    {nonce : UInt32} (admits : c.Admits (.timer c.now nonce))
    (left : (c.session.onTimer c.now nonce).2.phase ≠ .active) :
    refreshDue up later = c.now ∧ Unanswered later := by
  have set : c.alarm = some c.now := admits.2 h.phase
  generalize result : c.session.onTimer c.now nonce = r at left
  have fires : c.session.Fires c.now nonce r := result ▸ Session.onTimer_fires ..
  obtain ⟨relay, -, attends⟩ := coherent.attends h.phase fires
  cases attends with
  | rediscovers due => exact absurd h.phase left
  | unanswered notDue pending => exact ⟨h.refreshDue_eq set notDue, h.pending pending⟩
  | refreshes notDue answered => exact absurd h.phase left

end OnSchedule

theorem ActiveSince.ordered {events : List Event}
    (active : (run config events).ActiveSince up later) :
    (up :: later).Pairwise fun m m' => m.time ≤ m'.time := by
  obtain ⟨earlier, past⟩ := active.past
  have all := (ordered_run config events).1
  rw [past, List.pairwise_append] at all
  exact all.2.1

theorem exists_activeSince (config : Config) (events : List Event)
    (active : (run config events).session.phase = .active) :
    ∃ up later, (run config events).ActiveSince up later := by
  refine run_induction
    (motive := fun c => c.session.phase = .active → ∃ up later, c.ActiveSince up later)
    (fun phase => by simp [start, Session.start] at phase) ?_ ?_ events active
  · intro c time ih _ phase
    obtain ⟨up, later, past, enters, stays⟩ := ih phase
    exact ⟨up, later, past, enters, stays⟩
  · intro c input ih _ after
    by_cases before : c.session.phase = .active
    · obtain ⟨up, later, ⟨earlier, past⟩, enters, stays⟩ := ih before
      refine ⟨up, later ++ [c.moment input], ⟨earlier, by simp [told, past]⟩, enters, ?_⟩
      intro m hm
      rcases List.mem_append.1 hm with hm | hm
      · exact stays m hm
      · obtain rfl := List.mem_singleton.1 hm
        exact after
    · exact ⟨c.moment input, [], ⟨c.past, rfl⟩, ⟨before, after⟩, by simp⟩

/-- **An active session is on schedule**, whatever has happened since its tunnel came up. -/
theorem onSchedule_run (config : Config) (events : List Event)
    (active : (run config events).ActiveSince up later) :
    OnSchedule config (run config events) up later := by
  suffices h : ∀ earlier up later, (run config events).past = earlier ++ up :: later →
      up.exchange.Enters .active → (∀ m ∈ later, m.exchange.after.phase = .active) →
      OnSchedule config (run config events) up later by
    obtain ⟨⟨earlier, past⟩, enters, stays⟩ := active
    exact h earlier up later past enters stays
  refine (run_induction (motive := fun c => c.session.config = config ∧
    ∀ earlier up later, c.past = earlier ++ up :: later → up.exchange.Enters .active →
      (∀ m ∈ later, m.exchange.after.phase = .active) → OnSchedule config c up later)
    ⟨rfl, by simp [start]⟩ ?_ ?_ events).2
  · rintro c time ⟨known, h⟩ rests
    exact ⟨known, fun earlier up later past enters stays =>
      (h earlier up later past enters stays).pass rests⟩
  · rintro c input ⟨known, h⟩ admits
    refine ⟨(Exchange.config_after _).trans known, fun earlier up later past enters stays => ?_⟩
    rcases concat_eq_append_cons past with ⟨rfl, -, rfl⟩ | ⟨between, rfl, before⟩
    · exact .activated known admits enters
    · have schedule := h earlier up between before enters fun m hm =>
        stays m (List.mem_append_left _ hm)
      exact schedule.told admits (stays _ (List.mem_append_right _ (List.mem_singleton_self _)))

/-! ### The clock -/

/-- A bound on how often the alarm of a session can go off before a time, as long as the session is
active: once for each discovery and once for a refresh, which nobody answers. -/
def togo (time : Instant) (s : Session) : Nat :=
  if s.phase = .active then
    2 * (time - s.rediscoverAt.getD 0) + (if s.refreshPending then 1 else 2)
  else 0

theorem togo_fires {s : Session} {now time : Instant} {nonce : UInt32}
    {r : SessionStep × Session} (coherent : s.Coherent) (phase : s.phase = .active)
    (positive : 0 < s.config.rediscoveryInterval) (early : now < time)
    (fires : s.Fires now nonce r) : togo time r.2 < togo time s := by
  obtain ⟨relay, -, attends⟩ := coherent.attends phase fires
  cases attends with
  | rediscovers due =>
    obtain ⟨before, known⟩ := Option.isSome_iff_exists.1 (coherent.active phase).2.2.2.1
    have came : before ≤ now := by simpa [Session.RediscoveryDue, known] using due
    have less : time - (now + s.config.rediscoveryInterval) < time - before :=
      Nat.sub_lt_sub_left (Nat.lt_of_le_of_lt came early)
        (Nat.lt_of_le_of_lt came (Nat.lt_add_of_pos_right positive))
    simpa [togo, phase, known] using less
  | unanswered notDue pending asks =>
    have left : r.2.phase ≠ .active := fun active => nomatch asks.keeps.active active
    rw [togo, togo, if_neg left, if_pos phase]
    split <;> simp
  | refreshes notDue answered => simp [togo, phase, answered]

/-- **The clock is never stuck**: whatever the time, the alarm can go off such that it comes. -/
theorem exists_later (positive : 0 < config.rediscoveryInterval) (events : List Event)
    (time : Instant) :
    ∃ more, (∀ e ∈ more, e.IsInternal) ∧ time ≤ (run config (events ++ more)).now := by
  induction bound : togo time (run config events).session using Nat.strongRecOn
    generalizing events with
  | ind n ih =>
    rcases Nat.lt_or_ge (run config events).now time with early | late
    · by_cases rests : (run config events).Rests time
      · refine ⟨[.pass (time - (run config events).now)], by simp [Event.IsInternal], ?_⟩
        rw [run_concat, react_pass rests (Nat.le_of_lt early)]
      · -- the session is active, and its alarm goes off before
        obtain ⟨phase, before⟩ := Classical.not_imp.1 rests
        obtain ⟨up, later, active⟩ := exists_activeSince config events phase
        have schedule := onSchedule_run config events active
        obtain ⟨due, set⟩ : ∃ due, (run config events).alarm = some due := ⟨_, schedule.alarm⟩
        have ahead : (run config events).now ≤ due :=
          Option.some.inj (schedule.alarm.symm.trans set) ▸ schedule.ahead
        have sooner : due < time := by simpa [set] using before
        have fired : run config (events ++ [.pass (due - (run config events).now)] ++
            [.input (.timer due 0)]) =
            { run config events with now := due }.told (.timer due 0) := by
          rw [run_concat, run_concat, react_pass (fun _ => by simp [set]) ahead, react,
            if_pos ⟨rfl, fun _ => set⟩]
        have fewer : togo time ((run config events).session.onTimer due 0).2 <
            togo time (run config events).session :=
          togo_fires (coherent_run config events) phase (by rwa [config_run]) sooner
            (Session.onTimer_fires ..)
        obtain ⟨more, internal, reached⟩ := ih _ (bound ▸ fewer) _ (by rw [fired]; rfl)
        refine ⟨.pass (due - (run config events).now) :: .input (.timer due 0) :: more, ?_, ?_⟩
        · simpa [Event.IsInternal] using internal
        · simpa using reached
    · exact ⟨[], by simp, by rwa [List.append_nil]⟩

theorem OnSchedule.attempt {last : Instant} (h : OnSchedule config c up later)
    (coherent : c.session.Coherent) (fits : c.session.fits last) {nonce : UInt32}
    (admits : c.Admits (.timer c.now nonce)) (refresh : c.now + c.session.queryInterval ≤ last)
    (discovery : c.now + config.rediscoveryInterval ≤ last) :
    (attempts last).one c (.input (.timer c.now nonce)) = .ok (c.told (.timer c.now nonce)) := by
  obtain ⟨relay, -, attends⟩ :=
    coherent.attends h.phase (Session.onTimer_fires c.session c.now nonce)
  have none : c.session.restarts = 0 := (coherent.active h.phase).2.2.2.2.1
  have after := attends.fits fits (by omega) refresh (h.config_eq ▸ discovery)
  have reacts : c.react (.input (.timer c.now nonce)) = c.told (.timer c.now nonce) := if_pos admits
  rw [← reacts]
  refine Attempts.one_of_fits ?_
  show (c.react (.input (.timer c.now nonce))).session.fits last
  rw [reacts]
  exact after

/-- **Discoveries and refreshes keep their own time**, as long as nothing breaks off. While a
session is active, every delay that it tells leads to the refresh or the discovery, whichever is due
first. Counted from the time at which the tunnel came up, discoveries are made at the multiples of
their interval, one at each. A request is sent as long after the one before, or after the tunnel
came up, as was then the time between two refreshes, which is what the last accepted query asked
for. Nothing else moves a refresh. The alarm ends the activity only at a refresh, and only if no
query has been accepted since the last request. It does not break off if the clock can show the
times at which the next refresh and the next discovery are due. -/
theorem active_on_schedule (config : Config) {last : Instant} {events : List Event}
    (reached : (attempts last).all (start config) events = .ok c)
    (active : c.ActiveSince up later) :
    (∀ m ∈ up :: later, m.LeadsToNext) ∧
    (∃ n, (later.filter Moment.discovers).map Moment.time =
        (List.range n).map (fun k => up.time + (k + 1) * config.rediscoveryInterval) ∧
      c.now ≤ up.time + (n + 1) * config.rediscoveryInterval) ∧
    ((up :: later.filter Moment.requests).IsChain (fun m m' => m'.time = m.time + m.interval) ∧
      ∀ last ∈ (up :: later.filter Moment.requests).getLast?, c.now ≤ last.time + last.interval) ∧
    (∀ earlier m rest, c.past = earlier ++ m :: rest →
      m.interval = interval config (earlier ++ [m])) ∧
    (∀ m ∈ later, m.requests = false →
      m.exchange.after.refreshAt = m.exchange.before.refreshAt) ∧
    ∀ nonce, c.Admits (.timer c.now nonce) →
      ((c.session.onTimer c.now nonce).2.phase ≠ .active →
        c.session.refreshAt = some c.now ∧ Unanswered later) ∧
      (c.now + c.session.queryInterval ≤ last → c.now + config.rediscoveryInterval ≤ last →
        (attempts last).one c (.input (.timer c.now nonce)) =
          .ok (c.told (.timer c.now nonce))) := by
  have fits : c.session.fits last := Attempts.fits_of_all reached rfl
  obtain rfl : run config events = c := Attempts.foldl_of_all reached
  have schedule := onSchedule_run config events active
  have coherent := coherent_run config events
  refine ⟨schedule.orderly.delays, ⟨_, schedule.orderly.discoveries, ?_⟩,
    ⟨schedule.orderly.refreshes, fun last hlast => ?_⟩,
    fun earlier m rest past => interval_run config events past, schedule.orderly.unmoved,
    fun nonce admits => ⟨fun left => ?_, schedule.attempt coherent fits admits⟩⟩
  · exact schedule.ahead.trans (Nat.min_le_right ..)
  · obtain rfl := mem_getLast?_refreshes.1 hlast
    exact schedule.ahead.trans (Nat.min_le_left ..)
  · obtain ⟨due, unanswered⟩ := schedule.leaves coherent admits left
    exact ⟨schedule.refreshAt.trans (congrArg some due), unanswered⟩

/-- A tunnel is up and refreshed once, then a discovery and a refresh fall due together, and the
second refresh remains unanswered until the third is due. -/
def coincidence (relay : Endpoint) : List Event :=
  let period := Duration.ofSeconds 125
  [.input (.timer 0 11), .input (.advertisement 11 relay.address), .input (.timer 0 22),
    .input (.query relay 22 1 none none 0), .pass period, .input (.timer period 33),
    .input (.query relay 33 2 none none period), .pass period, .input (.timer (2 * period) 44),
    .input (.timer (2 * period) 55), .pass period]

theorem active_on_schedule_coincidence :
    let relay := Endpoint.of (.ofOctets 192 0 2 7) tunnelPort
    let period := Duration.ofSeconds 125
    let config := { Config.standard (.of (.ofOctets 192 0 2 1) tunnelPort) with
      rediscoveryInterval := 2 * period }
    let c := run config (coincidence relay)
    (attempts .last).all (start config) (coincidence relay) = .ok c ∧
      ∃ up later, c.ActiveSince up later ∧ (∀ m ∈ up :: later, m.LeadsToNext) ∧
      (later.filter Moment.discovers).map Moment.time = [2 * period] ∧
      c.now ≤ 4 * period ∧
      (up :: later.filter Moment.requests).IsChain (fun m m' => m'.time = m.time + m.interval) ∧
      (later.filter Moment.requests).map Moment.time = [period, 2 * period] ∧
      c.session.refreshAt = some c.now ∧ Unanswered later := by
  intro relay period config c
  have reached : (attempts .last).all (start config) (coincidence relay) = .ok c := by
    decide +kernel
  have active : c.ActiveSince (c.past.get ⟨3, by decide⟩) (c.past.drop 4) :=
    ⟨⟨c.past.take 3, by decide⟩, by decide, by decide⟩
  obtain ⟨delays, -, ⟨refreshes, -⟩, -, -, next⟩ := active_on_schedule config reached active
  obtain ⟨leaves, -⟩ := next 66 (by decide)
  exact ⟨reached, _, _, active, delays, by decide, by decide, refreshes, by decide,
    leaves (by decide)⟩

/-- The relay asks for a refresh after ten seconds, and then leaves it to the gateway, which is set
to the longest interval. -/
def unlimited (relay : Endpoint) : List Event :=
  let period := Duration.ofSeconds 10
  [.input (.timer 0 11), .input (.advertisement 11 relay.address), .input (.timer 0 22),
    .input (.query relay 22 1 none (some period) 0), .pass period, .input (.timer period 33),
    .input (.query relay 33 2 none none period), .pass period]

/-- With the longest default interval between two refreshes, a refresh that is due is not sent: the
alarm breaks off, since the clock can not show the time of the refresh after it. -/
theorem refresh_not_sent :
    let relay := Endpoint.of (.ofOctets 192 0 2 7) tunnelPort
    let config := { Config.standard (.of (.ofOctets 192 0 2 1) tunnelPort) with
      defaultQueryInterval := .longest }
    config.problem = none ∧
      ∃ c, (attempts .last).all (start config) (unlimited relay) = .ok c ∧
      ∃ up later, c.ActiveSince up later ∧ refreshDue up later = c.now ∧
        c.Admits (.timer c.now 44) ∧
        ∃ left, (attempts .last).one c (.input (.timer c.now 44)) = .error left ∧
          left.session.phase = .active ∧ left.past = c.past := by
  intro relay config
  let c := run config (unlimited relay)
  have active : c.ActiveSince (c.past.get ⟨3, by decide⟩) (c.past.drop 4) :=
    ⟨⟨c.past.take 3, by decide⟩, by decide, by decide⟩
  have late : (attempts .last).fits (c.react (.input (.timer c.now 44))) = false := by
    decide +kernel
  exact ⟨by decide, c, by decide +kernel, _, _, active, by decide, by decide, _,
    Attempts.one_of_not_fits late, by decide, by decide⟩

end Chronicle

end MulticastTunnel
