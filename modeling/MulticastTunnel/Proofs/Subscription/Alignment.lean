import Mathlib.Tactic.ByContra
import MulticastTunnel.Proofs.Listener.Run
import MulticastTunnel.Proofs.Subscription.Wants

/-!
# Groups follow their subscriptions

What is wanted of a group should be what its subscribers want. A subscription ends even if the
listener then refuses the filter that is left, which happens if that filter lists an address that
is no source: it was admitted while another subscription took any source.

* `Channels.run_ok` : no run faults if queues have room.
* `Channels.Aligned` : the invariant.
* `Channels.aligned_follow` : a removal, followed by the request for the filter that is left.
* `Channels.interest_eq_aggregate_iff` : **a group follows its subscriptions exactly if one of them
  takes any source or all of them name sources that the listener permits**; otherwise it is still
  received from all sources.
* `Channels.interest_ne_aggregate` : a run in which a group does not follow its subscriptions.
-/

namespace MulticastTunnel

namespace Channels

/-! ### Runs -/

/-- What can happen to the channels. -/
inductive Event where
  | subscribe (now : Instant) (channel : Channel)
  | unsubscribe (now : Instant) (id : Nat)
  | dispatch (now : Instant) (datagram : Datagram)
  /-- A receiver looks for a datagram. -/
  | receive (id : Nat)
  /-- A receiver goes. -/
  | abandon (id : Nat)
  /-- Something happens to the listener alone. -/
  | listener (event : Listener.Event)
  deriving DecidableEq

/-- The channels after an event, whatever it returned. -/
def react (c : Channels) : Event → Except Fault Channels
  | .subscribe now channel =>
    match c.subscribe now channel with
    | .ok (_, c) => .ok c
    | .error (.refused _) => .ok c
    | .error (.fault f) => .error f
  | .unsubscribe now id => .ok (c.unsubscribe now id).2
  | .dispatch now datagram => .ok (c.dispatch now datagram).2
  | .receive id => .ok { c with subscriptions := (c.subscriptions.receive id).2 }
  | .abandon id => .ok { c with subscriptions := c.subscriptions.abandon id }
  | .listener event => .ok { c with listener := (c.listener.react event).1 }

/-- The event leaves it to the channels to call the listener, and does not end it. -/
def Event.Undisturbed : Event → Prop
  | .listener event => event.IsInternal
  | _ => True

/-- No subscriptions yet. -/
def start (config : Config) (capacity : Nat) : Channels := ⟨.start config, .empty capacity⟩

/-- The channels after some events. -/
def run (config : Config) (capacity : Nat) (events : List Event) : Except Fault Channels :=
  events.foldlM react (start config capacity)

variable {c : Channels} {group : Address}

/-! ### Queues with room -/

@[simp] theorem subscriptions_follow (now : Instant) :
    (c.follow now group).2.subscriptions = c.subscriptions := by
  unfold follow
  split <;> rfl

@[simp] theorem capacity_prune (now : Instant) (gone : List Subscription) :
    (c.prune now gone).subscriptions.capacity = c.subscriptions.capacity := by
  induction gone generalizing c with
  | nil => rfl
  | cons t rest ih =>
    refine ih.trans ?_
    rw [subscriptions_follow]
    rfl

@[simp] theorem capacity_unsubscribe (now : Instant) (id : Nat) :
    (c.unsubscribe now id).2.subscriptions.capacity = c.subscriptions.capacity := by
  unfold unsubscribe
  split
  · rfl
  · rw [subscriptions_follow]
    rfl

/-- Nothing faults while new queues have room, and they go on having it. -/
theorem react_ok (room : 0 < c.subscriptions.capacity) (event : Event) :
    ∃ c', c.react event = .ok c' ∧ c'.subscriptions.capacity = c.subscriptions.capacity := by
  cases event with
  | subscribe now channel =>
    have queue : (Queue.empty? c.subscriptions.capacity : Except Fault (Queue Datagram)) =
        .ok (.empty c.subscriptions.capacity) := if_neg (Nat.ne_of_gt room)
    simp only [react, subscribe, queue]
    cases channel.problem with
    | some problem => exact ⟨c, rfl, rfl⟩
    | none =>
      cases c.listener.update now channel.group
          ((c.subscriptions.aggregate channel.group).union channel.filter) with
      | error e => exact ⟨c, rfl, rfl⟩
      | ok listener => exact ⟨_, rfl, rfl⟩
  | unsubscribe now id => exact ⟨_, rfl, capacity_unsubscribe now id⟩
  | dispatch now datagram =>
    refine ⟨_, rfl, (capacity_prune now _).trans ?_⟩
    exact Subscriptions.capacity_offerAll c.subscriptions datagram _
  | receive id => exact ⟨_, rfl, rfl⟩
  | abandon id => exact ⟨_, rfl, rfl⟩
  | listener event => exact ⟨_, rfl, rfl⟩

theorem run_ok (config : Config) {capacity : Nat} (room : 0 < capacity) (events : List Event) :
    ∃ c, run config capacity events = .ok c := by
  unfold run
  have first : (start config capacity).subscriptions.capacity = capacity := rfl
  generalize start config capacity = c at first
  induction events generalizing c with
  | nil => exact ⟨c, rfl⟩
  | cons event events ih =>
    obtain ⟨next, reacts, kept⟩ := react_ok (first ▸ room) event
    obtain ⟨last, runs⟩ := ih next (kept.trans first)
    refine ⟨last, ?_⟩
    rw [List.foldlM_cons, reacts]
    exact runs

theorem run_invariant {P : Channels → Prop} {config : Config} {capacity : Nat}
    {events : List Event} (starts : P (start config capacity))
    (step : ∀ event ∈ events, ∀ c c', P c → c.react event = .ok c' → P c')
    (success : run config capacity events = .ok c) : P c := by
  unfold run at success
  generalize start config capacity = first at success starts
  induction events generalizing first with
  | nil =>
    obtain rfl := Except.ok.inj success
    exact starts
  | cons event events ih =>
    rw [List.foldlM_cons] at success
    cases reacts : first.react event with
    | error f => simp [reacts, bind, Except.bind] at success
    | ok next =>
      simp only [reacts, bind, Except.bind] at success
      exact ih (fun e he => step e (List.mem_cons_of_mem _ he)) next success
        (step event List.mem_cons_self first next starts reacts)

/-! ### The invariant -/

/-- The subscriptions of a group ask for a filter that the listener permits: one of them takes any
source, or all of them name sources that can be listed for the group. -/
def Permissible (s : Subscriptions) (group : Address) : Prop :=
  s.Wants group none ∨
    ∀ source, s.Wants group (some source) → SourceFilter.sourceProblem group source = none

/-- What is wanted of a group is what its subscribers want. If the listener does not permit that,
it is all sources. -/
def Follows (c : Channels) (group : Address) : Prop :=
  (Permissible c.subscriptions group →
      c.listener.interest group = c.subscriptions.aggregate group) ∧
    (¬ Permissible c.subscriptions group → c.listener.interest group = .allSources)

/-- Subscriptions with numbers of their own, to channels that were permitted. -/
structure Admitted (active : List Subscription) : Prop where
  distinct : ∀ s ∈ active, ∀ t ∈ active, s.id = t.id → s = t
  multicast : ∀ s ∈ active, s.channel.group.isMulticast
  anySource : ∀ s ∈ active, s.channel.source = none → ¬ s.channel.group.isSourceSpecific

/-- The groups of an open listener follow subscriptions that were admitted. -/
structure Aligned (c : Channels) : Prop where
  listening : c.listener.closed = false
  ordered : Groups.Ordered c.listener.groups
  numbered : ∀ s ∈ c.subscriptions.active, s.id < c.subscriptions.nextId
  admitted : Admitted c.subscriptions.active
  follows : ∀ group, c.Follows group

theorem Admitted.mono {active active' : List Subscription} (h : Admitted active)
    (sub : ∀ s ∈ active', s ∈ active) : Admitted active' where
  distinct s hs t ht := h.distinct s (sub s hs) t (sub t ht)
  multicast s hs := h.multicast s (sub s hs)
  anySource s hs := h.anySource s (sub s hs)

theorem Admitted.concat {active : List Subscription} {t : Subscription} (h : Admitted active)
    (fresh : ∀ s ∈ active, s.id ≠ t.id) (multicast : t.channel.group.isMulticast)
    (anySource : t.channel.source = none → ¬ t.channel.group.isSourceSpecific) :
    Admitted (active ++ [t]) := by
  refine ⟨fun s hs u hu same => ?_, fun s hs => ?_, fun s hs => ?_⟩
  all_goals rcases List.mem_append.1 hs with hs | hs
  · rcases List.mem_append.1 hu with hu | hu
    · exact h.distinct s hs u hu same
    · exact absurd (same.trans (by rw [List.mem_singleton.1 hu])) (fresh s hs)
  · rcases List.mem_append.1 hu with hu | hu
    · exact absurd (same.symm.trans (by rw [List.mem_singleton.1 hs])) (fresh u hu)
    · rw [List.mem_singleton.1 hs, List.mem_singleton.1 hu]
  · exact h.multicast s hs
  · rwa [List.mem_singleton.1 hs]
  · exact h.anySource s hs
  · rwa [List.mem_singleton.1 hs]

theorem aligned_start (config : Config) (capacity : Nat) : Aligned (start config capacity) where
  listening := rfl
  ordered := List.Pairwise.nil
  numbered s hs := by simp [start, Subscriptions.empty] at hs
  admitted := ⟨by simp [start, Subscriptions.empty], by simp [start, Subscriptions.empty],
    by simp [start, Subscriptions.empty]⟩
  follows group := by
    have nothing (source) : ¬ (Subscriptions.empty capacity).Wants group source := by
      simp [Subscriptions.Wants, Subscriptions.empty]
    have permissible : Permissible (Subscriptions.empty capacity) group :=
      .inr fun source wants => absurd wants (nothing _)
    exact ⟨fun _ => rfl, fun impermissible => absurd permissible impermissible⟩

theorem Follows.of_eq {c' : Channels} (h : c.Follows group)
    (interest : c'.listener.interest group = c.listener.interest group)
    (wants : ∀ source, c'.subscriptions.Wants group source ↔ c.subscriptions.Wants group source) :
    c'.Follows group := by
  unfold Follows Permissible at h ⊢
  rw [interest, Subscriptions.aggregate_congr wants]
  simpa only [wants] using h

/-! ### The filter of a group -/

theorem permissible_iff {s : Subscriptions} (multicast : group.isMulticast)
    (anySource : s.Wants group none → ¬ group.isSourceSpecific) :
    (s.aggregate group).problemFor group = none ↔ Permissible s group := by
  rw [SourceFilter.problemFor_eq_none_iff]
  by_cases any : s.Wants group none
  · have := anySource any
    simp [Subscriptions.aggregate_of_any any, SourceFilter.allSources, SourceFilter.excluding,
      Permissible, multicast, any, this]
  · obtain ⟨sources, filter, members⟩ := Subscriptions.aggregate_of_not_any any
    simp [filter, SourceFilter.including, Permissible, multicast, any, members]

/-- Subscriptions of one group have ended, and the listener is asked for the filter that is left.
If it refuses, the group was and is received from all sources. -/
theorem aligned_follow {subscriptions : Subscriptions} (h : c.Aligned) (now : Instant)
    (sub : ∀ s ∈ subscriptions.active, s ∈ c.subscriptions.active)
    (queues : subscriptions.nextId = c.subscriptions.nextId) (multicast : group.isMulticast)
    (others : ∀ other, other ≠ group → ∀ source,
      subscriptions.Wants other source ↔ c.subscriptions.Wants other source) :
    ({ c with subscriptions }.follow now group).2.Aligned := by
  have admitted := h.admitted.mono sub
  have numbered : ∀ s ∈ subscriptions.active, s.id < subscriptions.nextId := fun s hs =>
    queues ▸ h.numbered s (sub s hs)
  have anySource : subscriptions.Wants group none → ¬ group.isSourceSpecific := by
    rintro ⟨s, hs, rfl, any⟩
    exact admitted.anySource s hs any
  -- the listener takes the filter exactly if it is permissible
  rcases c.listener.call_cases now group (.update (subscriptions.aggregate group)) with
    ⟨permitted, l', success, called⟩ | ⟨e, refused, failure⟩
  · have permissible : Permissible subscriptions group :=
      (permissible_iff multicast anySource).1 (Listener.permit_eq_ok_iff.1 permitted).1
    simp only [Listener.call] at success
    simp only [follow, success]
    refine ⟨called.1.closed.trans h.listening, called.1.ordered h.ordered, numbered, admitted,
      fun other => ?_⟩
    by_cases here : other = group
    · subst here
      have interest : l'.interest other = subscriptions.aggregate other :=
        (called.interest other).trans (if_pos rfl)
      exact ⟨fun _ => interest, fun impermissible => absurd permissible impermissible⟩
    · have interest : l'.interest other = c.listener.interest other :=
        (called.interest other).trans (if_neg (Ne.symm here))
      exact (h.follows other).of_eq interest (others other here)
  · have impermissible : ¬ Permissible subscriptions group := by
      intro permissible
      have noProblem := (permissible_iff multicast anySource).2 permissible
      have permitted := Listener.permit_eq_ok_iff.2 ⟨noProblem, h.listening⟩
      simp [Listener.Call.filter, permitted] at refused
    simp only [Listener.call] at failure
    simp only [follow, failure]
    refine ⟨h.listening, h.ordered, numbered, admitted, fun other => ?_⟩
    by_cases here : other = group
    · subst here
      refine ⟨fun permissible => absurd permissible impermissible, fun _ => ?_⟩
      by_cases before : Permissible c.subscriptions other
      · -- the subscription to any source is the one that has ended
        rcases before with any | valid
        · rw [(h.follows other).1 (.inl any), Subscriptions.aggregate_of_any any]
        · exact absurd (.inr fun source wants => valid source (wants.mono sub)) impermissible
      · exact (h.follows other).2 before
    · exact (h.follows other).of_eq rfl (others other here)

/-! ### The events -/

theorem Aligned.remove (h : c.Aligned) (now : Instant) {t : Subscription}
    (only : ∀ u ∈ c.subscriptions.active, u.id = t.id → u = t)
    (multicast : t.channel.group.isMulticast) :
    Aligned
      ({ c with subscriptions := c.subscriptions.remove t.id }.follow now t.channel.group).2 :=
  aligned_follow h now (fun _ hs => (Subscriptions.mem_active_remove.1 hs).1)
    (by simp [Subscriptions.nextId, Subscriptions.remove, Subscriptions.modifyQueue]) multicast
    fun _ hother _ => Subscriptions.wants_remove_of_ne only hother

theorem Aligned.unsubscribe (h : c.Aligned) (now : Instant) (id : Nat) :
    (c.unsubscribe now id).2.Aligned := by
  unfold Channels.unsubscribe
  split
  · exact h
  · next t found =>
    have active : t ∈ c.subscriptions.active := List.mem_of_find?_eq_some found
    obtain rfl : t.id = id := by simpa using List.find?_some found
    exact h.remove now (fun u hu same => h.admitted.distinct u hu t active same)
      (h.admitted.multicast t active)

/-- Receivers that have gone are dropped one after the other. `known` are the subscriptions of the
time when that was found out. -/
theorem Aligned.prune (h : c.Aligned) (now : Instant) {known gone : List Subscription}
    (admitted : Admitted known) (active : ∀ s ∈ c.subscriptions.active, s ∈ known)
    (hgone : ∀ t ∈ gone, t ∈ known) : (c.prune now gone).Aligned := by
  induction gone generalizing c with
  | nil => exact h
  | cons t rest ih =>
    have ht : t ∈ known := hgone t (by simp)
    -- nobody else has the number of the subscription, whether or not it is still there
    have only : ∀ u ∈ c.subscriptions.active, u.id = t.id → u = t := by
      intro u hu same
      exact admitted.distinct u (active u hu) t ht same
    refine ih (h.remove now only (admitted.multicast t ht)) ?_ ?_
    · intro s hs
      rw [subscriptions_follow] at hs
      exact active s (Subscriptions.mem_active_remove.1 hs).1
    · intro u hu
      exact hgone u (List.mem_cons_of_mem _ hu)

theorem Aligned.of_active {subscriptions : Subscriptions} (h : c.Aligned)
    (active : subscriptions.active = c.subscriptions.active)
    (queues : subscriptions.nextId = c.subscriptions.nextId) :
    Aligned { c with subscriptions } where
  listening := h.listening
  ordered := h.ordered
  numbered := by rw [active, queues]; exact h.numbered
  admitted := by rw [active]; exact h.admitted
  follows group := (h.follows group).of_eq rfl fun source => by
    simp only [Subscriptions.Wants, active]

theorem Aligned.dispatch (h : c.Aligned) (now : Instant) (d : Datagram) :
    (c.dispatch now d).2.Aligned := by
  obtain ⟨active, queues, gone⟩ := c.subscriptions.offerAll_spec d
    (c.subscriptions.active.filter fun s => s.channel.matches? d)
  refine (h.of_active active queues).prune now h.admitted ?_ ?_
  · intro s hs
    rw [active] at hs
    exact hs
  · intro t ht
    exact (List.mem_filter.1 (gone t ht)).1

theorem Aligned.listener (h : c.Aligned) {event : Listener.Event} (internal : event.IsInternal) :
    Aligned { c with listener := (c.listener.react event).1 } := by
  have continues : c.listener.Continues (c.listener.react event).1 :=
    Listener.react_continues fun shutdown => by rw [shutdown] at internal; exact internal
  refine ⟨continues.closed.trans h.listening, continues.ordered h.ordered, h.numbered, h.admitted,
    fun group => (h.follows group).of_eq ?_ fun _ => Iff.rfl⟩
  exact congrFun (Listener.interest_react internal h.ordered) group

theorem Aligned.add {l' : Listener} {now : Instant} {channel : Channel} {queue : Queue Datagram}
    (h : c.Aligned)
    (permitted : c.listener.update now channel.group
      ((c.subscriptions.aggregate channel.group).union channel.filter) = .ok l') :
    Aligned ⟨l', c.subscriptions.add channel queue⟩ := by
  rw [← Subscriptions.aggregate_add c.subscriptions channel queue] at permitted
  rcases c.listener.call_cases now channel.group
      (.update ((c.subscriptions.add channel queue).aggregate channel.group)) with
    ⟨permit, l'', success, called⟩ | ⟨e, -, failure⟩
  · obtain rfl := Except.ok.inj (permitted.symm.trans success)
    obtain ⟨noProblem, -⟩ := Listener.permit_eq_ok_iff.1 permit
    obtain ⟨multicast, sources, mode⟩ := SourceFilter.problemFor_eq_none_iff.1 noProblem
    have anySource (any : (c.subscriptions.add channel queue).Wants channel.group none) :
        ¬ channel.group.isSourceSpecific := fun specific => mode
      ⟨by simp [Listener.Call.filter, Subscriptions.aggregate_of_any any, SourceFilter.allSources,
        SourceFilter.excluding], specific⟩
    refine ⟨called.1.closed.trans h.listening, called.1.ordered h.ordered, fun s hs => ?_, ?_,
      fun group => ?_⟩
    · have room : (c.subscriptions.add channel queue).nextId = c.subscriptions.nextId + 1 := by
        simp [Subscriptions.nextId, Subscriptions.add]
      rw [room]
      rcases List.mem_append.1 hs with hs | hs
      · exact Nat.lt_succ_of_lt (h.numbered s hs)
      · rw [List.mem_singleton.1 hs]
        exact Nat.lt_succ_self _
    · refine h.admitted.concat (fun s hs => Nat.ne_of_lt (h.numbered s hs)) multicast fun any => ?_
      exact anySource (Subscriptions.wants_add.2 (.inr ⟨rfl, any⟩))
    · by_cases here : group = channel.group
      · subst here
        refine ⟨fun _ => ?_, fun impermissible => absurd ?_ impermissible⟩
        · exact (called.interest _).trans (if_pos rfl)
        · exact (permissible_iff multicast anySource).1 noProblem
      · refine (h.follows group).of_eq ((called.interest _).trans (if_neg (Ne.symm here))) ?_
        intro source
        simp [Subscriptions.wants_add, Ne.symm here]
  · simp [Listener.call, permitted] at failure

theorem Aligned.subscribe {c' : Channels} {now : Instant} {channel : Channel} {id : Nat}
    (h : c.Aligned) (success : c.subscribe now channel = .ok (id, c')) : c'.Aligned := by
  unfold Channels.subscribe at success
  split at success
  · simp at success
  · dsimp only at success
    split at success
    · simp at success
    · simp at success
    · next permitted _ =>
      obtain ⟨-, rfl⟩ := Prod.mk.inj (Except.ok.inj success)
      exact h.add permitted

theorem Aligned.react {c' : Channels} {event : Event} (h : c.Aligned)
    (undisturbed : event.Undisturbed) (success : c.react event = .ok c') : c'.Aligned := by
  cases event with
  | subscribe now channel =>
    simp only [Channels.react] at success
    cases outcome : c.subscribe now channel with
    | ok made =>
      rw [outcome] at success
      obtain rfl := Except.ok.inj success
      exact h.subscribe outcome
    | error failure =>
      rw [outcome] at success
      cases failure with
      | refused error =>
        obtain rfl := Except.ok.inj success
        exact h
      | fault cause => simp at success
  | unsubscribe now id =>
    obtain rfl := Except.ok.inj success
    exact h.unsubscribe now id
  | dispatch now datagram =>
    obtain rfl := Except.ok.inj success
    exact h.dispatch now datagram
  | receive id =>
    obtain rfl := Except.ok.inj success
    exact h.of_active rfl (by simp [Subscriptions.nextId, Subscriptions.receive,
      Subscriptions.modifyQueue])
  | abandon id =>
    obtain rfl := Except.ok.inj success
    exact h.of_active rfl (by simp [Subscriptions.nextId, Subscriptions.abandon,
      Subscriptions.modifyQueue])
  | listener event =>
    obtain rfl := Except.ok.inj success
    exact h.listener undisturbed

theorem aligned_run {config : Config} {capacity : Nat} {events : List Event}
    (undisturbed : ∀ event ∈ events, event.Undisturbed)
    (success : run config capacity events = .ok c) :
    c.Aligned :=
  run_invariant (aligned_start config capacity)
    (fun event mem _ _ aligned reacts => aligned.react (undisturbed event mem) reacts) success

/-- **A group follows its subscriptions** after any events exactly if one of them takes any source,
or all of them name sources that can be listed for the group. Otherwise it is received from all
sources, whatever its subscribers want. If queues have room, no events end in
a fault. -/
theorem interest_eq_aggregate_iff (config : Config) (capacity : Nat) {events : List Event}
    (undisturbed : ∀ event ∈ events, event.Undisturbed) :
    (0 < capacity → ∃ c, run config capacity events = .ok c) ∧
    ∀ c, run config capacity events = .ok c → ∀ group,
      (c.listener.interest group = c.subscriptions.aggregate group ↔
        Permissible c.subscriptions group) ∧
      (¬ Permissible c.subscriptions group → c.listener.interest group = .allSources) := by
  refine ⟨fun room => run_ok config room events, fun c success group => ?_⟩
  obtain ⟨follows, stale⟩ := (aligned_run undisturbed success).follows group
  refine ⟨⟨fun same => ?_, follows⟩, stale⟩
  by_contra impermissible
  obtain ⟨sources, filter, -⟩ :=
    Subscriptions.aggregate_of_not_any fun any => impermissible (.inl any)
  rw [stale impermissible, filter] at same
  simp [SourceFilter.allSources, SourceFilter.excluding, SourceFilter.including] at same

/-- Two subscriptions to a group, the first of which takes any source, and the end of the first. -/
def twoSubscribers (group source : Address) : List Event :=
  [.subscribe 0 ⟨group, none, none⟩, .subscribe 0 ⟨group, some source, none⟩, .unsubscribe 0 0]

theorem interest_eq_aggregate_twoSubscribers :
    let group := Address.ofOctets 239 1 1 1
    let source := Address.ofOctets 192 0 2 1
    ∃ c, run Config.quick 8 (twoSubscribers group source) = .ok c ∧
      c.listener.interest group = .including (.ofList [source]) ∧
      (c.listener.interest group = c.subscriptions.aggregate group ↔
        Permissible c.subscriptions group) := by
  intro group source
  have undisturbed : ∀ event ∈ twoSubscribers group source, event.Undisturbed := by
    simp [twoSubscribers, Event.Undisturbed]
  obtain ⟨faultless, follows⟩ := interest_eq_aggregate_iff Config.quick 8 undisturbed
  obtain ⟨c, success⟩ := faultless (by decide)
  refine ⟨c, success, ?_, (follows c success group).1⟩
  have interest : (run Config.quick 8 (twoSubscribers group source)).toOption.map
      (fun c => c.listener.interest group) = some (.including (.ofList [source])) := by decide
  simpa [success, Except.toOption] using interest

/-- A subscription to an address that is no source is made besides one to any source. When that
one ends, all sources are still received though no subscriber wants them. -/
theorem interest_ne_aggregate :
    let group := Address.ofOctets 239 1 1 1
    let source := Address.ofOctets 239 0 0 1
    (run Config.quick 8 (twoSubscribers group source)).toOption.map
        (fun c => (c.listener.interest group, c.subscriptions.aggregate group)) =
      some (.allSources, .including (.ofList [source])) := by
  decide

end Channels

end MulticastTunnel
