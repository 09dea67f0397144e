import MulticastTunnel.Proofs.Subscription.Inbox

/-!
# What subscribers obtain

The queue of a subscription takes what belongs to its channel while there is room, until the
subscription is cancelled or its receiver goes. What it took is obtained in the same order, or
still waiting, unless the receiver has gone.

* `Inbox.balance`, `Inbox.taken_eq_due` : this, for an inbox by itself.
* `Inbox.isSome_channel_iff` : when a subscription has ended.
* `Channels.Working.inbox?_afterAll` : a run, as an inbox hears of it.
* `Channels.subscribers_obtain` : **what every subscriber obtains** in a run, and what becomes of
  its subscription.
-/

namespace MulticastTunnel

/-- The element that a receiver finds. -/
def Received.element? {α : Type} : Received α → Option α
  | element a => some a
  | _ => none

namespace Inbox

variable {b : Inbox} {channel : Channel}

/-! ### Histories -/

/-- After some notices. -/
def hearAll (b : Inbox) (notices : List Notice) : Inbox := notices.foldl hear b

/-- What the receiver finds when it looks for a datagram. -/
def found? (b : Inbox) : Notice → Option Datagram
  | .receive => b.queue.receive.1.element?
  | _ => none

/-- What the queue takes when a datagram is dispatched. -/
def taken? (b : Inbox) : Notice → Option Datagram
  | .dispatch d => if b.takes d then some d else none
  | _ => none

/-- What belongs to a channel and comes in while there is room. -/
def due? (b : Inbox) (channel : Channel) : Notice → Option Datagram
  | .dispatch d =>
    if channel.matches? d ∧ b.queue.waiting.length < b.queue.capacity then some d else none
  | _ => none

/-- Whether the subscription is cancelled, or its receiver goes. -/
def Notice.leaves : Notice → Bool
  | .abandon => true
  | .unsubscribe => true
  | _ => false

/-- What the receiver obtains. -/
def obtained (b : Inbox) : List Notice → List Datagram
  | [] => []
  | notice :: notices => (b.found? notice).toList ++ (b.hear notice).obtained notices

/-- What the queue takes. -/
def taken (b : Inbox) : List Notice → List Datagram
  | [] => []
  | notice :: notices => (b.taken? notice).toList ++ (b.hear notice).taken notices

/-- What is due to a subscriber of a channel. -/
def due (b : Inbox) (channel : Channel) : List Notice → List Datagram
  | [] => []
  | notice :: notices =>
    if notice.leaves then []
    else (b.due? channel notice).toList ++ (b.hear notice).due channel notices

/-! ### Nothing more is taken -/

/-- The subscription has ended, or its receiver has gone. -/
def Left (b : Inbox) : Prop := b.channel = none ∨ b.queue.abandoned = true

theorem Left.hear (h : b.Left) (notice : Notice) : (b.hear notice).Left := by
  cases notice with
  | dispatch d =>
    simp only [Inbox.hear]
    split
    · next wants =>
      split
      · exact .inl rfl
      · next here =>
        rcases h with ended | gone
        · simp [Inbox.wants, ended] at wants
        · exact absurd gone here
    · exact h
  | receive =>
    refine h.imp_right fun gone => ?_
    simp [Inbox.hear, Queue.receive, gone]
  | abandon => exact .inr rfl
  | unsubscribe =>
    simp only [Inbox.hear]
    split
    · exact .inl rfl
    · exact h

theorem Left.taken?_eq_none (h : b.Left) (notice : Notice) : b.taken? notice = none := by
  cases notice with
  | dispatch d =>
    have refuses : b.takes d = false := by
      rcases h with ended | gone
      · simp [takes, wants, ended]
      · simp [takes, Queue.offer, gone]
    simp [taken?, refuses]
  | _ => rfl

theorem Left.taken_eq_nil (h : b.Left) (notices : List Notice) : b.taken notices = [] := by
  induction notices generalizing b with
  | nil => rfl
  | cons notice notices ih => rw [taken, h.taken?_eq_none, ih (h.hear notice)]; rfl

/-! ### What was taken is obtained -/

theorem waiting_hear_dispatch (b : Inbox) (d : Datagram) :
    (b.hear (.dispatch d)).queue.waiting =
      if b.takes d then b.queue.waiting ++ [d] else b.queue.waiting := by
  simp only [hear, takes]
  by_cases wants : b.wants d = true
  · by_cases gone : b.queue.abandoned = true
    · simp [wants, gone, ended, Queue.finish, Queue.offer]
    · by_cases room : b.queue.waiting.length < b.queue.capacity <;>
        simp [wants, gone, offered, Queue.offer, room]
  · simp [wants]

/-- What is found or waiting after a notice was waiting before or has been taken. -/
theorem found_append_waiting {notice : Notice} (stays : notice ≠ .abandon) :
    (b.found? notice).toList ++ (b.hear notice).queue.waiting =
      b.queue.waiting ++ (b.taken? notice).toList := by
  cases notice with
  | dispatch d =>
    rw [waiting_hear_dispatch]
    cases takes : b.takes d <;> simp [found?, taken?, takes]
  | receive =>
    simp only [found?, taken?, hear, Queue.receive]
    by_cases gone : b.queue.abandoned = true
    · simp [gone, Received.element?]
    · cases waiting : b.queue.waiting with
      | nil => cases ended : b.queue.ended <;> simp [gone, waiting, Received.element?]
      | cons d rest => simp [gone, Received.element?]
  | abandon => exact absurd rfl stays
  | unsubscribe =>
    simp only [found?, taken?, hear]
    split <;> simp [ended, Queue.finish]

/-- **What is obtained, waiting or lost is what was waiting or taken**, in the same order. It is
lost only if the receiver goes. -/
theorem balance (b : Inbox) (notices : List Notice) : ∃ lost,
    b.obtained notices ++ (b.hearAll notices).queue.waiting ++ lost =
      b.queue.waiting ++ b.taken notices ∧ (.abandon ∉ notices → lost = []) := by
  induction notices generalizing b with
  | nil => exact ⟨[], by simp [obtained, taken, hearAll], fun _ => rfl⟩
  | cons notice notices ih =>
    obtain ⟨lost, balanced, kept⟩ := ih (b.hear notice)
    have later : b.hearAll (notice :: notices) = (b.hear notice).hearAll notices := rfl
    by_cases stays : notice = .abandon
    · -- nothing is waiting any more, and nothing will be taken
      subst stays
      have nothing : (b.hear .abandon).queue.waiting ++ (b.hear .abandon).taken notices = [] := by
        rw [Left.taken_eq_nil (.inr rfl)]
        rfl
      rw [nothing, List.append_eq_nil_iff, List.append_eq_nil_iff] at balanced
      obtain ⟨⟨obtained, waiting⟩, -⟩ := balanced
      refine ⟨b.queue.waiting, ?_, fun none => absurd List.mem_cons_self none⟩
      rw [Inbox.obtained, Inbox.taken, later, obtained, waiting, Left.taken_eq_nil (.inr rfl)]
      simp [found?, taken?]
    · refine ⟨lost, ?_, fun none => kept fun mem => none (List.mem_cons_of_mem _ mem)⟩
      calc b.obtained (notice :: notices) ++ (b.hearAll (notice :: notices)).queue.waiting ++ lost
          = (b.found? notice).toList ++ ((b.hear notice).obtained notices ++
              ((b.hear notice).hearAll notices).queue.waiting ++ lost) := by
            simp [obtained, later]
        _ = (b.found? notice).toList ++ (b.hear notice).queue.waiting ++
              (b.hear notice).taken notices := by rw [balanced, List.append_assoc]
        _ = b.queue.waiting ++ b.taken (notice :: notices) := by
            rw [found_append_waiting stays, List.append_assoc, taken]

/-! ### What is due is taken -/

@[simp] theorem capacity_hear (b : Inbox) (notice : Notice) :
    (b.hear notice).queue.capacity = b.queue.capacity := by
  cases notice with
  | dispatch d =>
    simp only [hear, offered, Queue.offer]
    split_ifs <;> rfl
  | receive =>
    simp only [hear, Queue.receive]
    split
    · rfl
    · split <;> rfl
  | abandon => rfl
  | unsubscribe =>
    simp only [hear]
    split <;> rfl

/-- The subscription is there, and so is its receiver. -/
structure Live (b : Inbox) (channel : Channel) : Prop where
  channel : b.channel = some channel
  here : b.queue.abandoned = false

theorem Live.hear (h : b.Live channel) {notice : Notice} (stays : notice.leaves = false) :
    (b.hear notice).Live channel := by
  cases notice with
  | dispatch d =>
    simp only [Inbox.hear]
    split
    · rw [if_neg (by simp [h.here])]
      refine ⟨h.channel, ?_⟩
      by_cases room : b.queue.waiting.length < b.queue.capacity <;>
        simp [offered, Queue.offer, h.here, room]
    · exact h
  | receive =>
    refine ⟨h.channel, ?_⟩
    simp only [Inbox.hear, Queue.receive, h.here]
    cases b.queue.waiting <;> simp [h.here]
  | abandon => cases stays
  | unsubscribe => cases stays

theorem Live.taken?_eq_due? (h : b.Live channel) (notice : Notice) :
    b.taken? notice = b.due? channel notice := by
  cases notice with
  | dispatch d =>
    by_cases room : b.queue.waiting.length < b.queue.capacity <;>
      simp [taken?, due?, takes, wants, h.channel, Queue.offer, h.here, room]
  | _ => rfl

/-- **What is due is taken**, and nothing else. -/
theorem Live.taken_eq_due (h : b.Live channel) (notices : List Notice) :
    b.taken notices = b.due channel notices := by
  induction notices generalizing b with
  | nil => rfl
  | cons notice notices ih =>
    rw [taken, due, h.taken?_eq_due?]
    cases leaves : notice.leaves with
    | false =>
      rw [ih (h.hear leaves)]
      rfl
    | true =>
      have left : (b.hear notice).Left := by
        cases notice with
        | dispatch d => cases leaves
        | receive => cases leaves
        | abandon => exact .inr rfl
        | unsubscribe => exact .inl (by simp [Inbox.hear, h.channel, ended])
      have none : b.due? channel notice = Option.none := by
        cases notice with
        | dispatch d => cases leaves
        | _ => rfl
      rw [left.taken_eq_nil, none]
      rfl

/-! ### When a subscription ends -/

theorem hearAll_of_ended (ended : b.channel = none) (notices : List Notice) :
    (b.hearAll notices).channel = none := by
  induction notices generalizing b with
  | nil => exact ended
  | cons notice notices ih =>
    refine ih ?_
    cases notice <;> simp [hear, wants, ended]

/-- If the receiver has gone, the subscription ends when it is cancelled, or a datagram of its
channel comes in. -/
theorem isSome_channel_of_gone (active : b.channel = some channel)
    (gone : b.queue.abandoned = true) (notices : List Notice) :
    (b.hearAll notices).channel.isSome ↔
      .unsubscribe ∉ notices ∧ ∀ d, .dispatch d ∈ notices → channel.matches? d = false := by
  induction notices generalizing b with
  | nil => simp [hearAll, active]
  | cons notice notices ih =>
    have later : b.hearAll (notice :: notices) = (b.hear notice).hearAll notices := rfl
    rw [later]
    cases notice with
    | dispatch d =>
      cases belongs : channel.matches? d with
      | true =>
        have ends : (b.hear (.dispatch d)).channel = none := by
          simp [hear, wants, active, belongs, gone, ended]
        rw [hearAll_of_ended ends]
        simp [belongs]
      | false =>
        have same : b.hear (.dispatch d) = b := by simp [hear, wants, active, belongs]
        rw [same, ih active gone]
        simp [belongs]
    | receive =>
      rw [ih (b := b.hear .receive) active (by simp [hear, Queue.receive, gone])]
      simp
    | abandon =>
      rw [ih (b := b.hear .abandon) active rfl]
      simp
    | unsubscribe =>
      have ends : (b.hear .unsubscribe).channel = none := by simp [hear, active, ended]
      rw [hearAll_of_ended ends]
      simp

/-- **A subscription is there** unless it was cancelled, or a datagram of its channel came in after
its receiver had gone. -/
theorem Live.isSome_channel_iff (h : b.Live channel) (notices : List Notice) :
    (b.hearAll notices).channel.isSome ↔
      .unsubscribe ∉ notices ∧ ∀ d, .dispatch d ∈ notices.dropWhile (· ≠ .abandon) →
        channel.matches? d = false := by
  induction notices generalizing b with
  | nil => simp [hearAll, h.channel]
  | cons notice notices ih =>
    have later : b.hearAll (notice :: notices) = (b.hear notice).hearAll notices := rfl
    rw [later]
    cases notice with
    | dispatch d =>
      rw [ih (h.hear rfl)]
      simp
    | receive =>
      rw [ih (h.hear rfl)]
      simp
    | abandon =>
      rw [isSome_channel_of_gone (b := b.hear .abandon) h.channel rfl]
      simp
    | unsubscribe =>
      have ends : (b.hear .unsubscribe).channel = none := by simp [Inbox.hear, h.channel, ended]
      rw [hearAll_of_ended ends]
      simp

end Inbox

namespace Channels

variable {c c' : Channels} {id : Nat} {event : Event} {b : Inbox} {channel : Channel}

/-! ### Runs -/

/-- The channels after an event. If that faults, nothing has changed. -/
def after (c : Channels) (event : Event) : Channels := (c.react event).toOption.getD c

/-- The channels after some events. -/
def afterAll (c : Channels) (events : List Event) : Channels := events.foldl after c

/-- What waits for the receiver of a subscription. -/
def waiting (c : Channels) (id : Nat) : List Datagram :=
  (c.subscriptions.queues[id]?).elim [] Queue.waiting

/-- What the receiver of a subscription finds when an event lets it look for a datagram. -/
def found? (c : Channels) (id : Nat) : Event → Option Datagram
  | .receive i => if i = id then (c.subscriptions.receive id).1.bind Received.element? else none
  | _ => none

/-- What is dispatched to a channel while fewer datagrams than `capacity` wait for the receiver of a
subscription. -/
def due? (c : Channels) (capacity id : Nat) (channel : Channel) : Event → Option Datagram
  | .dispatch _ d =>
    if channel.matches? d ∧ (c.waiting id).length < capacity then some d else none
  | _ => none

/-- Whether a subscription is cancelled, or its receiver goes. -/
def Event.leaves (id : Nat) : Event → Bool
  | .unsubscribe _ i => i == id
  | .abandon i => i == id
  | _ => false

/-- What the receiver of a subscription obtains in a run. -/
def obtained (id : Nat) : Channels → List Event → List Datagram
  | _, [] => []
  | c, event :: events => (c.found? id event).toList ++ obtained id (c.after event) events

/-- What is due to a subscription to a channel in a run, until it is cancelled or its receiver
goes. -/
def due (capacity id : Nat) (channel : Channel) : Channels → List Event → List Datagram
  | _, [] => []
  | c, event :: events =>
    if event.leaves id then []
    else (c.due? capacity id channel event).toList ++
      due capacity id channel (c.after event) events

/-- Numbers are in order, and queues have room. -/
structure Working (c : Channels) : Prop where
  numbered : c.subscriptions.Numbered
  room : 0 < c.subscriptions.capacity

theorem Working.react_eq (h : c.Working) (event : Event) : c.react event = .ok (c.after event) := by
  obtain ⟨c', success, -⟩ := react_ok h.room event
  simp [after, success, Except.toOption]

theorem Working.after (h : c.Working) (event : Event) : (c.after event).Working where
  numbered := (numbered_react h.numbered (h.react_eq event)).1
  room := capacity_react (h.react_eq event) ▸ h.room

theorem Working.foldlM_eq (h : c.Working) (events : List Event) :
    events.foldlM react c = .ok (c.afterAll events) := by
  induction events generalizing c with
  | nil => rfl
  | cons event events ih =>
    rw [List.foldlM_cons, h.react_eq]
    exact ih (h.after event)

theorem Working.nextId_le (h : c.Working) (events : List Event) :
    c.subscriptions.nextId ≤ (c.afterAll events).subscriptions.nextId := by
  induction events generalizing c with
  | nil => exact Nat.le_refl _
  | cons event events ih =>
    exact Nat.le_trans (numbered_react h.numbered (h.react_eq event)).2 (ih (h.after event))

/-! ### Runs and inboxes -/

/-- What some events tell a subscription. -/
def notices (id : Nat) (events : List Event) : List Inbox.Notice := events.filterMap (·.notice? id)

theorem Working.inbox?_after (h : c.Working) (known : c.inbox? id = some b) (event : Event) :
    (c.after event).inbox? id = some ((event.notice? id).elim b b.hear) :=
  inbox?_react h.numbered (h.react_eq event) known

theorem notices_cons (id : Nat) (event : Event) (events : List Event) :
    notices id (event :: events) = (event.notice? id).toList ++ notices id events := by
  cases told : event.notice? id <;> simp [notices, told]

theorem Working.inbox?_afterAll (h : c.Working) (known : c.inbox? id = some b)
    (events : List Event) :
    (c.afterAll events).inbox? id = some (b.hearAll (notices id events)) := by
  induction events generalizing c b with
  | nil => exact known
  | cons event events ih =>
    refine (ih (h.after event) (h.inbox?_after known event)).trans ?_
    rw [notices_cons]
    cases event.notice? id <;> rfl

theorem waiting_of_inbox? (known : c.inbox? id = some b) : c.waiting id = b.queue.waiting := by
  obtain ⟨queue, found, rfl⟩ := Option.map_eq_some_iff.1 known
  rw [waiting, found]
  rfl

theorem isSome_find?_of_inbox? (known : c.inbox? id = some b) :
    (c.subscriptions.find? id).isSome = b.channel.isSome := by
  obtain ⟨queue, -, rfl⟩ := Option.map_eq_some_iff.1 known
  simp

theorem found?_of_inbox? (known : c.inbox? id = some b) (event : Event) :
    c.found? id event = (event.notice? id).bind b.found? := by
  cases event with
  | receive i =>
    obtain ⟨queue, found, rfl⟩ := Option.map_eq_some_iff.1 known
    by_cases here : i = id <;>
      simp [found?, Event.notice?, here, Inbox.found?, Subscriptions.receive, found]
  | abandon i | unsubscribe _ i =>
    by_cases here : i = id <;> simp [found?, Event.notice?, here, Inbox.found?]
  | _ => rfl

theorem leaves_eq (event : Event) :
    event.leaves id = (event.notice? id).any Inbox.Notice.leaves := by
  cases event with
  | receive i | abandon i | unsubscribe _ i =>
    by_cases here : i = id <;> simp [Event.leaves, Event.notice?, here, Inbox.Notice.leaves]
  | _ => rfl

theorem due?_of_inbox? (known : c.inbox? id = some b) (event : Event) :
    c.due? b.queue.capacity id channel event = (event.notice? id).bind (b.due? channel) := by
  cases event with
  | dispatch now d =>
    simp only [due?, Event.notice?, Option.bind_some, Inbox.due?, waiting_of_inbox? known]
  | receive i | abandon i | unsubscribe _ i =>
    by_cases here : i = id <;> simp [due?, Event.notice?, here, Inbox.due?]
  | _ => rfl

/-- What a receiver obtains depends on what its inbox hears only. -/
theorem Working.obtained_eq (h : c.Working) (known : c.inbox? id = some b)
    (events : List Event) : obtained id c events = b.obtained (notices id events) := by
  induction events generalizing c b with
  | nil => rfl
  | cons event events ih =>
    rw [obtained, found?_of_inbox? known, ih (h.after event) (h.inbox?_after known event),
      notices_cons]
    cases event.notice? id <;> rfl

theorem Working.due_eq (h : c.Working) (known : c.inbox? id = some b) (events : List Event) :
    due b.queue.capacity id channel c events = b.due channel (notices id events) := by
  induction events generalizing c b with
  | nil => rfl
  | cons event events ih =>
    have capacity : ((event.notice? id).elim b b.hear).queue.capacity = b.queue.capacity := by
      cases event.notice? id <;> simp
    have later := ih (h.after event) (h.inbox?_after known event)
    rw [capacity] at later
    rw [due, due?_of_inbox? known, leaves_eq, later, notices_cons]
    cases event.notice? id <;> rfl

/-! ### What a subscription is told of -/

theorem mem_notices {notice : Inbox.Notice} {events : List Event} :
    notice ∈ notices id events ↔ ∃ event ∈ events, event.notice? id = some notice :=
  List.mem_filterMap

theorem notice?_eq_abandon_iff : event.notice? id = some .abandon ↔ event = .abandon id := by
  cases event <;> simp [Event.notice?]

theorem notice?_eq_unsubscribe_iff :
    event.notice? id = some .unsubscribe ↔ ∃ now, event = .unsubscribe now id := by
  cases event <;> simp [Event.notice?]

theorem notice?_eq_dispatch_iff {d : Datagram} :
    event.notice? id = some (.dispatch d) ↔ ∃ now, event = .dispatch now d := by
  cases event <;> simp [Event.notice?]

/-- What a subscription is told from the time on when its receiver goes. -/
theorem notices_dropWhile (id : Nat) (events : List Event) :
    notices id (events.dropWhile (· ≠ .abandon id)) =
      (notices id events).dropWhile (· ≠ .abandon) := by
  induction events with
  | nil => rfl
  | cons event events ih =>
    by_cases goes : event = .abandon id
    · subst goes
      simp [notices, Event.notice?]
    · have other : event.notice? id ≠ some .abandon := mt notice?_eq_abandon_iff.1 goes
      rw [notices_cons, List.dropWhile_cons_of_pos (by simpa using goes), ih]
      cases told : event.notice? id with
      | none => rfl
      | some notice =>
        have stays : notice ≠ .abandon := by
          rintro rfl
          exact other told
        simp [stays]

/-! ### What subscribers obtain -/

theorem numbered_run {config : Config} {capacity : Nat} {events : List Event}
    (reached : run config capacity events = .ok c) : c.subscriptions.Numbered :=
  run_invariant (P := fun c => c.subscriptions.Numbered) (Subscriptions.numbered_empty capacity)
    (fun _ _ _ _ numbered reacts => (numbered_react numbered reacts).1) reached

theorem dispatch_fst_eq_countP (h : c.subscriptions.Numbered) (now : Instant) (d : Datagram) :
    (c.dispatch now d).1 = (List.range c.subscriptions.nextId).countP fun id =>
      decide ((c.dispatch now d).2.waiting id = c.waiting id ++ [d]) := by
  rw [dispatch_fst h]
  refine List.countP_congr fun id hid => ?_
  have below : ¬ c.subscriptions.nextId ≤ id := Nat.not_le.2 (List.mem_range.1 hid)
  obtain ⟨b, known⟩ := Option.ne_none_iff_exists'.1 (mt Subscriptions.inbox?_eq_none_iff.1 below)
  have told : (c.dispatch now d).2.inbox? id = some (b.hear (.dispatch d)) := by
    rw [inbox?_dispatch h, inbox?, known]
    rfl
  rw [waiting_of_inbox? known, waiting_of_inbox? told, Inbox.waiting_hear_dispatch, inbox?, known]
  cases takes : b.takes d <;> simp [takes]

theorem capacity_run {config : Config} {capacity : Nat} {events : List Event}
    (reached : run config capacity events = .ok c) : c.subscriptions.capacity = capacity :=
  run_invariant (P := fun c => c.subscriptions.capacity = capacity) rfl
    (fun _ _ _ _ same reacts => (capacity_react reacts).trans same) reached

theorem working_of_made {config : Config} {capacity : Nat} {before : List Event} {now : Instant}
    (reached : run config capacity before = .ok c)
    (made : c.subscribe now channel = .ok (id, c')) :
    c'.Working ∧ c'.inbox? id = some ⟨some channel, .empty capacity⟩ ∧
      c'.subscriptions.nextId = id + 1 := by
  obtain ⟨rfl, room, added⟩ := subscribe_eq_ok made
  have numbered := numbered_run reached
  rw [capacity_run reached] at room added
  refine ⟨⟨?_, ?_⟩, ?_, ?_⟩
  · rw [added]
    exact numbered.add _ _
  · rw [added]
    exact Nat.lt_of_lt_of_eq room (capacity_run reached).symm
  · rw [inbox?, added, numbered.inbox?_add, if_pos rfl]
  · rw [added]
    simp [Subscriptions.nextId, Subscriptions.add]

/-- **What every subscriber obtains.** After any events, a dispatch returns how many receivers have
one more datagram waiting. And for every subscription that is then made, and whatever comes next:

* nothing faults;
* what the receiver obtains, and what is waiting for it, is what is due to it, in the same order:
  the datagrams that belong to its channel and are dispatched while there is room in its queue,
  until the subscription is cancelled or the receiver goes. Some are lost only if it goes;
* the subscription ends exactly if it is cancelled, or a datagram of its channel is dispatched after
  its receiver has gone;
* later subscriptions have greater numbers;
* what the receiver obtains depends on nothing but the capacity of queues, its channel, the
  datagrams that are dispatched and what becomes of itself. -/
theorem subscribers_obtain (config : Config) (capacity : Nat) {before : List Event}
    (reached : run config capacity before = .ok c) :
    (∀ now d, (c.dispatch now d).1 = (List.range c.subscriptions.nextId).countP fun id =>
      decide ((c.dispatch now d).2.waiting id = c.waiting id ++ [d])) ∧
    ∀ now channel id first, c.subscribe now channel = .ok (id, first) → ∀ events,
      run config capacity (before ++ .subscribe now channel :: events) =
        .ok (first.afterAll events) ∧
      (∃ lost, obtained id first events ++ (first.afterAll events).waiting id ++ lost =
          due capacity id channel first events ∧ (.abandon id ∉ events → lost = [])) ∧
      (((first.afterAll events).subscriptions.find? id).isSome ↔
        (∀ now, .unsubscribe now id ∉ events) ∧
        ∀ now d, .dispatch now d ∈ events.dropWhile (· ≠ .abandon id) →
          channel.matches? d = false) ∧
      (∀ now channel id' last, (first.afterAll events).subscribe now channel = .ok (id', last) →
        id < id') ∧
      ∀ config' before' c' now' id' first' events', run config' capacity before' = .ok c' →
        c'.subscribe now' channel = .ok (id', first') →
        notices id' events' = notices id events →
        obtained id' first' events' = obtained id first events := by
  refine ⟨dispatch_fst_eq_countP (numbered_run reached), fun now channel id first made events => ?_⟩
  obtain ⟨working, known, next⟩ := working_of_made reached made
  let b : Inbox := ⟨some channel, .empty capacity⟩
  have live : b.Live channel := ⟨rfl, rfl⟩
  have last := working.inbox?_afterAll known events
  refine ⟨?_, ?_, ?_, ?_, ?_⟩
  · have reacts : c.react (.subscribe now channel) = .ok first := by rw [react, made]
    unfold run at reached ⊢
    rw [List.foldlM_append, reached]
    show (List.foldlM Channels.react c (.subscribe now channel :: events)) = _
    rw [List.foldlM_cons, reacts]
    exact working.foldlM_eq events
  -- what is obtained, waits and is lost is what its inbox has taken
  · obtain ⟨lost, balanced, kept⟩ := b.balance (notices id events)
    refine ⟨lost, ?_, fun stays => kept fun told => ?_⟩
    · rw [working.obtained_eq known, waiting_of_inbox? last, balanced, live.taken_eq_due]
      exact (working.due_eq known events).symm
    · obtain ⟨event, mem, told⟩ := mem_notices.1 told
      exact stays (notice?_eq_abandon_iff.1 told ▸ mem)
  · rw [isSome_find?_of_inbox? last, live.isSome_channel_iff, ← notices_dropWhile]
    simp only [mem_notices, notice?_eq_unsubscribe_iff, notice?_eq_dispatch_iff]
    constructor
    · rintro ⟨kept, outside⟩
      exact ⟨fun now mem => kept ⟨_, mem, now, rfl⟩, fun now d mem => outside d ⟨_, mem, now, rfl⟩⟩
    · rintro ⟨kept, outside⟩
      refine ⟨?_, ?_⟩
      · rintro ⟨_, mem, now, rfl⟩
        exact kept now mem
      · rintro d ⟨_, mem, now, rfl⟩
        exact outside now d mem
  · intro now' channel' id' last' made'
    obtain ⟨rfl, -, -⟩ := subscribe_eq_ok made'
    have grown := working.nextId_le events
    omega
  · intro config' before' c' now' id' first' events' reached' made' same
    obtain ⟨working', known', -⟩ := working_of_made reached' made'
    rw [working'.obtained_eq known', working.obtained_eq known, same]

/-- A datagram of one byte to a group. -/
def sample (byte : UInt8) : Datagram :=
  ⟨.of (.ofOctets 192 0 2 1) 5004, .of (.ofOctets 239 1 1 1) 5004, [byte]⟩

/-- The receiver of one subscription has gone, and the queue of another one is full when the second
datagram comes in; the third one is received after the subscription was cancelled. -/
theorem subscribers_obtain_overrun :
    let channel : Channel := ⟨.ofOctets 239 1 1 1, none, none⟩
    let before : List Event := [.subscribe 0 channel, .abandon 0]
    let events : List Event := [.dispatch 0 (sample 1), .dispatch 0 (sample 2), .receive 1,
      .dispatch 0 (sample 3), .unsubscribe 0 1, .dispatch 0 (sample 4), .receive 1]
    ∃ c first, run Config.quick 1 before = .ok c ∧ c.subscribe 0 channel = .ok (1, first) ∧
      due 1 1 channel first events = [sample 1, sample 3] ∧
      obtained 1 first events = [sample 1, sample 3] := by
  intro channel before events
  let c := (run Config.quick 1 before).toOption.getD (start Config.quick 1)
  let first := c.after (.subscribe 0 channel)
  have reached : run Config.quick 1 before = .ok c := by rfl
  have made : c.subscribe 0 channel = .ok (1, first) := by rfl
  have wanted : due 1 1 channel first events = [sample 1, sample 3] := by decide
  have received : (first.afterAll events).waiting 1 = [] := by decide
  obtain ⟨-, ⟨lost, balanced, kept⟩, -⟩ :=
    (subscribers_obtain Config.quick 1 reached).2 0 channel 1 first made events
  rw [received, wanted, kept (by decide), List.append_nil, List.append_nil] at balanced
  exact ⟨c, first, reached, made, wanted, balanced⟩

end Channels

end MulticastTunnel
