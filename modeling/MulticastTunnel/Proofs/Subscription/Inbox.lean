import Mathlib.Data.List.Nodup
import MulticastTunnel.Proofs.Subscription.Alignment

/-!
# One subscription among others

What comes of a subscription depends on what it is told only: the datagrams that are dispatched,
and what is done with its own number. So the subscriptions as a whole are so many inboxes that do
not know of each other.

* `Inbox`, `Inbox.hear` : a subscription by itself.
* `Subscriptions.inbox?` : a subscription of many, as an inbox.
* `Channels.inbox?_react` : **an event does to a subscription what its inbox hears of it**.
* `Channels.dispatch_fst` : a dispatch returns how many inboxes take the datagram.
-/

namespace MulticastTunnel

/-! ### Inboxes -/

/-- A subscription: its channel, until it ends, and its queue. -/
structure Inbox where
  channel : Option Channel
  queue : Queue Datagram
  deriving DecidableEq

namespace Inbox

/-- What a subscription is told. -/
inductive Notice where
  | dispatch (datagram : Datagram)
  | receive
  | abandon
  | unsubscribe
  deriving DecidableEq

variable {b : Inbox} {d : Datagram}

/-- The subscription has not ended, and the datagram belongs to its channel. -/
def wants (b : Inbox) (d : Datagram) : Bool := b.channel.any fun channel => channel.matches? d

/-- The subscription ends. -/
def ended (b : Inbox) : Inbox := ⟨none, b.queue.finish⟩

/-- The queue is offered a datagram. -/
def offered (b : Inbox) (d : Datagram) : Inbox := { b with queue := (b.queue.offer d).2 }

/-- Whether the queue takes a datagram that is dispatched. -/
def takes (b : Inbox) (d : Datagram) : Bool := b.wants d && (b.queue.offer d).1 == .taken

/-- What a subscription does when it is told something. A receiver that has gone is noticed when a
datagram comes in. -/
def hear (b : Inbox) : Notice → Inbox
  | .dispatch d => if b.wants d then if b.queue.abandoned then b.ended else b.offered d else b
  | .receive => { b with queue := b.queue.receive.2 }
  | .abandon => { b with queue := b.queue.abandon }
  | .unsubscribe => if b.channel.isSome then b.ended else b

@[simp] theorem ended_ended : b.ended.ended = b.ended := rfl

theorem offer_fst_eq_abandoned : (b.queue.offer d).1 = .abandoned ↔ b.queue.abandoned = true := by
  unfold Queue.offer
  split
  · next gone => simp [gone]
  · next here =>
    split <;> simp [here]

theorem offered_of_abandoned (gone : b.queue.abandoned = true) : b.offered d = b := by
  simp [offered, Queue.offer, gone]

end Inbox

namespace Subscriptions

variable {s : Subscriptions} {id i : Nat} {d : Datagram}

/-! ### Numbers -/

/-- The subscriptions have ascending numbers, which have been given to them. -/
structure Numbered (s : Subscriptions) : Prop where
  below : ∀ t ∈ s.active, t.id < s.nextId
  ascending : s.active.Pairwise fun t u => t.id < u.id

theorem numbered_empty (capacity : Nat) : (Subscriptions.empty capacity).Numbered where
  below _ ht := absurd ht List.not_mem_nil
  ascending := List.Pairwise.nil

theorem Numbered.of_active {s' : Subscriptions} (h : s.Numbered)
    (active : s'.active.Sublist s.active) (nextId : s'.nextId = s.nextId) : s'.Numbered where
  below t ht := nextId ▸ h.below t (active.subset ht)
  ascending := h.ascending.sublist active

theorem Numbered.add (h : s.Numbered) (channel : Channel) (queue : Queue Datagram) :
    (s.add channel queue).Numbered where
  below t ht := by
    have next : (s.add channel queue).nextId = s.nextId + 1 := by simp [nextId, Subscriptions.add]
    rcases List.mem_append.1 ht with ht | ht
    · exact next ▸ Nat.lt_succ_of_lt (h.below t ht)
    · obtain rfl := List.mem_singleton.1 ht
      exact next ▸ Nat.lt_succ_self _
  ascending := by
    refine List.pairwise_append.2 ⟨h.ascending, List.pairwise_singleton _ _, fun t ht u hu => ?_⟩
    obtain rfl := List.mem_singleton.1 hu
    exact h.below t ht

theorem Numbered.nodup (h : s.Numbered) : (s.active.map Subscription.id).Nodup :=
  List.pairwise_map.2 (h.ascending.imp Nat.ne_of_lt)

theorem Numbered.find?_eq_some_iff (h : s.Numbered) {t : Subscription} :
    s.find? id = some t ↔ t ∈ s.active ∧ t.id = id := by
  constructor
  · intro found
    exact ⟨List.mem_of_find?_eq_some found, by simpa using List.find?_some found⟩
  · rintro ⟨ht, rfl⟩
    have some : (s.find? t.id).isSome := List.find?_isSome.2 ⟨t, ht, by simp⟩
    obtain ⟨u, found⟩ := Option.isSome_iff_exists.1 some
    have hu := List.mem_of_find?_eq_some found
    have same : u.id = t.id := by simpa using List.find?_some found
    rw [found, List.inj_on_of_nodup_map h.nodup hu ht same]

/-! ### The inboxes -/

/-- The subscription with a number, as an inbox. -/
def inbox? (s : Subscriptions) (id : Nat) : Option Inbox :=
  (s.queues[id]?).map fun queue => ⟨(s.find? id).map Subscription.channel, queue⟩

theorem inbox?_modifyQueue (s : Subscriptions) (id : Nat) (f : Queue Datagram → Queue Datagram) :
    (s.modifyQueue id f).inbox? i =
      (s.inbox? i).map fun b => if id = i then { b with queue := f b.queue } else b := by
  by_cases same : id = i
  · simp [inbox?, modifyQueue, find?, same, Function.comp_def]
  · simp [inbox?, modifyQueue, find?, same, Function.comp_def]

theorem inbox?_remove (s : Subscriptions) (id : Nat) :
    (s.remove id).inbox? i = (s.inbox? i).map fun b => if id = i then b.ended else b := by
  rw [remove, inbox?_modifyQueue]
  by_cases same : id = i
  · subst same
    have gone : (s.active.filter fun t => t.id != id).find? (fun t => t.id == id) = none := by
      simp
    simp [inbox?, find?, gone, Inbox.ended, Function.comp_def]
  · have kept : (s.active.filter fun t => t.id != id).find? (fun t => t.id == i) =
        s.active.find? fun t => t.id == i := by
      rw [List.find?_filter]
      congr 1
      funext t
      by_cases here : t.id = i <;> simp [here, Ne.symm same]
    simp [inbox?, find?, kept, same]

theorem Numbered.inbox?_add (h : s.Numbered) (channel : Channel) (queue : Queue Datagram) :
    (s.add channel queue).inbox? i =
      if i = s.nextId then some ⟨some channel, queue⟩ else s.inbox? i := by
  by_cases new : i = s.nextId
  · subst new
    have unused : s.find? s.nextId = none := by
      refine List.find?_eq_none.2 fun t ht => ?_
      simpa using Nat.ne_of_lt (h.below t ht)
    simp only [find?, nextId] at unused
    simp [inbox?, Subscriptions.add, find?, List.find?_append, unused, nextId]
  · have older : ((s.queues ++ [queue])[i]?) = s.queues[i]? := by
      rw [List.getElem?_append]
      split
      · rfl
      · next beyond =>
        have further : s.queues.length < i :=
          Nat.lt_of_le_of_ne (Nat.le_of_not_lt beyond) (Ne.symm new)
        rw [List.getElem?_eq_none (by simp; omega), List.getElem?_eq_none (by omega)]
    simp [inbox?, Subscriptions.add, find?, List.find?_append, older, new, Ne.symm new]

theorem inbox?_offer (s : Subscriptions) (id : Nat) (d : Datagram) :
    (s.offer id d).2.inbox? i = (s.inbox? i).map fun b => if id = i then b.offered d else b := by
  unfold offer
  split
  · next q found =>
    by_cases same : id = i
    · subst same
      obtain ⟨inside, rfl⟩ := List.getElem?_eq_some_iff.1 found
      simp [inbox?, find?, inside, Inbox.offered]
    · simp [inbox?, find?, same, Function.comp_def]
  · next none =>
    by_cases same : id = i
    · subst same
      simp [inbox?, none]
    · simp [same]

theorem offer_fst (s : Subscriptions) (id : Nat) (d : Datagram) :
    (s.offer id d).1 = (s.inbox? id).elim .abandoned fun b => (b.queue.offer d).1 := by
  unfold offer
  split
  · next q found => simp [inbox?, found]
  · next none => simp [inbox?, none]

/-! ### A datagram for several subscriptions -/

/-- The subscriptions have numbers of their own. -/
abbrev Distinct (offered : List Subscription) : Prop := offered.Pairwise fun t u => t.id ≠ u.id

theorem offer_fst_offer {id i : Nat} (other : id ≠ i) :
    ((s.offer id d).2.offer i d).1 = (s.offer i d).1 := by
  rw [offer_fst, offer_fst, inbox?_offer]
  cases s.inbox? i <;> simp [other]

theorem offerAll_eq (s : Subscriptions) (d : Datagram) {offered : List Subscription}
    (distinct : Distinct offered) :
    (s.offerAll d offered).1 = offered.countP (fun t => (s.offer t.id d).1 == .taken) ∧
    (s.offerAll d offered).2.1 = offered.filter (fun t => (s.offer t.id d).1 == .abandoned) ∧
    ∀ i, (s.offerAll d offered).2.2.inbox? i =
      (s.inbox? i).map fun b => if ∃ t ∈ offered, t.id = i then b.offered d else b := by
  induction offered generalizing s with
  | nil => simp [offerAll]
  | cons first rest ih =>
    obtain ⟨others, distinct⟩ := List.pairwise_cons.1 distinct
    obtain ⟨count, gone, queues⟩ := ih (s.offer first.id d).2 distinct
    have unmoved : ∀ t ∈ rest, ((s.offer first.id d).2.offer t.id d).1 = (s.offer t.id d).1 :=
      fun t ht => offer_fst_offer (others t ht)
    have count' : rest.countP (fun t => ((s.offer first.id d).2.offer t.id d).1 == .taken) =
        rest.countP fun t => (s.offer t.id d).1 == .taken :=
      List.countP_congr fun t ht => by rw [unmoved t ht]
    have gone' : rest.filter (fun t => ((s.offer first.id d).2.offer t.id d).1 == .abandoned) =
        rest.filter fun t => (s.offer t.id d).1 == .abandoned :=
      List.filter_congr fun t ht => by rw [unmoved t ht]
    have queues' (i : Nat) : ((s.offer first.id d).2.offerAll d rest).2.2.inbox? i =
        (s.inbox? i).map fun b => if ∃ t ∈ first :: rest, t.id = i then b.offered d else b := by
      rw [queues, inbox?_offer, Option.map_map]
      congr 1
      funext b
      by_cases here : first.id = i
      · have nowhere : ¬ ∃ t ∈ rest, t.id = i := by
          rintro ⟨t, ht, rfl⟩
          exact others t ht here
        simp [here, nowhere]
      · simp [here]
    rw [count'] at count
    rw [gone'] at gone
    simp only [offerAll]
    cases result : (s.offer first.id d).1 <;>
      exact ⟨by simp [count, result], by simp [gone, result], queues'⟩

theorem inbox?_eq_none_iff : s.inbox? id = none ↔ s.nextId ≤ id := by
  simp [inbox?, nextId]

/-- The subscriptions that a datagram is offered to. -/
def matching (s : Subscriptions) (d : Datagram) : List Subscription :=
  s.active.filter fun t => t.channel.matches? d

theorem Numbered.distinct_matching (h : s.Numbered) (d : Datagram) : Distinct (s.matching d) :=
  (h.ascending.imp Nat.ne_of_lt).sublist List.filter_sublist

theorem Numbered.wants_iff (h : s.Numbered) {b : Inbox} (known : s.inbox? i = some b) :
    (∃ t ∈ s.matching d, t.id = i) ↔ b.wants d = true := by
  obtain ⟨queue, -, rfl⟩ := Option.map_eq_some_iff.1 known
  simp only [matching, List.mem_filter, Inbox.wants, Option.any_eq_true, Option.map_eq_some_iff,
    h.find?_eq_some_iff]
  constructor
  · rintro ⟨t, ⟨ht, wants⟩, rfl⟩
    exact ⟨t.channel, ⟨t, ⟨ht, rfl⟩, rfl⟩, wants⟩
  · rintro ⟨channel, ⟨t, ⟨ht, rfl⟩, rfl⟩, wants⟩
    exact ⟨t, ⟨ht, wants⟩, rfl⟩

theorem Numbered.countP_active (h : s.Numbered) (p : Subscription → Bool) :
    s.active.countP p = (List.range s.nextId).countP fun id => (s.find? id).any p := by
  have same : ((s.active.filter p).map Subscription.id).Perm
      ((List.range s.nextId).filter fun id => (s.find? id).any p) := by
    refine (List.perm_ext_iff_of_nodup ?_ (List.nodup_range.filter _)).2 fun id => ?_
    · exact h.nodup.sublist (List.filter_sublist.map _)
    · simp only [List.mem_map, List.mem_filter, List.mem_range, Option.any_eq_true,
        h.find?_eq_some_iff]
      constructor
      · rintro ⟨t, ⟨ht, hp⟩, rfl⟩
        exact ⟨h.below t ht, t, ⟨ht, rfl⟩, hp⟩
      · rintro ⟨-, t, ⟨ht, rfl⟩, hp⟩
        exact ⟨t, ⟨ht, hp⟩, rfl⟩
  simpa [List.countP_eq_length_filter] using same.length_eq

end Subscriptions

namespace Channels

variable {c c' : Channels} {event : Event} {id i : Nat} {now : Instant} {d : Datagram}

/-- What an event tells the subscription with a number. -/
def Event.notice? (id : Nat) : Event → Option Inbox.Notice
  | .dispatch _ d => some (.dispatch d)
  | .receive i => if i = id then some .receive else none
  | .abandon i => if i = id then some .abandon else none
  | .unsubscribe _ i => if i = id then some .unsubscribe else none
  | .subscribe _ _ => none
  | .listener _ => none

/-- The inbox of the subscription with a number. -/
def inbox? (c : Channels) (id : Nat) : Option Inbox := c.subscriptions.inbox? id

/-! ### Events and inboxes -/

theorem inbox?_prune (now : Instant) (gone : List Subscription) :
    (c.prune now gone).inbox? i =
      (c.inbox? i).map fun b => if ∃ t ∈ gone, t.id = i then b.ended else b := by
  induction gone generalizing c with
  | nil => simp [prune]
  | cons first rest ih =>
    refine ih.trans ?_
    rw [inbox?, subscriptions_follow, Subscriptions.inbox?_remove, Option.map_map, inbox?]
    congr 1
    funext b
    by_cases here : first.id = i
    · by_cases again : ∃ t ∈ rest, t.id = i <;> simp [here, again]
    · simp [here]

theorem numbered_prune (h : c.subscriptions.Numbered) (now : Instant) (gone : List Subscription) :
    (c.prune now gone).subscriptions.Numbered ∧
      (c.prune now gone).subscriptions.nextId = c.subscriptions.nextId := by
  induction gone generalizing c with
  | nil => exact ⟨h, rfl⟩
  | cons first rest ih =>
    have next : (c.subscriptions.remove first.id).nextId = c.subscriptions.nextId := by
      simp [Subscriptions.nextId, Subscriptions.remove, Subscriptions.modifyQueue]
    have fewer : (c.subscriptions.remove first.id).Numbered :=
      h.of_active List.filter_sublist next
    obtain ⟨numbered, same⟩ := ih
      (c := ({ c with subscriptions := c.subscriptions.remove first.id }.follow now
        first.channel.group).2) (by rwa [subscriptions_follow])
    exact ⟨numbered, same.trans (by rw [subscriptions_follow, next])⟩

/-- A dispatch offers the datagram, and ends the subscriptions whose receivers have gone. -/
theorem dispatch_snd (now : Instant) (d : Datagram) : (c.dispatch now d).2 =
    ({ c with subscriptions := (c.subscriptions.offerAll d (c.subscriptions.matching d)).2.2 } :
      Channels).prune now (c.subscriptions.offerAll d (c.subscriptions.matching d)).2.1 := rfl

section Dispatch

variable (h : c.subscriptions.Numbered)

include h

/-- **A datagram that is dispatched** is heard by every inbox. -/
theorem inbox?_dispatch (now : Instant) (d : Datagram) :
    (c.dispatch now d).2.inbox? i = (c.inbox? i).map fun b => b.hear (.dispatch d) := by
  obtain ⟨-, gone, queues⟩ := c.subscriptions.offerAll_eq d (h.distinct_matching d)
  rw [dispatch_snd, inbox?_prune, gone, inbox?, queues i, Option.map_map, inbox?]
  cases known : c.subscriptions.inbox? i with
  | none => rfl
  | some b =>
    have offered := h.wants_iff (d := d) known
    have noticed : (∃ t ∈ (c.subscriptions.matching d).filter
        (fun t => (c.subscriptions.offer t.id d).1 == .abandoned), t.id = i) ↔
        b.wants d = true ∧ b.queue.abandoned = true := by
      have abandoned : (c.subscriptions.offer i d).1 = .abandoned ↔ b.queue.abandoned = true := by
        rw [Subscriptions.offer_fst, known]
        exact Inbox.offer_fst_eq_abandoned
      rw [← offered, ← abandoned]
      constructor
      · rintro ⟨t, ht, rfl⟩
        obtain ⟨ht, result⟩ := List.mem_filter.1 ht
        exact ⟨⟨t, ht, rfl⟩, by simpa using result⟩
      · rintro ⟨⟨t, ht, rfl⟩, result⟩
        exact ⟨t, List.mem_filter.2 ⟨ht, by simpa using result⟩, rfl⟩
    simp only [Option.map_some, Function.comp_apply, noticed, offered, Inbox.hear]
    by_cases wants : b.wants d = true
    · by_cases left : b.queue.abandoned = true
      · simp [wants, left, Inbox.offered_of_abandoned left]
      · simp [wants, left]
    · simp [wants]

/-- **A dispatch returns** how many inboxes take the datagram. -/
theorem dispatch_fst (now : Instant) (d : Datagram) : (c.dispatch now d).1 =
    (List.range c.subscriptions.nextId).countP fun id => (c.inbox? id).any (·.takes d) := by
  obtain ⟨count, -, -⟩ := c.subscriptions.offerAll_eq d (h.distinct_matching d)
  have returned : (c.dispatch now d).1 = c.subscriptions.active.countP fun t =>
      (c.subscriptions.offer t.id d).1 == .taken && t.channel.matches? d := by
    rw [← List.countP_filter]
    exact count
  rw [returned, h.countP_active]
  refine List.countP_congr fun id hid => ?_
  have below : ¬ c.subscriptions.nextId ≤ id := Nat.not_le.2 (List.mem_range.1 hid)
  obtain ⟨b, known⟩ := Option.ne_none_iff_exists'.1 (mt Subscriptions.inbox?_eq_none_iff.1 below)
  obtain ⟨queue, found, rfl⟩ := Option.map_eq_some_iff.1 known
  rw [inbox?, known]
  cases active : c.subscriptions.find? id with
  | none => simp [Inbox.takes, Inbox.wants]
  | some t =>
    obtain ⟨-, rfl⟩ := h.find?_eq_some_iff.1 active
    have result : (c.subscriptions.offer t.id d).1 = (queue.offer d).1 := by
      rw [Subscriptions.offer_fst, known]
      rfl
    simp [Inbox.takes, Inbox.wants, result, and_comm]

end Dispatch

theorem subscribe_eq_ok {channel : Channel} (made : c.subscribe now channel = .ok (id, c')) :
    id = c.subscriptions.nextId ∧ 0 < c.subscriptions.capacity ∧
      c'.subscriptions = c.subscriptions.add channel (.empty c.subscriptions.capacity) := by
  unfold subscribe at made
  split at made
  · cases made
  · dsimp only at made
    split at made
    · cases made
    · cases made
    · next queue _ room =>
      obtain ⟨rfl, rfl⟩ := Prod.mk.inj (Except.ok.inj made)
      unfold Queue.empty? at room
      split at room
      · cases room
      · next positive =>
        obtain rfl := Except.ok.inj room
        exact ⟨rfl, Nat.pos_of_ne_zero positive, rfl⟩

/-- The channels after a request to subscribe: nothing has changed, or a subscription was made. -/
theorem react_subscribe {channel : Channel} (success : c.react (.subscribe now channel) = .ok c') :
    c' = c ∨ ∃ id, c.subscribe now channel = .ok (id, c') := by
  simp only [react] at success
  cases outcome : c.subscribe now channel with
  | ok made =>
    rw [outcome] at success
    obtain rfl := Except.ok.inj success
    exact .inr ⟨made.1, rfl⟩
  | error failure =>
    rw [outcome] at success
    cases failure with
    | refused error => exact .inl (Except.ok.inj success).symm
    | fault cause => cases success

theorem numbered_react (h : c.subscriptions.Numbered) (success : c.react event = .ok c') :
    c'.subscriptions.Numbered ∧ c.subscriptions.nextId ≤ c'.subscriptions.nextId := by
  cases event with
  | subscribe now channel =>
    rcases react_subscribe success with rfl | ⟨id, made⟩
    · exact ⟨h, Nat.le_refl _⟩
    · obtain ⟨-, -, added⟩ := subscribe_eq_ok made
      rw [added]
      exact ⟨h.add _ _, by simp [Subscriptions.nextId, Subscriptions.add]⟩
  | unsubscribe now id =>
    obtain rfl := Except.ok.inj success
    unfold unsubscribe
    split
    · exact ⟨h, Nat.le_refl _⟩
    · rw [subscriptions_follow]
      have next : (c.subscriptions.remove id).nextId = c.subscriptions.nextId := by
        simp [Subscriptions.nextId, Subscriptions.remove, Subscriptions.modifyQueue]
      exact ⟨h.of_active List.filter_sublist next, Nat.le_of_eq next.symm⟩
  | dispatch now d =>
    obtain rfl := Except.ok.inj success
    obtain ⟨active, queues, -⟩ :=
      c.subscriptions.offerAll_spec d (c.subscriptions.matching d)
    have offered : (c.subscriptions.offerAll d (c.subscriptions.matching d)).2.2.Numbered :=
      h.of_active (active ▸ List.Sublist.refl _) queues
    obtain ⟨numbered, same⟩ := numbered_prune (c := { c with subscriptions := _ }) offered now
      (c.subscriptions.offerAll d (c.subscriptions.matching d)).2.1
    exact ⟨numbered, Nat.le_of_eq (same.trans queues).symm⟩
  | receive id =>
    obtain rfl := Except.ok.inj success
    have next : (c.subscriptions.receive id).2.nextId = c.subscriptions.nextId := by
      simp [Subscriptions.nextId, Subscriptions.receive, Subscriptions.modifyQueue]
    exact ⟨h.of_active (List.Sublist.refl _) next, Nat.le_of_eq next.symm⟩
  | abandon id =>
    obtain rfl := Except.ok.inj success
    have next : (c.subscriptions.abandon id).nextId = c.subscriptions.nextId := by
      simp [Subscriptions.nextId, Subscriptions.abandon, Subscriptions.modifyQueue]
    exact ⟨h.of_active (List.Sublist.refl _) next, Nat.le_of_eq next.symm⟩
  | listener event =>
    obtain rfl := Except.ok.inj success
    exact ⟨h, Nat.le_refl _⟩

theorem capacity_react (success : c.react event = .ok c') :
    c'.subscriptions.capacity = c.subscriptions.capacity := by
  cases event with
  | subscribe now channel =>
    rcases react_subscribe success with rfl | ⟨id, made⟩
    · rfl
    · rw [(subscribe_eq_ok made).2.2]
      rfl
  | unsubscribe now id =>
    obtain rfl := Except.ok.inj success
    exact capacity_unsubscribe now id
  | dispatch now d =>
    obtain rfl := Except.ok.inj success
    exact (capacity_prune now _).trans (c.subscriptions.capacity_offerAll d _)
  | _ =>
    obtain rfl := Except.ok.inj success
    rfl

/-- **An event does to a subscription what its inbox hears of it**, whatever there is besides. -/
theorem inbox?_react (h : c.subscriptions.Numbered) (success : c.react event = .ok c') {b : Inbox}
    (known : c.inbox? id = some b) :
    c'.inbox? id = some ((event.notice? id).elim b b.hear) := by
  cases event with
  | subscribe now channel =>
    rcases react_subscribe success with rfl | ⟨new, made⟩
    · exact known
    · obtain ⟨-, -, added⟩ := subscribe_eq_ok made
      -- the inbox is known, so its number is not the one given next
      have older : id ≠ c.subscriptions.nextId := by
        rintro rfl
        rw [inbox?, Subscriptions.inbox?_eq_none_iff.2 (Nat.le_refl _)] at known
        cases known
      rw [inbox?, added, h.inbox?_add, if_neg older]
      exact known
  | unsubscribe now i =>
    obtain rfl := Except.ok.inj success
    have same : (c.unsubscribe now i).2.inbox? id =
        if c.subscriptions.find? i = none then c.inbox? id
        else (c.subscriptions.remove i).inbox? id := by
      unfold unsubscribe
      split
      · next none => rw [if_pos none]
      · next t found => rw [inbox?, subscriptions_follow, if_neg (by simp [found])]
    rw [same]
    obtain ⟨queue, found, rfl⟩ := Option.map_eq_some_iff.1 known
    by_cases here : i = id
    · subst here
      -- a subscription that has ended can be cancelled again, which changes nothing
      cases active : c.subscriptions.find? i with
      | none => simp [Event.notice?, Inbox.hear, known, active]
      | some t =>
        rw [if_neg (by simp), Subscriptions.inbox?_remove]
        simp [inbox?] at known
        simp [Event.notice?, Inbox.hear, known, active]
    · split
      · simp [Event.notice?, here, known]
      · rw [Subscriptions.inbox?_remove]
        simp only [inbox?] at known
        simp [Event.notice?, here, known]
  | dispatch now d =>
    obtain rfl := Except.ok.inj success
    rw [inbox?_dispatch h, known]
    rfl
  | receive i =>
    obtain rfl := Except.ok.inj success
    simp only [inbox?] at known
    rw [inbox?, Subscriptions.receive, Subscriptions.inbox?_modifyQueue, known]
    by_cases here : i = id <;> simp [Event.notice?, here, Inbox.hear]
  | abandon i =>
    obtain rfl := Except.ok.inj success
    simp only [inbox?] at known
    rw [inbox?, Subscriptions.abandon, Subscriptions.inbox?_modifyQueue, known]
    by_cases here : i = id <;> simp [Event.notice?, here, Inbox.hear]
  | listener event =>
    obtain rfl := Except.ok.inj success
    exact known

end Channels

end MulticastTunnel
