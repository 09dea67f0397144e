import MulticastTunnel.Proofs.Interest.Filter
import MulticastTunnel.Subscription.Table

/-!
# What the subscribers want

The filter that the subscriptions of a group ask for depends on what they want of it: all sources,
or some of them.

* `Subscriptions.Wants` : some subscription wants a source of a group, or any source of it.
* `Subscriptions.aggregate_of_any`, `Subscriptions.aggregate_of_not_any` : the filter in these
  terms.
* `Subscriptions.aggregate_add` : one more subscription adds its filter.
* `Subscriptions.wants_remove_of_ne` : the end of a subscription concerns its own group only.
-/

namespace MulticastTunnel

namespace Subscriptions

variable {s s' : Subscriptions} {group : Address} {source : Option Address}

/-- Some subscription wants a source of the group, or any source of it. -/
def Wants (s : Subscriptions) (group : Address) (source : Option Address) : Prop :=
  ∃ subscription ∈ s.active,
    subscription.channel.group = group ∧ subscription.channel.source = source

instance (s : Subscriptions) (group : Address) (source : Option Address) :
    Decidable (s.Wants group source) :=
  inferInstanceAs (Decidable (∃ subscription ∈ s.active, _))

theorem Wants.mono (h : s.Wants group source) (sub : ∀ t ∈ s.active, t ∈ s'.active) :
    s'.Wants group source := by
  obtain ⟨t, ht, wants⟩ := h
  exact ⟨t, sub t ht, wants⟩

/-! ### The filter of a group -/

theorem aggregate_of_any (h : s.Wants group none) : s.aggregate group = .allSources := by
  obtain ⟨t, ht, hgroup, hsource⟩ := h
  refine if_pos (List.any_eq_true.2 ⟨t.channel, ?_, by simp [hsource]⟩)
  exact List.mem_filter.2 ⟨List.mem_map.2 ⟨t, ht, rfl⟩, by simp [hgroup]⟩

theorem aggregate_of_not_any (h : ¬ s.Wants group none) :
    ∃ sources, s.aggregate group = .including sources ∧
      ∀ a, a ∈ sources ↔ s.Wants group (some a) := by
  refine ⟨_, if_neg fun any => ?_, fun a => ?_⟩
  · obtain ⟨channel, hchannel, hsource⟩ := List.any_eq_true.1 any
    obtain ⟨hmem, hgroup⟩ := List.mem_filter.1 hchannel
    obtain ⟨t, ht, rfl⟩ := List.mem_map.1 hmem
    exact h ⟨t, ht, by simpa using hgroup, by simpa using hsource⟩
  · simp only [AddressSet.mem_ofList, List.mem_filterMap, List.mem_filter, List.mem_map,
      beq_iff_eq, Wants]
    constructor
    · rintro ⟨channel, ⟨⟨t, ht, rfl⟩, hgroup⟩, hsource⟩
      exact ⟨t, ht, hgroup, hsource⟩
    · rintro ⟨t, ht, hgroup, hsource⟩
      exact ⟨t.channel, ⟨⟨t, ht, rfl⟩, hgroup⟩, hsource⟩

theorem aggregate_congr (h : ∀ source, s.Wants group source ↔ s'.Wants group source) :
    s.aggregate group = s'.aggregate group := by
  by_cases any : s.Wants group none
  · rw [aggregate_of_any any, aggregate_of_any ((h none).1 any)]
  · obtain ⟨sources, filter, members⟩ := aggregate_of_not_any any
    obtain ⟨sources', filter', members'⟩ := aggregate_of_not_any (any ∘ (h none).2)
    have same : sources = sources' := AddressSet.eq_of_mem_iff fun a => by rw [members, members', h]
    rw [filter, filter', same]

/-! ### Subscriptions come and go -/

theorem wants_add {channel : Channel} {queue : Queue Datagram} :
    (s.add channel queue).Wants group source ↔
      s.Wants group source ∨ (channel.group = group ∧ channel.source = source) := by
  simp only [Wants, add, List.mem_append, List.mem_singleton]
  constructor
  · rintro ⟨t, ht | rfl, wants⟩
    · exact .inl ⟨t, ht, wants⟩
    · exact .inr wants
  · rintro (⟨t, ht, wants⟩ | wants)
    · exact ⟨t, .inl ht, wants⟩
    · exact ⟨_, .inr rfl, wants⟩

theorem aggregate_add (s : Subscriptions) (channel : Channel) (queue : Queue Datagram) :
    (s.add channel queue).aggregate channel.group =
      (s.aggregate channel.group).union channel.filter := by
  by_cases any : s.Wants channel.group none
  · rw [aggregate_of_any any, aggregate_of_any (wants_add.2 (.inl any)),
      SourceFilter.allSources_union]
  · obtain ⟨sources, filter, members⟩ := aggregate_of_not_any any
    cases hsource : channel.source with
    | none =>
      rw [aggregate_of_any (wants_add.2 (.inr ⟨rfl, hsource⟩)), Channel.filter, hsource,
        SourceFilter.union_allSources]
    | some a =>
      have any' : ¬ (s.add channel queue).Wants channel.group none := by
        simp [wants_add, any, hsource]
      obtain ⟨sources', filter', members'⟩ := aggregate_of_not_any any'
      rw [filter, filter', Channel.filter, hsource]
      refine SourceFilter.eq_of_accepts rfl fun b => ?_
      simp [SourceFilter.union, SourceFilter.including, SourceFilter.accepts, members, members',
        wants_add, hsource, eq_comm]

theorem mem_active_remove {id : Nat} {t : Subscription} :
    t ∈ (s.remove id).active ↔ t ∈ s.active ∧ t.id ≠ id := by
  simp [remove, modifyQueue]

theorem wants_remove_of_ne {t : Subscription} (only : ∀ u ∈ s.active, u.id = t.id → u = t)
    (h : group ≠ t.channel.group) : (s.remove t.id).Wants group source ↔ s.Wants group source := by
  refine ⟨fun wants => wants.mono fun u hu => (mem_active_remove.1 hu).1, ?_⟩
  rintro ⟨u, hu, rfl, hsource⟩
  exact ⟨u, mem_active_remove.2 ⟨hu, fun same => h (by rw [only u hu same])⟩, rfl, hsource⟩

/-! ### Queues -/

@[simp] theorem active_offer (s : Subscriptions) (id : Nat) (d : Datagram) :
    (s.offer id d).2.active = s.active := by
  unfold offer
  split <;> rfl

@[simp] theorem length_queues_offer (s : Subscriptions) (id : Nat) (d : Datagram) :
    (s.offer id d).2.queues.length = s.queues.length := by
  unfold offer
  split <;> simp

@[simp] theorem capacity_offer (s : Subscriptions) (id : Nat) (d : Datagram) :
    (s.offer id d).2.capacity = s.capacity := by
  unfold offer
  split <;> rfl

@[simp] theorem capacity_offerAll (s : Subscriptions) (d : Datagram)
    (offered : List Subscription) : (s.offerAll d offered).2.2.capacity = s.capacity := by
  induction offered generalizing s with
  | nil => rfl
  | cons first rest ih =>
    have kept := ih (s.offer first.id d).2
    rw [capacity_offer] at kept
    simp only [offerAll]
    split <;> exact kept

/-- A datagram changes queues only, and the receivers that have gone are among those it was offered
to. -/
theorem offerAll_spec (s : Subscriptions) (d : Datagram) (offered : List Subscription) :
    (s.offerAll d offered).2.2.active = s.active ∧
      (s.offerAll d offered).2.2.queues.length = s.queues.length ∧
      ∀ t ∈ (s.offerAll d offered).2.1, t ∈ offered := by
  induction offered generalizing s with
  | nil => simp [offerAll]
  | cons first rest ih =>
    obtain ⟨active, queues, gone⟩ := ih (s.offer first.id d).2
    simp only [offerAll]
    rw [active_offer] at active
    rw [length_queues_offer] at queues
    split
    · exact ⟨active, queues, fun t ht => List.mem_cons_of_mem _ (gone t ht)⟩
    · exact ⟨active, queues, fun t ht => List.mem_cons_of_mem _ (gone t ht)⟩
    · refine ⟨active, queues, fun t ht => ?_⟩
      rcases List.mem_cons.1 ht with rfl | ht
      · simp
      · exact List.mem_cons_of_mem _ (gone t ht)

end Subscriptions

end MulticastTunnel
