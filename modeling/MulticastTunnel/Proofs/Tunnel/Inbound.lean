import MulticastTunnel.Proofs.Tunnel.Steps

/-!
# What a tunnel makes of a datagram

A datagram that comes in is no message, or its message is dealt with next, maybe after other work.
Multicast data goes to the sink if its sender is the relay of an active session at that moment.

* `Tunnel.yield?`, `Tunnel.rejects`, `Tunnel.verdict?` : what a tunnel makes of a datagram.
* `Tunnel.awaits_append_arrival` : what one part of the work leaves to be dealt with.
* `Tunnel.perform_handed`, `Tunnel.perform_sink`, `Tunnel.perform_counters` : **what comes of one
  part**, and `Tunnel.receive_counters` : of a datagram that is dealt with without interruption.
-/

namespace MulticastTunnel

/-! ### Counters -/

namespace Counters

/-- How often something was counted. -/
def of (c : Counters) : Event → Nat
  | .delivered => c.delivered
  | .dropped => c.dropped
  | .malformed => c.malformed
  | .report => c.reports
  | .restart => c.restarts

/-- What is counted of datagrams that come in. -/
def Event.IsInbound (e : Event) : Prop := e = .delivered ∨ e = .dropped ∨ e = .malformed

theorem of_count (c : Counters) (e e' : Event) :
    (c.count e).of e' = c.of e' + if e = e' then 1 else 0 := by
  cases e <;> cases e' <;> rfl

theorem of_count_of_ne {c : Counters} {e e' : Event} (other : e ≠ e') :
    (c.count e).of e' = c.of e' := by
  rw [of_count, if_neg other]
  rfl

end Counters

/-- The datagram that was handed to the sink, and whether the sink took it. -/
def Effect.handed? : Effect → Option (Datagram × Bool)
  | .handed d taken => some (d, taken)
  | .sent _ _ => none

namespace Tunnel

variable {t : Tunnel} {now : Instant} {net : Transmit}

/-! ### What a tunnel makes of a datagram -/

/-- A datagram that came in: its sender, and the message in it, if it is one. -/
abbrev Inbound := Endpoint × Outcome Message

/-- The sender is the relay of an active session. -/
def Serves (t : Tunnel) (sender : Endpoint) : Prop :=
  t.session.phase = .active ∧ t.session.relay = some sender

instance (sender : Endpoint) : Decidable (t.Serves sender) :=
  inferInstanceAs (Decidable (_ ∧ _))

/-- What a datagram has to give to the sink, and whether the sink takes it. -/
def yield? (t : Tunnel) : Inbound → Option (Datagram × Bool)
  | (sender, .ok (.data packet)) =>
    if t.Serves sender then
      (Datagram.decapsulate packet t.config.verifyChecksums).toOption.map fun d =>
        (d, (t.sink.offer d).1 = .taken)
    else none
  | _ => none

/-- Whether a datagram is rejected: it is no message, or the query in it is none, or the packet of
multicast data that the sink could have. -/
def rejects (t : Tunnel) : Inbound → Bool
  | (_, .error _) => true
  | (_, .ok (.query _ _ _ packet _)) => !(Query.decode packet).isOk
  | (sender, .ok (.data packet)) =>
    t.Serves sender && !(Datagram.decapsulate packet t.config.verifyChecksums).isOk
  | _ => false

/-- What is counted because of a datagram, if anything is. -/
def verdict? (t : Tunnel) (m : Inbound) : Option Counters.Event :=
  match t.yield? m with
  | some (_, taken) => some (if taken then .delivered else .dropped)
  | none => if t.rejects m then some .malformed else none

theorem verdict?_delivered {m : Inbound} :
    t.verdict? m = some .delivered ↔ (t.yield? m).any (·.2) := by
  unfold verdict?
  cases t.yield? m with
  | none => cases t.rejects m <;> simp
  | some d => cases taken : d.2 <;> simp [taken]

theorem verdict?_dropped {m : Inbound} :
    t.verdict? m = some .dropped ↔ (t.yield? m).any (!·.2) := by
  unfold verdict?
  cases t.yield? m with
  | none => cases t.rejects m <;> simp
  | some d => cases taken : d.2 <;> simp [taken]

theorem not_rejects_of_yield? {m : Inbound} {d : Datagram × Bool} (yields : t.yield? m = some d) :
    t.rejects m = false := by
  match m, yields with
  | (sender, .ok (.data packet)), yields =>
    by_cases serves : t.Serves sender
    · simp only [yield?, serves, ↓reduceIte] at yields
      cases opened : Datagram.decapsulate packet t.config.verifyChecksums with
      | error e => simp [opened, Except.toOption] at yields
      | ok d => simp [rejects, opened, Except.isOk, Except.toBool]
    · simp [rejects, serves]

theorem verdict?_malformed {m : Inbound} : t.verdict? m = some .malformed ↔ t.rejects m := by
  unfold verdict?
  cases yields : t.yield? m with
  | none => cases t.rejects m <;> simp
  | some d =>
    have kept := not_rejects_of_yield? yields
    cases taken : d.2 <;> simp [taken, kept]

/-- Everything that was handed to the sink. -/
def handed (t : Tunnel) : List (Datagram × Bool) := t.effects.filterMap Effect.handed?

/-! ### Parts -/

namespace Part

/-- The datagram that comes in. -/
def arrival? : Part → Option Inbound
  | .receive sender bytes => some (sender, Message.decode bytes)
  | _ => none

/-- The message that is to be dealt with. -/
def awaits? : Part → Option Inbound
  | .heed sender message => some (sender, .ok message)
  | _ => none

/-- The datagram that is dealt with: at once if it is no message. -/
def dealt? : Part → Option Inbound
  | .receive sender bytes =>
    match Message.decode bytes with
    | .error e => some (sender, .error e)
    | .ok _ => none
  | .heed sender message => some (sender, .ok message)
  | _ => none

end Part

theorem awaits?_perform {part : Part} (other : part.arrival? = none) :
    (t.perform now net part).2.filterMap Part.awaits? = [] := by
  refine List.filterMap_eq_nil_iff.2 fun next pending => ?_
  cases perform_follows pending with
  | heed => cases other
  | carryOut said =>
    cases step : (t.session.onTimer now t.random.nonce).1 <;> simp only [step, Part.ofStep] at said
    · rcases List.mem_pair.1 said with rfl | rfl <;> rfl
    · rcases List.mem_pair.1 said with rfl | rfl <;> rfl
    · exact List.mem_singleton.1 said ▸ rfl
  | _ => rfl

/-- A datagram that comes in is dealt with, or is to be dealt with; and a message that was to be
dealt with is. -/
theorem awaits_append_arrival (t : Tunnel) (now : Instant) (net : Transmit) (part : Part) :
    part.awaits?.toList ++ part.arrival?.toList =
      part.dealt?.toList ++ (t.perform now net part).2.filterMap Part.awaits? := by
  cases arrival : part.arrival? with
  | none =>
    rw [awaits?_perform arrival]
    cases part <;> first | rfl | cases arrival
  | some m =>
    cases part with
    | receive sender bytes =>
      obtain rfl := Option.some.inj arrival
      simp only [perform, Part.dealt?]
      cases Message.decode bytes <;> rfl
    | _ => cases arrival

/-- Nothing has been handed to the sink, and nothing was counted of datagrams that come in. -/
structure Unmoved (t t' : Tunnel) : Prop where
  handed : t'.handed = t.handed
  sink : t'.sink = t.sink
  counters : ∀ e : Counters.Event, e.IsInbound → t'.counters.of e = t.counters.of e

theorem Unmoved.refl (t : Tunnel) : t.Unmoved t := ⟨rfl, rfl, fun _ _ => rfl⟩

theorem Unmoved.of_eq {t' : Tunnel} (effects : t'.effects = t.effects) (sink : t'.sink = t.sink)
    (counters : t'.counters = t.counters) : t.Unmoved t' :=
  ⟨congrArg (List.filterMap Effect.handed?) effects, sink, fun _ _ => by rw [counters]⟩

theorem Unmoved.of_sent {recipient : Endpoint} {message : Message} :
    t.Unmoved { t with effects := t.effects ++ [.sent recipient message] } where
  handed := by
    rw [Tunnel.handed, List.filterMap_append]
    exact List.append_nil _
  sink := rfl
  counters _ _ := rfl

theorem Unmoved.of_count {t' : Tunnel} (event : Counters.Event)
    (effects : t'.effects = t.effects) (sink : t'.sink = t.sink)
    (counters : t'.counters = t.counters.count event) (other : ¬ event.IsInbound) :
    t.Unmoved t' where
  handed := congrArg (List.filterMap Effect.handed?) effects
  sink := sink
  counters e inbound := by
    rw [counters]
    refine Counters.of_count_of_ne ?_
    rintro rfl
    exact other inbound

theorem unmoved_consulted (t : Tunnel) (now : Instant) : t.Unmoved (t.consulted now) := by
  unfold consulted
  dsimp only
  split
  · exact .of_count .restart rfl rfl rfl (by simp [Counters.Event.IsInbound])
  · exact .of_eq rfl rfl rfl

/-- A part that deals with no datagram does not concern those that come in. -/
theorem perform_unmoved (now : Instant) (net : Transmit) {part : Part}
    (other : part.dealt? = none) : t.Unmoved (t.perform now net part).1 := by
  cases part with
  | wake run =>
    simp only [perform]
    split
    · split <;> exact .of_eq rfl rfl rfl
    · exact .refl t
  | consult run => exact unmoved_consulted t now
  | transmit message recipient =>
    simp only [perform]
    split
    · exact .refl t
    · exact .of_sent
  | tell message recipient =>
    simp only [perform]
    split
    · exact .refl t
    · exact .of_sent
  | receive sender bytes =>
    simp only [Part.dealt?, perform] at other ⊢
    generalize Message.decode bytes = decoded at other ⊢
    cases decoded with
    | error e => simp at other
    | ok message => exact .of_eq rfl rfl rfl
  | heed sender message => simp [Part.dealt?] at other
  | submit update relay =>
    simp only [perform]
    split
    · exact .of_eq rfl rfl rfl
    · exact .of_sent
  | reported => exact .of_count .report rfl rfl rfl (by simp [Counters.Event.IsInbound])
  | settle error? =>
    obtain ⟨final, settled, -⟩ := t.settle_eq (error?.elim .closed .failed)
    rw [perform, settled]
    exact .of_eq rfl rfl rfl
  | _ => exact .of_eq rfl rfl rfl

/-- The tunnel has dealt with a datagram. -/
structure Deals (t : Tunnel) (m : Inbound) (t' : Tunnel) : Prop where
  handed : t'.handed = t.handed ++ (t.yield? m).toList
  sink : t'.sink = (t.yield? m).elim t.sink fun d => (t.sink.offer d.1).2
  counters : t'.counters = (t.verdict? m).elim t.counters t.counters.count

theorem onData_deals (t : Tunnel) (sender : Endpoint) (packet : Bytes) :
    t.Deals (sender, .ok (.data packet)) (t.onData sender packet) := by
  by_cases serves : t.Serves sender
  · have expected : t.session.phase = .active ∧ t.session.relay = some sender := serves
    cases opened : Datagram.decapsulate packet t.config.verifyChecksums with
    | error e =>
      constructor <;> simp [onData, expected, opened, yield?, verdict?, rejects, serves,
        Except.toOption, Except.isOk, Except.toBool, count, handed]
    | ok d =>
      by_cases taken : (t.sink.offer d).1 = .taken <;>
        constructor <;> simp [onData, expected, opened, yield?, verdict?, serves, Except.toOption,
          taken, count, handed, Effect.handed?]
  · have unexpected : ¬ (t.session.phase = .active ∧ t.session.relay = some sender) := serves
    constructor <;> simp [onData, unexpected, yield?, verdict?, rejects, serves]

theorem perform_deals (now : Instant) (net : Transmit) {part : Part} {m : Inbound}
    (dealt : part.dealt? = some m) : t.Deals m (t.perform now net part).1 := by
  cases part with
  | receive sender bytes =>
    simp only [Part.dealt?, perform] at dealt ⊢
    generalize Message.decode bytes = decoded at dealt ⊢
    cases decoded with
    | error e =>
      obtain rfl := Option.some.inj dealt
      exact ⟨(List.append_nil _).symm, rfl, rfl⟩
    | ok message => cases dealt
  | heed sender message =>
    obtain rfl := Option.some.inj dealt
    cases message with
    | query limited mac nonce packet gateway =>
      cases read : Query.decode packet with
      | error e =>
        constructor <;> simp [perform, yield?, verdict?, rejects, read, Except.isOk, Except.toBool,
          count, handed]
      | ok q =>
        constructor <;> simp [perform, yield?, verdict?, rejects, read, Except.isOk, Except.toBool,
          handed]
    | data packet => exact onData_deals t sender packet
    | _ => exact ⟨(List.append_nil _).symm, rfl, rfl⟩
  | _ => cases dealt

/-- **What a part hands to the sink** is what the datagram that it deals with yields. -/
theorem perform_handed (t : Tunnel) (now : Instant) (net : Transmit) (part : Part) :
    (t.perform now net part).1.handed = t.handed ++ (part.dealt?.bind t.yield?).toList := by
  cases dealt : part.dealt? with
  | none => exact (perform_unmoved now net dealt).handed.trans (List.append_nil _).symm
  | some m => exact (perform_deals now net dealt).handed

theorem perform_sink (t : Tunnel) (now : Instant) (net : Transmit) (part : Part) :
    (t.perform now net part).1.sink =
      (part.dealt?.bind t.yield?).elim t.sink fun d => (t.sink.offer d.1).2 := by
  cases dealt : part.dealt? with
  | none => exact (perform_unmoved now net dealt).sink
  | some m => exact (perform_deals now net dealt).sink

/-- **What a part counts** of datagrams is the verdict on the one that it deals with. -/
theorem perform_counters (t : Tunnel) (now : Instant) (net : Transmit) (part : Part)
    {e : Counters.Event} (inbound : e.IsInbound) : (t.perform now net part).1.counters.of e =
      t.counters.of e + if part.dealt?.bind t.verdict? = some e then 1 else 0 := by
  cases dealt : part.dealt? with
  | none => exact (perform_unmoved now net dealt).counters e inbound
  | some m =>
    rw [(perform_deals now net dealt).counters]
    cases verdict : t.verdict? m with
    | none => simp [verdict]
    | some e' => simp [verdict, Counters.of_count]

/-- **A datagram changes at most one counter, by one**, if nothing interrupts the work. -/
theorem receive_counters (t : Tunnel) (running : t.status = .running) (now : Instant)
    (sender : Endpoint) (bytes : Bytes) : (t.receive now sender bytes).counters =
      (t.verdict? (sender, Message.decode bytes)).elim t.counters t.counters.count := by
  rw [receive, if_pos running, accept]
  cases decoded : Message.decode bytes with
  | error e => rfl
  | ok message =>
    cases message with
    | advertisement nonce relay =>
      simp only [onMessage, onAdvertisement, yield?, verdict?, rejects]
      split <;> split <;> rfl
    | query limited mac nonce packet gateway =>
      cases read : Query.decode packet with
      | error e => simp [onMessage, onQuery, read, yield?, verdict?, rejects, Except.isOk,
          Except.toBool, count]
      | ok q =>
        simp only [onMessage, onQuery, read, yield?, verdict?, rejects]
        split <;> rfl
    | data packet =>
      exact (onData_deals { t with session := t.session.onIoSuccess } sender packet).counters
    | _ => rfl

end Tunnel

end MulticastTunnel
