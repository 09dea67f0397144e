import MulticastTunnel.Proofs.Tunnel.Inbound

/-!
# What becomes of the datagrams that come in

The socket's datagrams come in one by one. Between the arrival of one and its message being dealt
with, and at any other time, anything else may happen to the tunnel, and the consumer of the sink
may do what it likes.

* `BusyTunnel.arrived`, `BusyTunnel.dealt` : the datagrams of a run, as they come in, and as they
  are dealt with.
* `BusyTunnel.awaiting_append_arrived` : these are the same, in the same order.
* `BusyTunnel.traffic_accounted_for` : **what is handed to the sink, and what is counted**, in a
  whole run.
-/

namespace MulticastTunnel

/-! ### Runs -/

/-- What happens while datagrams come in: a turn of the tunnel, or the consumer of the sink does
something with it. -/
inductive Passage where
  | turn (next : Turn)
  | consume (sink : Queue Datagram)

namespace BusyTunnel

open Tunnel (Part Inbound)

variable {b : BusyTunnel} {passage : Passage} {passages : List Passage}

/-- The messages that are to be dealt with. -/
def awaiting (b : BusyTunnel) : List Inbound := b.pending.filterMap Part.awaits?

/-- After something has happened. -/
def pass (b : BusyTunnel) : Passage → BusyTunnel
  | .turn next => b.turn next
  | .consume sink => { b with tunnel := { b.tunnel with sink } }

/-- After some things have happened. -/
def passAll (b : BusyTunnel) (passages : List Passage) : BusyTunnel := passages.foldl pass b

/-- The part that is done. -/
def part? (b : BusyTunnel) : Passage → Option Part
  | .turn (.opening _ _ part) => if part.Opens then some part else none
  | .turn (.proceeding _ _ part) => if part ∈ b.pending then some part else none
  | .consume _ => none

/-- The datagram that comes in. -/
def arrival? (b : BusyTunnel) (passage : Passage) : Option Inbound :=
  (b.part? passage).bind Part.arrival?

/-- The datagram that is dealt with, and by which tunnel. -/
def dealt? (b : BusyTunnel) (passage : Passage) : Option (Tunnel × Inbound) :=
  ((b.part? passage).bind Part.dealt?).map fun m => (b.tunnel, m)

/-- The datagrams that come in. -/
def arrived : BusyTunnel → List Passage → List Inbound
  | _, [] => []
  | b, passage :: passages => (b.arrival? passage).toList ++ (b.pass passage).arrived passages

/-- The datagrams that are dealt with, and by which tunnels. -/
def dealt : BusyTunnel → List Passage → List (Tunnel × Inbound)
  | _, [] => []
  | b, passage :: passages => (b.dealt? passage).toList ++ (b.pass passage).dealt passages

/-- The receiver of the socket takes a datagram when it has dealt with the one before. -/
def OneByOne : BusyTunnel → List Passage → Prop
  | _, [] => True
  | b, passage :: passages =>
    ((b.arrival? passage).isSome → b.awaiting = []) ∧ (b.pass passage).OneByOne passages

instance decidableOneByOne : (b : BusyTunnel) → (passages : List Passage) →
    Decidable (b.OneByOne passages)
  | _, [] => isTrue trivial
  | b, passage :: passages =>
    have := decidableOneByOne (b.pass passage) passages
    inferInstanceAs (Decidable (((b.arrival? passage).isSome → b.awaiting = []) ∧ _))

/-- In a turn either no part is done and nothing changes, or the parts that follow a part take its
place. -/
theorem part?_cases (b : BusyTunnel) (next : Turn) :
    (b.part? (.turn next) = none ∧ b.turn next = b) ∨
    ∃ now net part others, b.part? (.turn next) = some part ∧
      b.turn next = work b.tunnel others now net part ∧
      b.awaiting.Perm (part.awaits?.toList ++ others.filterMap Part.awaits?) := by
  cases next with
  | opening now net part =>
    by_cases opens : part.Opens = true
    · -- what opens is no message that waits to be dealt with
      have fresh : part.awaits? = none := by
        cases part <;> first | rfl | cases opens
      refine .inr ⟨now, net, part, b.pending, if_pos opens, if_pos opens, ?_⟩
      rw [fresh]
      exact .refl _
    · exact .inl ⟨if_neg opens, if_neg opens⟩
  | proceeding now net part =>
    by_cases pending : part ∈ b.pending
    · refine .inr ⟨now, net, part, b.pending.erase part, if_pos pending, if_pos pending, ?_⟩
      refine ((List.perm_cons_erase pending).filterMap Part.awaits?).trans (.of_eq ?_)
      rw [List.filterMap_cons]
      cases part.awaits? <;> rfl
    · exact .inl ⟨if_neg pending, if_neg pending⟩

theorem pass_cases (b : BusyTunnel) (passage : Passage) :
    (b.part? passage = none ∧ ∃ sink, b.pass passage = ⟨{ b.tunnel with sink }, b.pending⟩) ∨
    ∃ now net part others, b.part? passage = some part ∧
      b.pass passage = work b.tunnel others now net part ∧
      b.awaiting.Perm (part.awaits?.toList ++ others.filterMap Part.awaits?) := by
  cases passage with
  | turn next => exact (b.part?_cases next).imp_left fun ⟨idle, same⟩ => ⟨idle, b.tunnel.sink, same⟩
  | consume sink => exact .inl ⟨rfl, sink, rfl⟩

/-! #### What happens once -/

theorem awaiting_eq_of_perm {messages : List Inbound} (single : b.awaiting.length ≤ 1)
    (perm : b.awaiting.Perm messages) : b.awaiting = messages := by
  generalize b.awaiting = awaiting at single perm
  match awaiting, single with
  | [], _ => exact (List.nil_perm.1 perm).symm
  | [m], _ => exact List.singleton_perm.1 perm

theorem awaiting_append_arrival (single : b.awaiting.length ≤ 1)
    (orderly : (b.arrival? passage).isSome → b.awaiting = []) :
    b.awaiting ++ (b.arrival? passage).toList =
      (b.dealt? passage).toList.map Prod.snd ++ (b.pass passage).awaiting := by
  rcases b.pass_cases passage with ⟨idle, sink, same⟩ | ⟨now, net, part, others, does, works, perm⟩
  · simp [arrival?, dealt?, awaiting, idle, same]
  · have before := awaiting_eq_of_perm single perm
    have after : (b.pass passage).awaiting =
        (b.tunnel.perform now net part).2.filterMap Part.awaits? ++
          others.filterMap Part.awaits? := by
      rw [works, awaiting, work, List.filterMap_append]
    have dealt : (b.dealt? passage).toList.map Prod.snd = part.dealt?.toList := by
      rw [dealt?, does, Option.bind_some]
      cases part.dealt? <;> rfl
    have arrival : b.arrival? passage = part.arrival? := by rw [arrival?, does, Option.bind_some]
    rw [arrival] at orderly
    rw [after, dealt, arrival, ← List.append_assoc,
      ← Tunnel.awaits_append_arrival b.tunnel now net part, before]
    cases coming : part.arrival? with
    | none => simp
    | some m =>
      -- nothing was to be dealt with
      have nothing := before.symm.trans (orderly (by simp [coming]))
      simp [List.append_eq_nil_iff.1 nothing]

theorem awaiting_length_pass (single : b.awaiting.length ≤ 1)
    (orderly : (b.arrival? passage).isSome → b.awaiting = []) :
    (b.pass passage).awaiting.length ≤ 1 := by
  have same := congrArg List.length (awaiting_append_arrival single orderly)
  rw [List.length_append, List.length_append] at same
  cases coming : b.arrival? passage with
  | none =>
    rw [coming] at same
    simp only [Option.toList_none, List.length_nil] at same
    omega
  | some m =>
    rw [orderly (by simp [coming]), coming] at same
    simp only [Option.toList_some, List.length_nil, List.length_singleton] at same
    omega

theorem handed_pass (b : BusyTunnel) (passage : Passage) : (b.pass passage).tunnel.handed =
    b.tunnel.handed ++ (b.dealt? passage).toList.filterMap fun m => m.1.yield? m.2 := by
  rcases b.pass_cases passage with ⟨idle, sink, same⟩ | ⟨now, net, part, others, does, works, -⟩
  · simp [dealt?, idle, same, Tunnel.handed]
  · rw [works, dealt?, does, Option.bind_some]
    refine (b.tunnel.perform_handed now net part).trans ?_
    cases part.dealt? with
    | none => rfl
    | some m => cases yields : b.tunnel.yield? m <;> simp [yields]

theorem counters_pass (b : BusyTunnel) (passage : Passage) {e : Counters.Event}
    (inbound : e.IsInbound) : (b.pass passage).tunnel.counters.of e = b.tunnel.counters.of e +
      (b.dealt? passage).toList.countP fun m => m.1.verdict? m.2 = some e := by
  rcases b.pass_cases passage with ⟨idle, sink, same⟩ | ⟨now, net, part, others, does, works, -⟩
  · simp [dealt?, idle, same]
  · rw [works, dealt?, does, Option.bind_some]
    refine (b.tunnel.perform_counters now net part inbound).trans ?_
    cases part.dealt? with
    | none => rfl
    | some m => simp [List.countP_cons]

theorem sink_turn (b : BusyTunnel) (next : Turn) : (b.turn next).tunnel.sink =
    ((b.dealt? (.turn next)).bind fun m => m.1.yield? m.2).elim b.tunnel.sink
      fun d => (b.tunnel.sink.offer d.1).2 := by
  rcases b.part?_cases next with ⟨idle, same⟩ | ⟨now, net, part, others, does, works, -⟩
  · simp [dealt?, idle, same]
  · rw [works, dealt?, does, Option.bind_some]
    refine (b.tunnel.perform_sink now net part).trans ?_
    cases part.dealt? <;> rfl

/-! #### Runs -/

/-- **Datagrams are dealt with in the order in which they come in, each once.** -/
theorem awaiting_append_arrived (single : b.awaiting.length ≤ 1) (orderly : b.OneByOne passages) :
    b.awaiting ++ b.arrived passages =
        (b.dealt passages).map Prod.snd ++ (b.passAll passages).awaiting ∧
      (b.passAll passages).awaiting.length ≤ 1 := by
  induction passages generalizing b with
  | nil => exact ⟨by simp [arrived, dealt, passAll], single⟩
  | cons passage passages ih =>
    obtain ⟨first, rest⟩ := orderly
    obtain ⟨same, short⟩ := ih (awaiting_length_pass single first) rest
    refine ⟨?_, short⟩
    simp only [arrived, dealt, List.map_append]
    rw [← List.append_assoc, awaiting_append_arrival single first, List.append_assoc, same,
      List.append_assoc]
    rfl

theorem handed_passAll (b : BusyTunnel) (passages : List Passage) :
    (b.passAll passages).tunnel.handed =
      b.tunnel.handed ++ (b.dealt passages).filterMap fun m => m.1.yield? m.2 := by
  induction passages generalizing b with
  | nil => simp [dealt, passAll]
  | cons passage passages ih =>
    refine (ih (b.pass passage)).trans ?_
    rw [handed_pass, dealt, List.filterMap_append, List.append_assoc]

theorem counters_passAll (b : BusyTunnel) (passages : List Passage) {e : Counters.Event}
    (inbound : e.IsInbound) : (b.passAll passages).tunnel.counters.of e =
      b.tunnel.counters.of e + (b.dealt passages).countP fun m => m.1.verdict? m.2 = some e := by
  induction passages generalizing b with
  | nil => simp [dealt, passAll]
  | cons passage passages ih =>
    refine (ih (b.pass passage)).trans ?_
    rw [counters_pass b passage inbound, dealt, List.countP_append, Nat.add_assoc]

/-- **All that comes in is accounted for.** Whatever happens to a tunnel after its start, in any
order, and whatever the consumer of its sink does:

* if the socket's datagrams are taken one by one, they are dealt with in the order in which they
  come in, each once, and at most the last one is still to be dealt with;
* the sink is handed the datagrams that the multicast data among them yields, in that order: those
  that can be decapsulated, of the relay of a session that is active when they are dealt with;
* the sink takes the delivered ones of them, and the other ones are dropped;
* the malformed ones are no message, or have no query or no datagram in it where there should be
  one;
* each datagram that is dealt with is counted once or not at all, and nothing else is counted as
  delivered, dropped or malformed;
* a turn offers to the sink what the datagram yields that it deals with, and nothing else.

So a datagram that a running tunnel receives, without anything else in between, increases one of
these counters by one, or changes none. -/
theorem traffic_accounted_for {config : Config} {random : Randomness} {start : Instant}
    {t₀ : Tunnel} (started : Tunnel.start config random start = .ok t₀)
    (passages : List Passage) :
    let first : BusyTunnel := ⟨t₀, []⟩
    let b := first.passAll passages
    let dealt := first.dealt passages
    let t := b.tunnel
    (first.OneByOne passages →
      first.arrived passages = dealt.map Prod.snd ++ b.awaiting ∧ b.awaiting.length ≤ 1) ∧
    t.handed = dealt.filterMap (fun m => m.1.yield? m.2) ∧
    t.counters.delivered = t.handed.countP (·.2) ∧
    t.counters.delivered + t.counters.dropped = t.handed.length ∧
    t.counters.malformed = dealt.countP (fun m => m.1.rejects m.2) ∧
    (∀ e : Counters.Event, e.IsInbound →
      t.counters.of e = dealt.countP fun m => m.1.verdict? m.2 = some e) ∧
    (∀ next, (b.turn next).tunnel.sink =
      ((b.dealt? (.turn next)).bind fun m => m.1.yield? m.2).elim t.sink
        fun d => (t.sink.offer d.1).2) ∧
    (t.status = .running → ∀ now sender bytes, (t.receive now sender bytes).counters =
      (t.verdict? (sender, Message.decode bytes)).elim t.counters t.counters.count) := by
  intro first b dealt t
  have initial : t₀.handed = [] ∧ t₀.counters = .zero := by
    unfold Tunnel.start at started
    split at started
    · cases started
    · obtain rfl := Except.ok.inj started
      exact ⟨rfl, rfl⟩
  have handed : t.handed = dealt.filterMap fun m => m.1.yield? m.2 := by
    have appended := first.handed_passAll passages
    rwa [initial.1, List.nil_append] at appended
  have counted : ∀ e : Counters.Event, e.IsInbound →
      t.counters.of e = dealt.countP fun m => m.1.verdict? m.2 = some e := by
    intro e inbound
    have added := first.counters_passAll passages inbound
    rw [initial.2] at added
    refine added.trans ?_
    cases e <;> exact Nat.zero_add _
  -- what the sink takes is counted as delivered, and what it leaves as dropped
  have delivered : t.counters.delivered = t.handed.countP (·.2) := by
    rw [handed, List.countP_filterMap]
    refine (counted .delivered (.inl rfl)).trans (List.countP_congr fun m _ => ?_)
    rw [decide_eq_true_eq, Tunnel.verdict?_delivered]
    cases m.1.yield? m.2 <;> rfl
  have dropped : t.counters.dropped = t.handed.countP fun d => ¬ d.2 := by
    rw [handed, List.countP_filterMap]
    refine (counted .dropped (.inr (.inl rfl))).trans (List.countP_congr fun m _ => ?_)
    rw [decide_eq_true_eq, Tunnel.verdict?_dropped]
    cases m.1.yield? m.2 <;> simp
  have malformed : t.counters.malformed = dealt.countP fun m => m.1.rejects m.2 := by
    refine (counted .malformed (.inr (.inr rfl))).trans (List.countP_congr fun m _ => ?_)
    simp [Tunnel.verdict?_malformed]
  refine ⟨fun orderly => ?_, handed, delivered, ?_, malformed, counted, b.sink_turn,
    fun running now sender bytes => t.receive_counters running now sender bytes⟩
  · exact awaiting_append_arrived (b := first) (Nat.zero_le 1) orderly
  · rw [delivered, dropped, ← List.length_eq_countP_add_countP]

/-- Turns in which pending parts are done, in their order. -/
def settling (now : Instant) (net : Transmit) : Nat → BusyTunnel → List Turn
  | 0, _ => []
  | fuel + 1, b =>
    match b.pending with
    | [] => []
    | part :: _ =>
      let next := Turn.proceeding now net part
      next :: settling now net fuel (b.turn next)

/-- Turns in which steps are done one after the other, without interruption. -/
def uninterrupted (b : BusyTunnel) : List Tunnel.Step → List Turn
  | [] => []
  | s :: steps =>
    let next := Turn.opening s.now s.net s.part
    let turns := next :: settling s.now s.net 8 (b.turn next)
    turns ++ uninterrupted (b.run turns) steps

/-- The tunnel is up. Multicast data comes in from its relay and from somebody else, and then what
is no message. The consumer of the sink goes away, and data of the relay is dropped. Then data comes
in and a socket error takes the session down before it is dealt with. -/
def traffic (t₀ : Tunnel) (relay : Address) (packet : Bytes) : List Passage :=
  let net : Transmit := fun _ _ => none
  let sender := Endpoint.of relay tunnelPort
  let received (sender : Endpoint) (bytes : Bytes) : Tunnel.Step :=
    ⟨10, net, .receive sender bytes, rfl⟩
  let data := Message.data packet
  let steps := Tunnel.handshake relay (.general 100) ++
    [received sender data.encode, received (.of relay 99) data.encode, received sender []]
  (uninterrupted ⟨t₀, []⟩ steps).map Passage.turn ++
    [.consume { Queue.empty 1024 with abandoned := true },
      .turn (.opening 11 net (.receive sender data.encode)),
      .turn (.proceeding 11 net (.heed sender data)),
      .turn (.opening 12 net (.receive sender data.encode)),
      .turn (.opening 12 net (.ioError ⟨"ConnectionReset", ""⟩)),
      .turn (.proceeding 12 net (.heed sender data))]

theorem traffic_accounted_for_consumerGone :
    let config := Config.standard (.of (.ofOctets 192 0 2 1) tunnelPort)
    let random := Randomness.fresh (fun _ => 7) (fun _ => 0)
    let relay := Address.ofOctets 192 0 2 7
    let d : Datagram :=
      ⟨.of (.ofOctets 198 51 100 1) 5000, .of (.ofOctets 239 1 1 1) 6000, [1, 2, 3]⟩
    ∃ t₀, Tunnel.start config random 0 = .ok t₀ ∧
      let passages := traffic t₀ relay (d.encapsulate.toOption.getD [])
      let first : BusyTunnel := ⟨t₀, []⟩
      let t := (first.passAll passages).tunnel
      (first.dealt passages).length = 7 ∧
      first.arrived passages = (first.dealt passages).map Prod.snd ∧
      t.handed = [(d, true), (d, false)] ∧
      t.counters.delivered = 1 ∧ t.counters.dropped = 1 ∧ t.counters.malformed = 1 := by
  intro config random relay d
  obtain ⟨t₀, started⟩ : ∃ t₀, Tunnel.start config random 0 = .ok t₀ := ⟨_, rfl⟩
  refine ⟨t₀, started, ?_⟩
  intro passages first t
  have orderly : first.OneByOne passages := by
    cases started
    decide +kernel
  have dealt : (first.dealt passages).length = 7 := by
    cases started
    decide +kernel
  have finished : (first.passAll passages).awaiting = [] := by
    cases started
    decide +kernel
  have yielded : (first.dealt passages).filterMap (fun m => m.1.yield? m.2) =
      [(d, true), (d, false)] := by
    cases started
    decide +kernel
  have rejected : (first.dealt passages).countP (fun m => m.1.rejects m.2) = 1 := by
    cases started
    decide +kernel
  obtain ⟨once, handed, delivered, all, malformed, -⟩ := traffic_accounted_for started passages
  rw [yielded] at handed
  rw [handed] at delivered all
  have delivered : t.counters.delivered = 1 := delivered
  have total : t.counters.delivered + t.counters.dropped = 2 := all
  have inOrder := (once orderly).1
  rw [finished, List.append_nil] at inOrder
  exact ⟨dealt, inOrder, handed, delivered, by omega, malformed.trans rejected⟩

end BusyTunnel

end MulticastTunnel
