import MulticastTunnel.Proofs.Session.Credentials
import MulticastTunnel.Proofs.Tunnel.Steps

/-!
# What becomes of updates

A report is sent in two parts. The session is asked for a target, from which the update is made;
then the update is handed to the socket, which may take some time. The session is not asked again,
so an update can be sent that the session would no longer have a target for.

* `Tunnel.exists_target_of_compose` : an update is for the relay of an active session.
* `BusyTunnel.exists_composed` : an update that waits to be sent was made at some time.
* `BusyTunnel.effects_turn` : **and so was every update that is sent**.
* `Tunnel.effects_step` : without interruption, it is sent right then.
-/

namespace MulticastTunnel

/-! ### The messages of a session -/

namespace Session

variable {s s' : Session} {message : Message} {recipient : Endpoint}

theorem Fires.kind_of_send {now : Instant} {nonce : UInt32} {next : Duration}
    (fires : Fires s now nonce (.send message recipient next, s')) :
    message.kind = .discovery ∨ message.kind = .request := by
  cases fires.outcome with
  | discovers => exact .inl rfl
  | requests => exact .inr rfl

theorem teardown_of_teardown? (h : s.teardown? = some (message, recipient)) :
    s.phase = .active ∧ s.relay = some recipient ∧
      ∃ mac nonce seen, message = .teardown mac nonce seen := by
  by_cases phase : s.phase = .active
  · simp only [teardown?, phase, ↓reduceIte, Option.pure_def, Option.bind_eq_bind,
      Option.bind_eq_some_iff, Option.some.injEq, Prod.mk.injEq] at h
    obtain ⟨nonce, -, seen, -, relay, known, rfl, rfl⟩ := h
    exact ⟨phase, known, _, _, _, rfl⟩
  · simp [teardown?, phase] at h

end Session

namespace Tunnel

variable {t t' : Tunnel} {now : Instant} {net : Transmit} {recipient : Endpoint}

/-! ### Updates that are made -/

/-- **An update is for the relay of an active session**, and has its credentials. -/
theorem exists_target_of_compose {report : Report} {update : Message}
    (composed : t.compose report = .ok (update, recipient)) :
    t.session.phase = .active ∧ t.session.relay = some recipient ∧
      ∃ mac nonce packet, update = .update mac nonce packet ∧
        t.session.updateTarget? = some (recipient, mac, nonce) := by
  simp only [compose] at composed
  split at composed
  · cases composed
  · next relay mac nonce target =>
    split at composed
    · cases composed
    · split at composed
      · cases composed
      · cases composed
      · next packet _ =>
        obtain ⟨rfl, rfl⟩ := Prod.mk.inj (Except.ok.inj composed)
        obtain ⟨active, known, -⟩ := Session.Announces.credentials (.inl target)
        exact ⟨active, known, mac, nonce, packet, rfl, target⟩

/-! ### Messages of the session -/

/-- The message of the session that is to be sent by the part, or by one that follows it. -/
def Part.message? : Part → Option Message
  | transmit message _ | tell message _ => some message
  | stopAlarm teardown _ | stopListener teardown _ => teardown.map Prod.fst
  | _ => none

/-- The messages of the session that are to be sent. -/
def messages (pending : List Part) : List Message := pending.filterMap Part.message?

theorem mem_messages_perform {part : Part} {message : Message}
    (h : message ∈ messages (t.perform now net part).2) :
    part.message? = some message ∨ message.kind ≠ .update := by
  obtain ⟨next, pending, carried⟩ := List.mem_filterMap.1 h
  cases perform_follows pending with
  | carryOut said =>
    have fires := Session.onTimer_fires t.session now t.random.nonce
    generalize t.session.onTimer now t.random.nonce = answer at fires said
    obtain ⟨step, session⟩ := answer
    cases step with
    | send sent recipient delay =>
      rcases List.mem_pair.1 said with rfl | rfl
      · cases carried
        rcases fires.kind_of_send with kind | kind <;> simp [kind]
      · cases carried
    | fail error => rcases List.mem_pair.1 said with rfl | rfl <;> cases carried
    | idle =>
      obtain rfl := List.mem_singleton.1 said
      cases carried
  | stopAlarm =>
    obtain ⟨teardown, told, rfl⟩ := Option.map_eq_some_iff.1 carried
    split at told
    · obtain ⟨-, -, mac, nonce, seen, sent⟩ := Session.teardown_of_teardown? told
      exact .inr (by simp [sent, Message.kind])
    · cases told
  | stopListener | tell => exact .inl carried
  | _ => cases carried

/-- The only update that a part puts on the wire is the one that it carries. -/
theorem effects_perform (t : Tunnel) (now : Instant) (net : Transmit) (part : Part) :
    ∃ new, (t.perform now net part).1.effects = t.effects ++ new ∧
      ∀ recipient mac nonce packet, .sent recipient (.update mac nonce packet) ∈ new →
        part.message? = some (.update mac nonce packet) ∨
          part = .submit (.update mac nonce packet) recipient := by
  have touches := perform_touches t now net part
  generalize (t.perform now net part).1 = t' at touches ⊢
  cases touches with
  | sent carried =>
    refine ⟨_, rfl, fun recipient mac nonce packet sent => ?_⟩
    cases List.mem_singleton.1 sent
    rcases carried with rfl | rfl | rfl
    · exact .inl rfl
    · exact .inl rfl
    · exact .inr rfl
  | handed active datagram taken sink counters => exact ⟨_, rfl, by simp⟩
  | _ => exact ⟨[], (List.append_nil _).symm, by simp⟩

/-! ### Without interruption -/

/-- The part sends a report. -/
def Part.Reports : Part → Prop
  | report _ | submit .. => True
  | _ => False

theorem not_reports_perform {part next : Part} (other : ¬ part.Reports)
    (pending : next ∈ (t.perform now net part).2) : ¬ next.Reports := by
  cases perform_follows pending with
  | carryOut said =>
    cases step : (t.session.onTimer now t.random.nonce).1 <;> simp only [step, Part.ofStep] at said
    · rcases List.mem_pair.1 said with rfl | rfl <;> exact id
    · rcases List.mem_pair.1 said with rfl | rfl <;> exact id
    · exact List.mem_singleton.1 said ▸ id
  | submit => exact absurd trivial other
  | _ => exact id

/-- Work that sends no report sends no update. -/
theorem Completes.effects {parts : List Part} (h : Completes now net parts t t')
    (prompt : ∀ message ∈ messages parts, message.kind ≠ .update)
    (others : ∀ part ∈ parts, ¬ part.Reports) : ∃ new, t'.effects = t.effects ++ new ∧
      ∀ recipient mac nonce packet, .sent recipient (.update mac nonce packet) ∉ new := by
  -- what follows a part neither reports nor brings an update up, if the part does not
  induction h with
  | done t => exact ⟨[], (List.append_nil _).symm, by simp⟩
  | @part part rest t t' _ ih =>
    obtain ⟨first, begun, sends⟩ := effects_perform t now net part
    have quiet : ∀ message, part.message? = some message → message.kind ≠ .update :=
      fun message carried => prompt message (List.mem_filterMap.2 ⟨part, by simp, carried⟩)
    have prompt' : ∀ message ∈ messages ((t.perform now net part).2 ++ rest),
        message.kind ≠ .update := by
      intro message pending
      rw [messages, List.filterMap_append] at pending
      rcases List.mem_append.1 pending with new | old
      · exact (mem_messages_perform new).elim (quiet message) id
      · obtain ⟨part', hpart', carried⟩ := List.mem_filterMap.1 old
        exact prompt message (List.mem_filterMap.2 ⟨part', List.mem_cons_of_mem _ hpart', carried⟩)
    have others' : ∀ next ∈ (t.perform now net part).2 ++ rest, ¬ next.Reports := by
      intro next pending
      rcases List.mem_append.1 pending with new | old
      · exact not_reports_perform (others part List.mem_cons_self) new
      · exact others next (List.mem_cons_of_mem _ old)
    obtain ⟨later, ended, none⟩ := ih prompt' others'
    refine ⟨first ++ later, by rw [ended, begun, List.append_assoc], ?_⟩
    intro recipient mac nonce packet sent
    rcases List.mem_append.1 sent with sent | sent
    · rcases sends recipient mac nonce packet sent with carried | rfl
      · exact quiet _ carried rfl
      · exact others _ List.mem_cons_self trivial
    · exact none recipient mac nonce packet sent

theorem message?_of_opens {part : Part} (opens : part.Opens = true) : part.message? = none := by
  cases part <;> first | rfl | cases opens

/-- **Without interruption, an update is sent while the session is active**, to its relay. -/
theorem effects_step (t : Tunnel) (s : Step) : ∃ new, (t.step s).effects = t.effects ++ new ∧
    ∀ recipient mac nonce packet, .sent recipient (.update mac nonce packet) ∈ new →
      t.session.phase = .active ∧ t.session.relay = some recipient := by
  by_cases reports : s.part.Reports
  · obtain ⟨now, net, part, opens⟩ := s
    cases part with
    | report report =>
      simp only [step, sendReport]
      cases composed : t.compose report with
      | error outcome => exact ⟨[], (List.append_nil _).symm, by simp⟩
      | ok made =>
        obtain ⟨update, relay⟩ := made
        obtain ⟨active, known, -⟩ := exists_target_of_compose composed
        simp only [submit, transmit]
        cases net relay update.encode with
        | some error => exact ⟨[], (List.append_nil _).symm, by simp⟩
        | none =>
          refine ⟨[.sent relay update], rfl, fun recipient mac nonce packet sent => ?_⟩
          cases List.mem_singleton.1 sent
          exact ⟨active, known⟩
    | submit => cases opens
    | _ => exact reports.elim
  · have silent : messages [s.part] = [] := by simp [messages, message?_of_opens s.opens]
    obtain ⟨new, sent, none⟩ :=
      (t.step_completes s).effects (by simp [silent]) (by simpa using reports)
    exact ⟨new, sent, fun recipient mac nonce packet h => (none _ _ _ _ h).elim⟩

end Tunnel

namespace BusyTunnel

open Tunnel (Part messages)

variable {b : BusyTunnel}

/-- No message of the session that waits to be sent is an update. -/
def Prompt (b : BusyTunnel) : Prop := ∀ message ∈ messages b.pending, message.kind ≠ .update

theorem Prompt.not_update (h : b.Prompt) {part : Part}
    (done : part.Opens = true ∨ part ∈ b.pending) {message : Message}
    (carried : part.message? = some message) : message.kind ≠ .update := by
  rcases done with opens | pending
  · rw [Tunnel.message?_of_opens opens] at carried
    cases carried
  · exact h message (List.mem_filterMap.2 ⟨part, pending, carried⟩)

theorem Prompt.turn (h : b.Prompt) (next : Turn) : (b.turn next).Prompt := by
  rcases b.turn_cases next with idle | ⟨now, net, part, others, works, sub, done⟩
  · rwa [idle]
  · rw [works]
    intro message pending
    obtain ⟨part', hpart', carried⟩ := List.mem_filterMap.1 pending
    rcases List.mem_append.1 hpart' with new | old
    · have coming := List.mem_filterMap.2 ⟨part', new, carried⟩
      exact (Tunnel.mem_messages_perform coming).elim (h.not_update done) id
    · exact h message (List.mem_filterMap.2 ⟨part', sub old, carried⟩)

theorem prompt_run (t : Tunnel) (turns : List Turn) : (run ⟨t, []⟩ turns).Prompt :=
  List.foldlRecOn turns turn (motive := Prompt) (by simp [Prompt, messages])
    fun _ h next _ => h.turn next

/-- An update that waits to be sent was made at some time, for a report of that time. -/
theorem exists_composed (t : Tunnel) (turns : List Turn) {update : Message} {relay : Endpoint}
    (waits : .submit update relay ∈ (run ⟨t, []⟩ turns).pending) :
    ∃ front, front <+: turns ∧ ∃ report,
      (run ⟨t, []⟩ front).tunnel.compose report = .ok (update, relay) := by
  induction turns using List.reverseRecOn with
  | nil => cases waits
  | append_singleton turns next ih =>
    have before (old : .submit update relay ∈ (run ⟨t, []⟩ turns).pending) :
        ∃ front, front <+: turns ++ [next] ∧ ∃ report,
          (run ⟨t, []⟩ front).tunnel.compose report = .ok (update, relay) := by
      obtain ⟨front, earlier, made⟩ := ih old
      exact ⟨front, earlier.trans (List.prefix_append _ _), made⟩
    rw [run, List.foldl_append] at waits
    change _ ∈ ((run ⟨t, []⟩ turns).turn next).pending at waits
    rcases (run ⟨t, []⟩ turns).turn_cases next with
      idle | ⟨now, net, part, others, works, sub, -⟩
    · exact before (idle ▸ waits)
    · rw [works] at waits
      rcases List.mem_append.1 waits with new | old
      · cases Tunnel.perform_follows new with
        | submit composed => exact ⟨turns, List.prefix_append _ _, _, composed⟩
        | carryOut said =>
          exact absurd trivial (Tunnel.not_reports_perform id new)
      · exact before (sub old)

/-- **An update that is sent was made for a report** while the session was active, at that time or
earlier. -/
theorem effects_turn (t : Tunnel) (turns : List Turn) (next : Turn) :
    ∃ new, ((run ⟨t, []⟩ turns).turn next).tunnel.effects =
        (run ⟨t, []⟩ turns).tunnel.effects ++ new ∧
      ∀ recipient mac nonce packet, .sent recipient (.update mac nonce packet) ∈ new →
        ∃ front, front <+: turns ∧ ∃ report, (run ⟨t, []⟩ front).tunnel.compose report =
          .ok (.update mac nonce packet, recipient) := by
  rcases (run ⟨t, []⟩ turns).turn_cases next with
    idle | ⟨now, net, part, others, works, -, done⟩
  · exact ⟨[], by simp [idle], by simp⟩
  · rw [works]
    obtain ⟨new, effects, updates⟩ := (run ⟨t, []⟩ turns).tunnel.effects_perform now net part
    refine ⟨new, effects, fun recipient mac nonce packet sent => ?_⟩
    rcases updates recipient mac nonce packet sent with carried | rfl
    · -- the session never has an update to send
      exact ((prompt_run t turns).not_update done carried rfl).elim
    · exact exists_composed t turns (done.resolve_left (by simp [Part.Opens]))

end BusyTunnel

end MulticastTunnel
