import MulticastTunnel.Proofs.Listener.Responses
import MulticastTunnel.Proofs.Message.Wire
import MulticastTunnel.Tunnel.Firing

/-!
# The length of updates

A report travels as an update: the message's own fields, the IP header with the router alert, and
the report. The settings bound the report alone, so whether the update is a datagram that UDP can
carry also depends on the headers, and on the family of the relay's address.

* `Report.UpdateFits` : the update that tells a report is a datagram of at most some length, which
  is what the session's staying active depends on (`Tunnel.active_sendReport_iff`).
* `Reporting.updates_fit_iff` : **which settings make sure that all updates fit**.
* `Reporting.update_too_long_of_crowd` : settings that are accepted, and an update that no relay
  can be sent.
-/

namespace MulticastTunnel

/-- The longest datagram that UDP carries to a relay: over IPv4, the IP packet has at most 65535
bytes with its header; over IPv6, without it. -/
def udpLimit (overV4 : Bool) : Nat := if overV4 then 65507 else 65527

/-- A socket that takes the datagrams of at most `limit` bytes. -/
def Transmit.upTo (limit : Nat) (error : IoError) : Transmit :=
  fun _ bytes => if bytes.length ≤ limit then none else some error

theorem Message.length_encode_update (mac : ResponseMac) (nonce : UInt32) (packet : Bytes) :
    (Message.update mac nonce packet).encode.length = 12 + packet.length := by
  simp [encode, body]
  omega

/-! ### Reports -/

namespace Report

variable {config : Config} {report : Report} {limit : Nat}

/-- Whether the report is about IPv4 groups only. -/
def isV4 (report : Report) : Bool := report.records.all fun r => r.group.isV4

/-- The report has a packet, and the update with it is a datagram of at most `limit` bytes. -/
def UpdateFits (config : Config) (limit : Nat) (report : Report) : Prop :=
  ∃ first rest packet, report.records = first :: rest ∧
    report.encode (config.reporter first.group.isV4) = .ok packet ∧
    ∀ mac nonce, (Message.update mac nonce packet).encode.length ≤ limit

/-- The length of the update that tells the report. -/
def updateLength (report : Report) : Nat :=
  12 + (packetOverhead report.isV4 + report.encodedLength)

theorem OfFamily.isV4 {first : Record} {rest : List Record} (family : report.OfFamily first.group)
    (records : report.records = first :: rest) : report.isV4 = first.group.isV4 := by
  have group : ∀ r ∈ report.records, r.group.isV4 = first.group.isV4 :=
    fun r hr => family r hr _ List.mem_cons_self
  cases v4 : first.group.isV4 with
  | true => exact List.all_eq_true.2 fun r hr => (group r hr).trans v4
  | false => simp [Report.isV4, records, v4]

theorem Deliverable.exists_packet (h : report.Deliverable config) : ∃ first rest packet,
    report.records = first :: rest ∧
    report.encode (config.reporter first.group.isV4) = .ok packet ∧
    packet.length = packetOverhead report.isV4 + report.encodedLength ∧
    report.encodedLength ≤ config.maxReportLength := by
  obtain ⟨first, rest, packet, message, records, family, encoded, -, carried, short⟩ := h
  have same : (config.reporter first.group.isV4).isV4 = first.group.isV4 :=
    config.isV4_reporter _
  have family' : report.OfFamily (config.reporter first.group.isV4) := by
    intro r hr a ha
    rw [same]
    exact family r hr a ha
  have fits : report.encodedLength ≤ maxLength := by
    by_contra long
    rw [encode_of_long family' (Nat.lt_of_not_le long)] at encoded
    cases encoded
  obtain ⟨packet', message', encoded', -, -, carried', told, length⟩ :=
    exists_encode_eq family' fits
  obtain rfl : packet' = packet := Except.ok.inj (encoded'.symm.trans encoded)
  obtain rfl : message' = message := Except.ok.inj (carried'.symm.trans carried)
  rw [same, ← family.isV4 records] at length
  exact ⟨first, rest, packet', records, encoded, length, told ▸ short⟩

/-- **The update fits** exactly if its length does. -/
theorem Deliverable.updateFits_iff (h : report.Deliverable config) :
    report.UpdateFits config limit ↔ report.updateLength ≤ limit := by
  obtain ⟨first, rest, packet, records, encoded, length, -⟩ := h.exists_packet
  have total (mac : ResponseMac) (nonce : UInt32) :
      (Message.update mac nonce packet).encode.length = report.updateLength := by
    rw [Message.length_encode_update, length, updateLength]
  constructor
  · rintro ⟨first', rest', packet', records', encoded', fits⟩
    obtain ⟨rfl, -⟩ := List.cons.inj (records.symm.trans records')
    obtain rfl : packet = packet' := Except.ok.inj (encoded.symm.trans encoded')
    exact total 0 0 ▸ fits 0 0
  · intro fits
    exact ⟨first, rest, packet, records, encoded, fun mac nonce => (total mac nonce).symm ▸ fits⟩

/-- The update is no longer than the settings and the headers make it. -/
theorem Deliverable.updateLength_le (h : report.Deliverable config) :
    report.updateLength ≤ 12 + (packetOverhead report.isV4 + config.maxReportLength) := by
  obtain ⟨-, -, -, -, -, -, fits⟩ := h.exists_packet
  exact Nat.add_le_add_left (Nat.add_le_add_left fits _) _

end Report

/-! ### What an update that is too long does to a session -/

namespace Tunnel

variable {t : Tunnel} {now : Instant}

theorem phase_onIoError_ne_active (error : IoError) :
    (t.onIoError now error).session.phase ≠ .active := by
  unfold onIoError Session.onIoError
  by_cases closed : t.session.phase = .closed
  · simp [closed]
  · by_cases many : t.session.config.maxIoFailures ≤ t.session.ioFailures + 1
    · simp only [closed, many, ↓reduceIte, fail, settle]
      split <;> simp [stop, Session.close, cancelAlarm]
    · simp only [closed, many, ↓reduceIte]
      cases t.session.phase <;> simp [Session.enterRequesting, setAlarm,
        cancelPending, apply_ite]

/-- **An active session survives the sending of a report** exactly if the update fits. -/
theorem active_sendReport_iff {report : Report} {limit : Nat} {error : IoError}
    (deliverable : report.Deliverable t.config) (target : t.session.updateTarget?.isSome)
    (errors : t.errors = []) :
    (((t.sendReport (.upTo limit error) report).2.nextError now).session.phase = .active ↔
      report.UpdateFits t.config limit) := by
  obtain ⟨first, rest, packet, records, encoded, length, -⟩ := deliverable.exists_packet
  obtain ⟨⟨relay, mac, nonce⟩, target⟩ := Option.isSome_iff_exists.1 target
  have phase : t.session.phase = .active := by
    by_contra inactive
    simp [Session.updateTarget?, inactive] at target
  have total : (Message.update mac nonce packet).encode.length = report.updateLength := by
    rw [Message.length_encode_update, length, Report.updateLength]
  have composed : t.compose report = .ok (.update mac nonce packet, relay) := by
    simp only [compose, target, records, encoded]
  rw [deliverable.updateFits_iff]
  simp only [sendReport, composed, submit, transmit, Transmit.upTo, total]
  by_cases fits : report.updateLength ≤ limit
  · simp [fits, nextError, count, errors, Session.onIoSuccess, phase]
  · simp [fits, nextError, errors, phase_onIoError_ne_active]

end Tunnel

/-! ### Groups with many sources -/

/-- Consecutive addresses that may be sources. -/
def crowdMember (i : Nat) : Address :=
  .v6 (BitVec.ofNat 128 (0x20010db8000000000000000000000000 + i))

theorem toNat_crowdMember {i : Nat} (h : i < 2 ^ 16) :
    (crowdMember i).toNat = 0x20010db8000000000000000000000000 + i := by
  simp only [crowdMember, Address.toNat, BitVec.toNat_ofNat]
  omega

/-- As many of the addresses as a record can list. -/
def crowd (n : UInt16) : AddressSet where
  toList := (List.range n.toNat).map crowdMember
  ascending := by
    refine List.pairwise_map.2 (List.pairwise_lt_range.imp_of_mem fun hi hj less => ?_)
    have hi := toNat_crowdMember (Nat.lt_trans (List.mem_range.1 hi) n.toNat_lt)
    have hj := toNat_crowdMember (Nat.lt_trans (List.mem_range.1 hj) n.toNat_lt)
    simp only [crowdMember, Address.toNat] at hi hj
    simp only [Address.lt_iff_rank, crowdMember, Address.rank, hi, hj]
    omega

theorem sourceProblem_of_mem_crowd {n : UInt16} {group a : Address} (v6 : group.isV4 = false)
    (ha : a ∈ crowd n) : SourceFilter.sourceProblem group a = none := by
  obtain ⟨i, hi, rfl⟩ := List.mem_map.1 ha
  have number := toNat_crowdMember (Nat.lt_trans (List.mem_range.1 hi) n.toNat_lt)
  have small := Nat.lt_trans (List.mem_range.1 hi) n.toNat_lt
  have family : (crowdMember i).sameFamily group = true := by simp [Address.sameFamily, v6]; rfl
  have unicast : (crowdMember i).isMulticast = false := by
    have leading : (crowdMember i).leadingByte = 0x20 := by
      simp only [crowdMember, Address.toNat] at number
      simp only [crowdMember, Address.leadingByte, number, Nat.shiftRight_eq_div_pow]
      omega
    rw [show (crowdMember i).isMulticast = ((crowdMember i).leadingByte == 255) from rfl, leading]
    rfl
  have specified : (crowdMember i).isUnspecified = false := by
    simp [Address.isUnspecified, number]
  simp [SourceFilter.sourceProblem, family, unicast, specified]

/-- A source-specific group. -/
def crowdedGroup : Address := .v6 0xff3e0000000000000000000000000001

theorem length_crowd (n : UInt16) : (crowd n).toList.length = n.toNat := by
  simp [crowd]

theorem isEmpty_crowd {n : UInt16} (some : n ≠ 0) : (crowd n).isEmpty = false := by
  refine List.isEmpty_eq_false_iff.2 fun none => some (UInt16.toNat_inj.1 ?_)
  rw [← length_crowd, none]
  rfl

theorem problemFor_crowd (n : UInt16) :
    (SourceFilter.including (crowd n)).problemFor crowdedGroup = none := by
  refine SourceFilter.problemFor_eq_none_iff.2 ⟨by decide, fun a ha => ?_, fun h => by cases h.1⟩
  exact sourceProblem_of_mem_crowd rfl ha

theorem encodedLength_crowd (kind : RecordKind) (n : UInt16) :
    (Record.mk kind crowdedGroup (crowd n).toList).encodedLength = 20 + 16 * n.toNat := by
  simp only [Record.encodedLength, length_crowd, crowdedGroup, Address.width]
  omega

/-- One group is wanted from the first `n` addresses, others are wanted from all sources. -/
def crowdFilter (n : UInt16) (group : Address) : SourceFilter :=
  if group = crowdedGroup then .including (crowd n) else .allSources

/-- An IPv6 group that may be wanted from all sources. -/
structure IsPlainGroup (group : Address) : Prop where
  v6 : group.isV4 = false
  multicast : group.isMulticast = true
  general : group.isSourceSpecific = false

instance (group : Address) : Decidable (IsPlainGroup group) :=
  decidable_of_iff (group.isV4 = false ∧ group.isMulticast = true ∧ group.isSourceSpecific = false)
    ⟨fun h => ⟨h.1, h.2.1, h.2.2⟩, fun h => ⟨h.v6, h.multicast, h.general⟩⟩

section CrowdFilter

variable {n : UInt16} {group : Address}

@[simp] theorem crowdFilter_crowdedGroup :
    crowdFilter n crowdedGroup = .including (crowd n) := if_pos rfl

theorem IsPlainGroup.crowdFilter (h : IsPlainGroup group) : crowdFilter n group = .allSources := by
  refine if_neg ?_
  rintro rfl
  exact absurd h.general (by decide)

theorem IsPlainGroup.problemFor (h : IsPlainGroup group) :
    SourceFilter.allSources.problemFor group = none := by
  refine SourceFilter.problemFor_eq_none_iff.2 ⟨h.multicast, fun a ha => ?_, fun specific => ?_⟩
  · exact absurd ha (AddressSet.not_mem_empty a)
  · exact Bool.false_ne_true (h.general.symm.trans specific.2)

theorem IsPlainGroup.encodedLength (h : IsPlainGroup group) :
    (SourceFilter.allSources.currentState group).encodedLength = 20 := by
  cases group with
  | v4 bits => cases h.v6
  | v6 bits => rfl

end CrowdFilter

namespace Report

theorem recordsLength_of_forall {length : Nat} {records : List Record}
    (h : ∀ r ∈ records, r.encodedLength = length) :
    recordsLength records = length * records.length := by
  induction records with
  | nil => rfl
  | cons r rest ih =>
    rw [recordsLength, h r List.mem_cons_self, ih fun r hr => h r (List.mem_cons_of_mem _ hr),
      List.length_cons, Nat.mul_succ, Nat.add_comm]

/-- The response about the crowded group and some other groups. -/
def crowded (n : UInt16) (rest : List Address) : Report :=
  ⟨(crowdedGroup :: rest).map fun a => (crowdFilter n a).currentState a⟩

theorem encodedLength_crowded (n : UInt16) {rest : List Address}
    (plain : ∀ a ∈ rest, IsPlainGroup a) :
    (crowded n rest).encodedLength = 28 + 16 * n.toNat + 20 * rest.length := by
  have first : ((crowdFilter n crowdedGroup).currentState crowdedGroup).encodedLength =
      20 + 16 * n.toNat := by
    rw [crowdFilter_crowdedGroup]
    exact encodedLength_crowd _ n
  have others : ∀ r ∈ rest.map fun a => (crowdFilter n a).currentState a,
      r.encodedLength = 20 := by
    intro r hr
    obtain ⟨a, ha, rfl⟩ := List.mem_map.1 hr
    rw [(plain a ha).crowdFilter, (plain a ha).encodedLength]
  rw [encodedLength, crowded, List.map_cons, recordsLength, first, recordsLength_of_forall others,
    List.length_map, headerLength]
  omega

end Report

namespace Reporting

open Listener (Event)

variable {config : Config} {report : Report}

/-- The settings may lead to the report, if queries are read from packets. -/
def HandsOut (config : Config) (report : Report) : Prop :=
  ∃ events : List Event,
    (∀ now random q, .query now random q ∈ events → ∃ packet, Query.decode packet = .ok q) ∧
    ∃ f ∈ (run config events).firings, report ∈ f.reports

theorem HandsOut.deliverable (h : HandsOut config report) (accepted : config.problem = none) :
    report.Deliverable config := by
  obtain ⟨events, queries, f, hf, hreport⟩ := h
  have delivers : (run config events).Delivers config :=
    List.foldlRecOn events react (.start config) fun _ h event mem =>
      h.react accepted fun now random q heq => queries now random q (heq ▸ mem)
  exact delivers.firings f hf report hreport

theorem handsOut_crowded {n : UInt16} (some : n ≠ 0) {rest : List Address}
    (ascending : Ascending (crowdedGroup :: rest)) (plain : ∀ a ∈ rest, IsPlainGroup a)
    (fits : 28 + 16 * n.toNat + 20 * rest.length ≤
      min config.maxReportLength Report.maxLength) : HandsOut config (.crowded n rest) := by
  have v6 : ∀ a ∈ crowdedGroup :: rest, a.isV4 = false :=
    List.forall_mem_cons.2 ⟨rfl, fun a ha => (plain a ha).v6⟩
  have permitted : ∀ a ∈ crowdedGroup :: rest, (crowdFilter n a).problemFor a = none := by
    refine List.forall_mem_cons.2 ⟨?_, fun a ha => ?_⟩
    · exact crowdFilter_crowdedGroup ▸ problemFor_crowd n
    · rw [(plain a ha).crowdFilter, (plain a ha).problemFor]
  have anything : ∀ a ∈ crowdedGroup :: rest, (crowdFilter n a).isEmpty = false := by
    refine List.forall_mem_cons.2 ⟨?_, fun a ha => ?_⟩
    · exact crowdFilter_crowdedGroup ▸ isEmpty_crowd some
    · rw [(plain a ha).crowdFilter]
      rfl
  let q : Query := .general (.ofMillis 10000)
  have read : Query.decode Message.generalQuery = .ok q := by decide +kernel
  obtain ⟨id, f, hf, reports⟩ := exists_response (q := q) ascending (List.cons_ne_nil _ _) v6
    permitted anything (Report.encodedLength_crowded n plain ▸ fits) rfl
  refine ⟨_, fun now random q' asked => ?_, f, hf, reports ▸ List.mem_singleton_self _⟩
  have same : q' = q := by
    rcases List.mem_append.1 asked with asked | asked
    · simp [asks] at asked
    · simpa using (Event.query.inj (List.mem_cons.1 asked |>.resolve_right (by simp))).2.2
  exact ⟨_, same ▸ read⟩

/-- Some update is longer than UDP carries, if the settings leave no room for its headers. -/
theorem exists_update_of_lt {overV4 : Bool} (accepted : config.problem = none)
    (short : udpLimit overV4 < config.maxReportLength + 60) :
    ∃ report, HandsOut config report ∧ udpLimit overV4 < report.updateLength := by
  have length (n : UInt16) {rest : List Address} (plain : ∀ a ∈ rest, IsPlainGroup a) :
      (Report.crowded n rest).updateLength = 88 + 16 * n.toNat + 20 * rest.length := by
    have v6 : (Report.crowded n rest).isV4 = false := rfl
    rw [Report.updateLength, v6, Report.encodedLength_crowded n plain, Report.packetOverhead]
    simp only [Bool.false_eq_true, ↓reduceIte]
    omega
  have most := (Config.maxReportLength_of_problem accepted).2
  cases overV4 with
  | true =>
    -- three groups more, since the numbers of sources alone make steps of 16 bytes
    let rest : List Address := [.v6 0xff7e0000000000000000000000000001,
      .v6 0xff7e0000000000000000000000000002, .v6 0xff7e0000000000000000000000000003]
    have plain : ∀ a ∈ rest, IsPlainGroup a := by decide
    refine ⟨.crowded 4085 rest, handsOut_crowded (by decide) (by decide) plain ?_, ?_⟩
    · simp [udpLimit, Report.maxLength, rest] at short most ⊢
      omega
    · rw [length 4085 plain]
      decide
  | false =>
    have plain : ∀ a ∈ ([] : List Address), IsPlainGroup a := by simp
    refine ⟨.crowded 4090 [], handsOut_crowded (by decide) (by decide) plain ?_, ?_⟩
    · simp [udpLimit, Report.maxLength] at short most ⊢
      omega
    · rw [length 4090 plain]
      decide

/-- **Which updates fit a datagram.** With settings that are accepted, the update of a report about
IPv4 groups always fits. All updates fit exactly if the settings leave 60 bytes for the headers of
those about IPv6 groups, so the greatest length that is accepted is 24 bytes too much for a relay
that is reached over IPv4, and 4 too much over IPv6. The session that sends a report stays active
exactly if the update fits what the socket takes. -/
theorem updates_fit_iff (accepted : config.problem = none) :
    (∀ report, HandsOut config report →
      (report.isV4 = true → ∀ overV4, report.UpdateFits config (udpLimit overV4)) ∧
      ∀ (t : Tunnel) (limit : Nat) (error : IoError) (now : Instant), t.config = config →
        t.session.updateTarget?.isSome → t.errors = [] →
        (((t.sendReport (.upTo limit error) report).2.nextError now).session.phase = .active ↔
          report.UpdateFits config limit)) ∧
    ∀ overV4, (∀ report, HandsOut config report → report.UpdateFits config (udpLimit overV4)) ↔
      config.maxReportLength + 60 ≤ udpLimit overV4 := by
  have most := (Config.maxReportLength_of_problem accepted).2
  rw [Report.maxLength] at most
  refine ⟨fun report handsOut => ?_, fun overV4 => ⟨fun fit => ?_, fun room report handsOut => ?_⟩⟩
  · have deliverable := handsOut.deliverable accepted
    constructor
    · intro v4 overV4
      have length := deliverable.updateLength_le
      rw [v4, Report.packetOverhead, if_pos rfl] at length
      refine deliverable.updateFits_iff.2 (Nat.le_trans length ?_)
      cases overV4 <;> simp only [udpLimit, Bool.false_eq_true, ↓reduceIte] <;> omega
    · rintro t limit error now rfl target errors
      exact Tunnel.active_sendReport_iff deliverable target errors
  · by_contra short
    obtain ⟨report, handsOut, long⟩ := exists_update_of_lt accepted (Nat.lt_of_not_le short)
    have fits := (handsOut.deliverable accepted).updateFits_iff.1 (fit report handsOut)
    exact Nat.lt_irrefl _ (Nat.lt_of_lt_of_le long fits)
  · have deliverable := handsOut.deliverable accepted
    have length := deliverable.updateLength_le
    have overhead : Report.packetOverhead report.isV4 ≤ 48 := by
      cases report.isV4 <;> decide
    exact deliverable.updateFits_iff.2 (by omega)

/-- With short reports, the join of an IPv6 group reaches any relay, and the session stays
active. -/
theorem updates_fit_iff_join :
    let group : Address := .v6 0xff1e0000000000000000000000000001
    let report : Report := ⟨[⟨.toExclude, group, []⟩]⟩
    let session : Session := { Session.start Config.quick with
      phase := .active
      relay := some (.of (.ofOctets 192 0 2 7) tunnelPort)
      requestNonce := some 22 }
    let t : Tunnel := ⟨Config.quick, session, .idle, .empty, .start Config.quick, .empty 1, .zero,
      .running, .fresh (fun _ => 0) (fun _ => 0), [], []⟩
    let net := Transmit.upTo (udpLimit true) default
    HandsOut Config.quick report ∧ report.UpdateFits Config.quick (udpLimit true) ∧
      ((t.sendReport net report).2.nextError 0).session.phase = .active := by
  intro group report session t net
  have accepted : Config.quick.problem = none := by decide
  have handsOut : HandsOut Config.quick report :=
    ⟨[.call 0 group (.join .allSources), .begin 0 (.change group)],
      fun now random q asked => by simp at asked,
      ⟨0, .change group, [report], some (.ofSeconds 1)⟩, by decide, by simp⟩
  have room : Config.quick.maxReportLength + 60 ≤ udpLimit true := by decide
  have fits := ((updates_fit_iff accepted).2 true).2 room report handsOut
  exact ⟨handsOut, fits, (((updates_fit_iff accepted).1 report handsOut).2 t _ _ 0 rfl (by decide)
    rfl).2 fits⟩

/-- The first join of a group with 4090 sources is reported in one piece, which is 8 bytes of
header, 20 of the record and 16 for each source. The update is then too long by a byte for a relay
that is reached over IPv6. -/
theorem update_too_long_of_crowd :
    let config := { Config.quick with maxReportLength := 65471 }
    let join : Event := .call 0 crowdedGroup (.join (.including (crowd 4090)))
    let report : Report := ⟨[⟨.allow, crowdedGroup, (crowd 4090).toList⟩]⟩
    config.problem = none ∧
      (∃ f ∈ (run config [join, .begin 0 (.change crowdedGroup)]).firings, f.reports = [report]) ∧
      ∀ overV4, ¬ report.UpdateFits config (udpLimit overV4) := by
  intro config join report
  have accepted : config.problem = none := by decide
  have length : report.encodedLength = 65468 := by
    rw [Report.encodedLength, Report.recordsLength, encodedLength_crowd]
    rfl
  have reported : ∃ f ∈ (run config [join, .begin 0 (.change crowdedGroup)]).firings,
      f.reports = [report] :=
    exists_join_report (problemFor_crowd 4090) (isEmpty_crowd (by decide))
      (length.symm ▸ by decide : report.encodedLength ≤ _)
  refine ⟨accepted, reported, fun overV4 fits => ?_⟩
  obtain ⟨f, hf, reports⟩ := reported
  have handsOut : HandsOut config report :=
    ⟨_, fun now random q asked => by simp [join] at asked, f, hf,
      reports ▸ List.mem_singleton_self _⟩
  have v6 : report.isV4 = false := rfl
  have total : report.updateLength = 65528 := by
    rw [Report.updateLength, length, v6]
    decide
  have most := (handsOut.deliverable accepted).updateFits_iff.1 fits
  rw [total] at most
  cases overV4 <;> exact absurd most (by decide)

end Reporting

end MulticastTunnel
