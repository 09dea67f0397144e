import MulticastTunnel.Proofs.Report.Wire

/-!
# Which messages are reports

A report is a header, which tells the number of records, and so many records after it. A record
tells how many sources it lists and how many bytes of auxiliary data follow them. Among the
messages whose checksum holds, the readers of both dialects accept exactly those that start with a
report so spelled, and read its records; what is not looked at has no part in the outcome, and a
report that is cut off is too short.

* `Report.Dialect.Entry`, `Report.Dialect.Spelling` : the grammar of records and reports.
* `Report.Dialect.Entry.consumes`, `Report.exists_entry_of_recordReader` : the reader of records
  takes what the grammar spells, and nothing else.
* `Report.grammar_accepted` : **exactly the reports are accepted**.
-/

namespace MulticastTunnel

theorem RecordKind.code_of_ofCode? {code : UInt8} {kind : RecordKind}
    (h : ofCode? code.toNat = some kind) : kind.code = code := by
  apply UInt8.toNat_inj.1
  unfold ofCode? at h
  split at h
  all_goals
    cases h
  all_goals
    simp_all [RecordKind.code]

namespace Report

/-! ### The grammar -/

/-- A record as it may be spelled: with auxiliary data, whose length is told in units of four
bytes. -/
structure Dialect.Entry (d : Dialect) where
  record : Record
  units : UInt8
  auxiliary : Bytes
  writes : d.Writes record
  length : auxiliary.length = units.toNat * 4

/-- The bytes of a record: its kind, the length of its auxiliary data, the number of its sources,
its group, its sources, and the auxiliary data. -/
def Dialect.Entry.bytes {d : Dialect} (e : d.Entry) : Bytes :=
  recordWith e.units e.auxiliary e.record

/-- A report as it may be spelled: between its type and the number of its records are five bytes
that no record depends on, two of which are the checksum. -/
structure Dialect.Spelling (d : Dialect) where
  unread : Bytes
  entries : List d.Entry
  length : unread.length = 5
  number : entries.length < 2 ^ 16

namespace Dialect.Spelling

variable {d : Dialect}

/-- The bytes of a report: a header of eight bytes, and the records. -/
def bytes (s : d.Spelling) : Bytes :=
  [d.messageType] ++ (s.unread ++ (Bytes.ofNat 2 s.entries.length ++
    s.entries.flatMap Entry.bytes))

/-- The report that is spelled. -/
def report (s : d.Spelling) : Report := ⟨s.entries.map Entry.record⟩

end Dialect.Spelling

/-- How a reader treats messages of a dialect whose checksum holds. -/
structure Dialect.Governs (d : Dialect) (valid : Bytes → Prop) (decode : Bytes → Outcome Report) :
    Prop where
  /-- It accepts the messages that start with the spelling of a report, for this report. -/
  exactly : ∀ message report, valid message → (decode message = .ok report ↔
    ∃ (s : d.Spelling) (rest : Bytes), message = s.bytes ++ rest ∧ s.report = report)
  /-- Auxiliary data and the bytes after a report have no part in the outcome. -/
  indifferent : ∀ (s s' : d.Spelling) (rest rest' : Bytes), s.report = s'.report →
    valid (s.bytes ++ rest) → valid (s'.bytes ++ rest') →
    decode (s.bytes ++ rest) = decode (s'.bytes ++ rest')
  /-- It finds a report that is cut off too short. -/
  short : ∀ (s : d.Spelling) (message missing : Bytes), s.bytes = message ++ missing →
    missing ≠ [] → valid message → (decode message).TooShort

variable {d : Dialect} {bytes message missing rest : Bytes} {r : Record} {report : Report}

/-! ### Addresses -/

/-- The numbers of the dialect's width are its addresses. -/
structure Dialect.Regular (d : Dialect) : Prop where
  width : ∀ n, (d.address n).width = d.width
  toNat : ∀ n < 256 ^ d.width, (d.address n).toNat = n

theorem Dialect.igmp_regular : Dialect.igmp.Regular := by
  constructor
  · intro n
    rfl
  · intro n bound
    exact Nat.mod_eq_of_lt bound

theorem Dialect.mld_regular : Dialect.mld.Regular := by
  constructor
  · intro n
    rfl
  · intro n bound
    exact Nat.mod_eq_of_lt bound

theorem Dialect.Regular.exists_address (regular : d.Regular) (length : bytes.length = d.width) :
    ∃ a, d.Speaks a ∧ a.toBytes = bytes ∧ a.toNat = bytes.toNat := by
  have bound := Bytes.toNat_lt bytes
  rw [length] at bound
  have number := regular.toNat _ bound
  refine ⟨d.address bytes.toNat, ⟨regular.width _, by rw [number]⟩, ?_, number⟩
  rw [Address.toBytes, regular.width, number, Bytes.ofNat_toNat length]

/-! ### Records -/

theorem Dialect.Entry.consumes (e : d.Entry) : (recordReader d).Consumes e.bytes e.record :=
  e.writes.consumes e.length

theorem exists_entry_of_recordReader (regular : d.Regular)
    (read : recordReader d bytes = .ok (r, rest)) :
    ∃ e : d.Entry, bytes = e.bytes ++ rest ∧ e.record = r := by
  have address (bytes : Bytes) (n : Nat) (rest : Bytes)
      (h : Reader.word (d.recordName ++ " sources") d.width bytes = .ok (n, rest)) :
      ∃ a, d.Speaks a ∧ bytes = a.toBytes ++ rest ∧ a.toNat = n := by
    obtain ⟨front, rfl, width, rfl⟩ := Reader.word_eq_ok_iff_append.1 h
    obtain ⟨a, speaks, rfl, number⟩ := regular.exists_address width
    exact ⟨a, speaks, rfl, number⟩
  obtain ⟨code, _, first, h⟩ := Reader.bind_eq_ok_iff.1 read
  obtain rfl := Reader.u8_eq_ok_iff_append.1 first
  cases known : RecordKind.ofCode? code.toNat with
  | none =>
    rw [known] at h
    nomatch h
  | some kind =>
    obtain rfl := RecordKind.code_of_ofCode? known
    -- the parts of the record, in front of one another
    simp only [known, pure_bind, Reader.bind_eq_ok_iff, Reader.word_eq_ok_iff_append,
      Reader.skip_eq_ok_iff_append, Reader.pure_eq_ok_iff] at h
    obtain ⟨_, _, ⟨units, rfl, one, rfl⟩, _, _, ⟨count, rfl, two, rfl⟩, _, _,
      ⟨group, rfl, width, rfl⟩, _, _, listed, _, _, ⟨auxiliary, rfl, length⟩, rfl, rfl⟩ := h
    -- numbers that were read stand for the bytes that they were read from
    obtain ⟨group, speaks, rfl, number⟩ := regular.exists_address width
    obtain ⟨sources, speak, counted, rfl, rfl⟩ := Reader.exists_of_repeated address listed
    have bound := Bytes.toNat_lt count
    rw [two, ← counted] at bound
    obtain ⟨units, rfl⟩ : ∃ b, units = [b] := ⟨_, Bytes.eq_singleton one⟩
    refine ⟨⟨⟨kind, group, sources⟩, units, auxiliary, ⟨speaks, speak, bound⟩, ?_⟩, ?_, ?_⟩
    · rw [length, Bytes.toNat_singleton]
    · simp only [Dialect.Entry.bytes, recordWith, counted, Bytes.ofNat_toNat two,
        List.append_assoc]
    · rw [Dialect.map_address speak, ← number, speaks.address]

/-! ### Messages -/

/-- The reader of messages whose checksum holds. -/
def Dialect.reader (d : Dialect) : Reader Report := do
  Reader.require d.versionName headerLength
  messageReader d

theorem ofIgmp_of_valid (valid : ControlPacket.igmpChecksum message = 0) :
    ofIgmp message = Dialect.igmp.reader.parse message := by
  simp only [ofIgmp, valid, ne_eq, not_true_eq_false, if_false]
  rfl

theorem ofMld_of_valid {source destination : BitVec 128}
    (valid : ControlPacket.icmpChecksum source destination message = 0) :
    ofMld source destination message = Dialect.mld.reader.parse message := by
  simp only [ofMld, valid, ne_eq, not_true_eq_false, if_false]
  rfl

theorem Dialect.Spelling.consumes (s : d.Spelling) :
    (Report.mk <$> Reader.repeated (recordReader d) s.entries.length).Consumes
      (s.entries.flatMap Entry.bytes) s.report :=
  (Reader.consumes_repeated fun e _ => e.consumes).map Report.mk

theorem Dialect.Spelling.parse (s : d.Spelling) (rest : Bytes) :
    d.reader.parse (s.bytes ++ rest) = .ok s.report := by
  have room : headerLength ≤ (s.bytes ++ rest).length := by
    simp [headerLength, bytes, s.length]
    omega
  have shape : s.bytes ++ rest = [d.messageType] ++ (s.unread ++
      (Bytes.ofNat 2 s.entries.length ++ (s.entries.flatMap Entry.bytes ++ rest))) := by
    simp only [bytes, List.append_assoc]
  rw [reader, Reader.parse_require_bind room, shape, Reader.parse, messageReader_header s.length
    s.number, s.consumes.reads]
  rfl

/-- A report that is cut off is too short. -/
theorem Dialect.Spelling.parse_short (s : d.Spelling) (cut : s.bytes = message ++ missing)
    (some : missing ≠ []) : (d.reader.parse message).TooShort := by
  rcases Nat.lt_or_ge message.length headerLength with short | room
  · exact ⟨d.versionName, headerLength, message.length, Reader.parse_require_of_short short⟩
  · -- the cut is behind the header
    obtain ⟨front, rfl, tail⟩ : ∃ front, message = [d.messageType] ++ (s.unread ++
        (Bytes.ofNat 2 s.entries.length ++ front)) ∧
        s.entries.flatMap Entry.bytes = front ++ missing := by
      have shape : s.bytes = ([d.messageType] ++ (s.unread ++ Bytes.ofNat 2 s.entries.length)) ++
          s.entries.flatMap Entry.bytes := by
        simp only [bytes, List.append_assoc]
      have header : [d.messageType] ++ (s.unread ++ Bytes.ofNat 2 s.entries.length) <+:
          message := by
        refine List.prefix_of_prefix_length_le ⟨_, shape.symm⟩ ⟨_, cut.symm⟩ ?_
        simpa [headerLength, s.length, Nat.add_comm] using room
      obtain ⟨front, rfl⟩ := header
      rw [shape, List.append_assoc _ front] at cut
      exact ⟨front, by simp only [List.append_assoc], List.append_cancel_left cut⟩
    rw [reader, Reader.parse_require_bind room, Reader.parse, messageReader_header s.length
      s.number]
    exact (s.consumes.starves front missing tail some).bind _

/-- What the reader of messages accepts starts with a report. -/
theorem exists_spelling_of_parse (regular : d.Regular)
    (parsed : d.reader.parse message = .ok report) :
    ∃ (s : d.Spelling) (rest : Bytes), message = s.bytes ++ rest ∧ s.report = report := by
  have entry (bytes : Bytes) (r : Record) (rest : Bytes)
      (h : recordReader d bytes = .ok (r, rest)) :
      ∃ e : d.Entry, True ∧ bytes = e.bytes ++ rest ∧ e.record = r := by
    obtain ⟨e, shape, same⟩ := exists_entry_of_recordReader regular h
    exact ⟨e, trivial, shape, same⟩
  obtain ⟨rest, read⟩ := Reader.parse_eq_ok_iff.1 parsed
  obtain ⟨_, _, room, body⟩ := Reader.bind_eq_ok_iff.1 read
  obtain ⟨-, rfl⟩ := Reader.require_eq_ok_iff.1 room
  obtain ⟨_, _, first, afterType⟩ := Reader.bind_eq_ok_iff.1 body
  obtain ⟨type, rfl, one, rfl⟩ := Reader.sureWord_eq_ok_iff_append.1 first
  obtain ⟨known, h⟩ := Reader.ite_reject_eq_ok_iff.1 afterType
  simp only [Reader.bind_eq_ok_iff, Reader.take_eq_ok_iff_append, Reader.sureWord_eq_ok_iff_append,
    Reader.pure_eq_ok_iff] at h
  obtain ⟨unread, _, ⟨rfl, five⟩, _, _, ⟨count, rfl, two, rfl⟩, _, _, listed, rfl, rfl⟩ := h
  obtain ⟨entries, -, counted, rfl, rfl⟩ := Reader.exists_of_repeated entry listed
  have bound := Bytes.toNat_lt count
  rw [two, ← counted] at bound
  refine ⟨⟨unread, entries, five, bound⟩, rest, ?_, rfl⟩
  rw [Bytes.eq_singleton one, not_not.1 known]
  simp only [Dialect.Spelling.bytes, counted, Bytes.ofNat_toNat two, List.append_assoc]

theorem Dialect.Regular.governs (regular : d.Regular) {valid : Bytes → Prop}
    {decode : Bytes → Outcome Report}
    (same : ∀ message, valid message → decode message = d.reader.parse message) :
    d.Governs valid decode := by
  constructor
  · intro message report hvalid
    rw [same message hvalid]
    constructor
    · exact exists_spelling_of_parse regular
    · rintro ⟨s, rest, rfl, rfl⟩
      exact s.parse rest
  · intro s s' rest rest' report hvalid hvalid'
    rw [same _ hvalid, same _ hvalid', s.parse, s'.parse, report]
  · intro s message missing cut some hvalid
    rw [same message hvalid]
    exact s.parse_short cut some

/-- **Exactly the reports are accepted**, among the messages that 32 bits can sum and whose checksum
holds: for IGMPv3 that of the message alone, for MLDv2 that over the addresses it is sent from and
to as well. Auxiliary data and bytes behind the last record have no part in the outcome, and a
report that ends before its last record does is found too short. -/
theorem grammar_accepted :
    Dialect.igmp.Governs
      (fun message => Checksum.Fits32 [message] ∧ ControlPacket.igmpChecksum message = 0) ofIgmp ∧
    ∀ source destination : BitVec 128, Dialect.mld.Governs
      (fun message => Checksum.Fits32
          [Checksum.pseudoHeaderV6 source destination message.length Ip.icmpV6, message] ∧
        ControlPacket.icmpChecksum source destination message = 0)
      (ofMld source destination) := by
  constructor
  · exact Dialect.igmp_regular.governs fun message valid => ofIgmp_of_valid valid.2
  · intro source destination
    exact Dialect.mld_regular.governs fun message valid => ofMld_of_valid valid.2

/-- A record with auxiliary data, in a report that a byte follows, and in one that is cut off
within the auxiliary data. -/
theorem grammar_accepted_auxiliary :
    let r : Record := ⟨.allow, .ofOctets 232 1 1 1, [.ofOctets 10 0 0 1]⟩
    let spelled : Bytes := [5, 1, 0, 1, 232, 1, 1, 1, 10, 0, 0, 1]
    ofIgmp ([0x22, 0, 216, 242, 0, 0, 0, 1] ++ spelled ++ [1, 2, 3, 4] ++ [9]) = .ok ⟨[r]⟩ ∧
      (ofIgmp ([0x22, 0, 228, 246, 0, 0, 0, 1] ++ spelled ++ [1, 2])).TooShort := by
  intro r spelled
  have writes : Dialect.igmp.Writes r := by
    refine ⟨Dialect.igmp_speaks rfl, ?_, by decide⟩
    intro s hs
    exact Dialect.igmp_speaks (by simp_all [r, Address.ofOctets, Address.isV4])
  let entry : Dialect.igmp.Entry := ⟨r, 1, [1, 2, 3, 4], writes, rfl⟩
  have shape : [entry].flatMap Dialect.Entry.bytes = spelled ++ [1, 2, 3, 4] := by
    show recordWith 1 [1, 2, 3, 4] ⟨.allow, .ofOctets 232 1 1 1, [.ofOctets 10 0 0 1]⟩ ++ [] = _
    decide +kernel
  have count : Bytes.ofNat 2 [entry].length = [0, 1] := by
    show Bytes.ofNat 2 1 = _
    decide +kernel
  obtain ⟨exactly, -, short⟩ := grammar_accepted.1
  constructor
  · refine (exactly _ _ ⟨Checksum.fits32_of_length (by decide), by decide +kernel⟩).2
      ⟨⟨[0, 216, 242, 0, 0], [entry], rfl, by simp⟩, [9], ?_, rfl⟩
    rw [Dialect.Spelling.bytes, shape, count]
    rfl
  · refine short ⟨[0, 228, 246, 0, 0], [entry], rfl, by simp⟩ _ [3, 4] ?_ (by decide)
      ⟨Checksum.fits32_of_length (by decide), by decide +kernel⟩
    rw [Dialect.Spelling.bytes, shape, count]
    rfl

end Report

end MulticastTunnel
