import MulticastTunnel.Proofs.Bytes.Consuming
import MulticastTunnel.Proofs.Ip.Control
import MulticastTunnel.Proofs.Report.Split
import MulticastTunnel.Report.Wire

/-!
# Reports as they are written

What `Report.encode` makes of a report, and what `Report.decode` reads from it.

* `Report.Dialect.Writes.consumes` : a record is read back, whatever its auxiliary data are.
* `Report.encode_roundtrip` : the only reasons for a report not to be written are an address that
  is not of the reporter's family, and a length that does not fit a packet; otherwise the packet
  is read back as the same report.
-/

namespace MulticastTunnel

namespace Address

theorem toNat_lt (a : Address) : a.toNat < 256 ^ a.width := by
  cases a with
  | v4 bits => exact bits.isLt
  | v6 bits => exact bits.isLt

end Address

namespace Report

variable {d : Dialect} {a : Address} {r : Record} {records : List Record}

/-! ### Addresses -/

/-- The address is one of the dialect's family: it takes as many bytes as the dialect's addresses
do, and is the one with its bits. -/
structure Dialect.Speaks (d : Dialect) (a : Address) : Prop where
  width : a.width = d.width
  address : d.address a.toNat = a

theorem Dialect.igmp_speaks (h : a.isV4 = true) : Dialect.igmp.Speaks a := by
  cases a with
  | v4 bits => exact ⟨rfl, by simp [igmp, Address.toNat]⟩
  | v6 bits => cases h

theorem Dialect.mld_speaks (h : a.isV4 = false) : Dialect.mld.Speaks a := by
  cases a with
  | v4 bits => cases h
  | v6 bits => exact ⟨rfl, by simp [mld, Address.toNat]⟩

theorem Dialect.Speaks.consumes {what : String} (h : d.Speaks a) :
    (Reader.word what d.width).Consumes a.toBytes a.toNat := by
  rw [← h.width]
  exact Reader.consumes_word_ofNat a.toNat_lt

theorem Dialect.map_address {sources : List Address} (h : ∀ s ∈ sources, d.Speaks s) :
    (sources.map Address.toNat).map d.address = sources := by
  rw [List.map_map]
  exact (List.map_congr_left fun s hs => (h s hs).address).trans (List.map_id _)

/-! ### Records -/

/-- A record that the dialect can write: all addresses are of its family, and the number of
sources fits its field. -/
structure Dialect.Writes (d : Dialect) (r : Record) : Prop where
  group : d.Speaks r.group
  sources : ∀ s ∈ r.sources, d.Speaks s
  count : r.sources.length < 2 ^ 16

/-- The bytes of a record. -/
def recordBody (r : Record) : Bytes :=
  [r.kind.code] ++ ([0] ++ (Bytes.ofNat 2 r.sources.length ++ (r.group.toBytes ++
    r.sources.flatMap Address.toBytes)))

theorem Dialect.Writes.recordBytes (h : d.Writes r) : recordBytes r = .ok (recordBody r) := by
  simp only [Report.recordBytes, Outcome.fitting_of_lt h.count, Outcome.ok_bind, recordBody,
    List.append_assoc]
  rfl

theorem length_flatMap_toBytes {sources : List Address} (h : ∀ s ∈ sources, d.Speaks s) :
    (sources.flatMap Address.toBytes).length = d.width * sources.length := by
  induction sources with
  | nil => rfl
  | cons s rest ih =>
    rw [List.flatMap_cons, List.length_append, Address.length_toBytes,
      (h s List.mem_cons_self).width, ih fun s hs => h s (List.mem_cons_of_mem _ hs),
      List.length_cons, Nat.mul_succ, Nat.add_comm]

theorem Dialect.Writes.length_recordBody (h : d.Writes r) :
    (recordBody r).length = r.encodedLength := by
  simp [recordBody, Record.encodedLength, length_flatMap_toBytes h.sources, h.group.width,
    Nat.mul_add]
  omega

/-- The bytes of a record with auxiliary data, whose length is told in units of four bytes. -/
def recordWith (units : UInt8) (auxiliary : Bytes) (r : Record) : Bytes :=
  [r.kind.code] ++ ([units] ++ (Bytes.ofNat 2 r.sources.length ++ (r.group.toBytes ++
    (r.sources.flatMap Address.toBytes ++ auxiliary))))

/-- **A record is read back**, whatever its auxiliary data are. -/
theorem Dialect.Writes.consumes (h : d.Writes r) {units : UInt8} {auxiliary : Bytes}
    (length : auxiliary.length = units.toNat * 4) :
    (recordReader d).Consumes (recordWith units auxiliary r) r := by
  unfold recordReader recordWith
  refine (Reader.consumes_u8 _).bind ?_
  simp only [RecordKind.ofCode?_code, pure_bind]
  refine Reader.Consumes.bind (Reader.consumes_word rfl) ?_
  refine Reader.Consumes.bind (Reader.consumes_word_ofNat h.count) ?_
  refine Reader.Consumes.bind h.group.consumes ?_
  refine Reader.Consumes.bind
    (Reader.consumes_repeated fun s hs => (h.sources s hs).consumes) ?_
  rw [Dialect.map_address h.sources, h.group.address, Bytes.toNat_singleton]
  exact (Reader.consumes_skip length).map fun _ => r

theorem Dialect.Writes.reads (h : d.Writes r) : (recordReader d).Reads (recordBody r) r := by
  have none : recordWith 0 [] r = recordBody r := by simp [recordWith, recordBody]
  rw [← none]
  exact (h.consumes rfl).reads

/-! ### Messages -/

/-- The bytes of a message behind its checksum. -/
def messageTail (records : List Record) : Bytes :=
  [0, 0] ++ (Bytes.ofNat 2 records.length ++ records.flatMap recordBody)

theorem mapM_recordBytes (h : ∀ r ∈ records, d.Writes r) :
    records.mapM recordBytes = .ok (records.map recordBody) :=
  Outcome.mapM_eq_ok fun r hr => (h r hr).recordBytes

theorem length_messageTail (h : ∀ r ∈ records, d.Writes r) :
    (messageTail records).length = 4 + recordsLength records := by
  have parts : (records.flatMap recordBody).length = recordsLength records := by
    induction records with
    | nil => rfl
    | cons r rest ih =>
      rw [List.flatMap_cons, List.length_append, (h r List.mem_cons_self).length_recordBody,
        ih fun r hr => h r (List.mem_cons_of_mem _ hr)]
      rfl
  simp [messageTail, parts]
  omega

theorem message_eq (h : ∀ r ∈ records, d.Writes r) (number : records.length < 2 ^ 16) :
    message d.messageType records =
      .ok ([d.messageType, 0] ++ [0, 0] ++ messageTail records) := by
  rw [message, Outcome.fitting_of_lt number, mapM_recordBytes h]
  simp only [Outcome.ok_bind, messageTail, List.flatMap_def]
  rfl

/-- The header of a message tells the type and the number of the records that follow; the other
bytes in it are not looked at. -/
theorem messageReader_header {unread : Bytes} {n : Nat} (length : unread.length = 5)
    (number : n < 2 ^ 16) (tail : Bytes) :
    messageReader d ([d.messageType] ++ (unread ++ (Bytes.ofNat 2 n ++ tail))) =
      (Report.mk <$> Reader.repeated (recordReader d) n) tail := by
  have first : (Reader.sureWord 1).Reads [d.messageType] _ := Reader.reads_sureWord rfl
  unfold messageReader
  rw [Reader.bind_apply, first]
  simp only [Outcome.ok_bind, Bytes.ofNat_toNat_singleton, ne_eq, not_true_eq_false, if_false]
  rw [Reader.bind_apply, Reader.reads_take length, Outcome.ok_bind, Reader.bind_apply,
    Reader.reads_sureWord_ofNat number]
  rfl

/-- **A message is read back**, whatever its checksum. -/
theorem reads_message (h : ∀ r ∈ records, d.Writes r) (number : records.length < 2 ^ 16)
    (sum : UInt16) : (messageReader d).Reads
      ([d.messageType, 0] ++ Bytes.ofNat 2 sum.toNat ++ messageTail records) ⟨records⟩ := by
  have parts := Reader.reads_repeated (f := id) fun r hr => (h r hr).reads
  rw [List.map_id] at parts
  intro rest
  have shape : [d.messageType, 0] ++ Bytes.ofNat 2 sum.toNat ++ messageTail records ++ rest =
      [d.messageType] ++ ((0 :: Bytes.ofNat 2 sum.toNat ++ [0, 0]) ++
        (Bytes.ofNat 2 records.length ++ (records.flatMap recordBody ++ rest))) := by
    simp [messageTail]
  rw [shape, messageReader_header (by simp) number]
  exact parts.map Report.mk rest

/-! ### Reports -/

/-- All groups and sources are of the same family as an address. -/
def OfFamily (report : Report) (a : Address) : Prop :=
  ∀ r ∈ report.records, ∀ b ∈ r.group :: r.sources, b.isV4 = a.isV4

theorem familyConflict_eq_none_iff {report : Report} {reporter : Address} :
    report.familyConflict reporter = none ↔ report.OfFamily reporter := by
  have conflict (r : Record) : recordConflict reporter r = none ↔
      ∀ b ∈ r.group :: r.sources, b.isV4 = reporter.isV4 := by
    simp only [recordConflict, Address.sameFamily, List.forall_mem_cons]
    by_cases same : r.group.isV4 = reporter.isV4 <;> simp [same, List.find?_eq_none]
  simp only [familyConflict, List.findSome?_eq_none_iff, conflict, OfFamily]

theorem eight_le_encodedLength (r : Record) : 8 + r.sources.length ≤ r.encodedLength := by
  have width : 4 ≤ r.group.width := by cases r.group <;> simp [Address.width]
  have : 4 * (1 + r.sources.length) ≤ r.group.width * (1 + r.sources.length) :=
    Nat.mul_le_mul_right _ width
  rw [Record.encodedLength]
  omega

theorem eight_mul_length_le (records : List Record) :
    8 * records.length ≤ recordsLength records := by
  induction records with
  | nil => rfl
  | cons r rest ih =>
    have := eight_le_encodedLength r
    simp only [recordsLength, List.length_cons]
    omega

theorem OfFamily.writes {report : Report} {reporter : Address} (h : report.OfFamily reporter)
    (fits : report.encodedLength ≤ maxLength)
    (speaks : ∀ a : Address, a.isV4 = reporter.isV4 → d.Speaks a) :
    ∀ r ∈ report.records, d.Writes r := by
  intro r hr
  refine ⟨speaks _ (h r hr _ List.mem_cons_self),
    fun s hs => speaks _ (h r hr s (List.mem_cons_of_mem _ hs)), ?_⟩
  have here := encodedLength_le_recordsLength hr
  have count := eight_le_encodedLength r
  simp only [encodedLength, headerLength, maxLength] at fits
  omega

variable {report : Report}

theorem parse_message (h : ∀ r ∈ records, d.Writes r) (number : records.length < 2 ^ 16)
    {what name : String} {sum check : UInt16} (valid : check = 0) : Reader.parse (do
        Reader.require what headerLength
        if check ≠ 0 then
          Reader.reject (.checksumMismatch name)
        messageReader d)
      ([d.messageType, 0] ++ Bytes.ofNat 2 sum.toNat ++ messageTail records) = .ok ⟨records⟩ := by
  have room : headerLength ≤
      ([d.messageType, 0] ++ Bytes.ofNat 2 sum.toNat ++ messageTail records).length := by
    simp [headerLength, length_messageTail h]
    omega
  have read := (reads_message h number sum).parse []
  rw [List.append_nil] at read
  rw [Reader.parse_require_bind room, if_neg (by simpa using valid)]
  exact read

/-- The length of the headers in front of a report for a reporter of a family. -/
def packetOverhead (isV4 : Bool) : Nat := if isV4 then 24 else 48

/-- **A report is written, and read back**, if it fits and all addresses are of the reporter's
family. The message in the packet has the length that was told before, and stands behind the
headers. -/
theorem exists_encode_eq {reporter : Address} (family : report.OfFamily reporter)
    (fits : report.encodedLength ≤ maxLength) : ∃ packet message,
      report.encode reporter = .ok packet ∧ decode packet = .ok report ∧
      IpPacket.declaredLength packet = .ok packet.length ∧
      ControlPacket.message packet = .ok message ∧ message.length = report.encodedLength ∧
      packet.length = packetOverhead reporter.isV4 + report.encodedLength := by
  have short : ¬ maxLength < report.encodedLength := Nat.not_lt.2 fits
  have number : report.records.length < 2 ^ 16 := by
    have := eight_mul_length_le report.records
    simp only [encodedLength, headerLength, maxLength] at fits
    omega
  have total {type : UInt8} {sum : UInt16} (length : (messageTail report.records).length =
      4 + recordsLength report.records) : ([type, 0] ++ Bytes.ofNat 2 sum.toNat ++
        messageTail report.records).length = report.encodedLength := by
    simp [length, encodedLength, headerLength]
    omega
  simp only [encode, familyConflict_eq_none_iff.2 family, short, if_false]
  simp only [encodedLength, headerLength, maxLength] at fits
  cases reporter with
  | v4 source =>
    have writes := family.writes fits fun a ha => Dialect.igmp_speaks ha
    have length := length_messageTail writes
    obtain ⟨packet, sum, written, carries⟩ := ControlPacket.igmp_carries source destinationV4
      (rfl : [Dialect.igmp.messageType, 0].length = 2)
      (by omega : (messageTail report.records).length < 65508)
    rw [message_eq writes number]
    exact ⟨packet, _, written, (carries.read _ _).trans (parse_message writes number carries.valid),
      carries.declared, carries.read _ _, total length, total length ▸ carries.length⟩
  | v6 source =>
    have writes := family.writes fits fun a ha => Dialect.mld_speaks ha
    have length := length_messageTail writes
    obtain ⟨packet, sum, written, carries⟩ := ControlPacket.icmp_carries source destinationV6
      (rfl : [Dialect.mld.messageType, 0].length = 2)
      (by omega : (messageTail report.records).length < 65524)
    rw [message_eq writes number]
    exact ⟨packet, _, written, (carries.read _ _).trans (parse_message writes number carries.valid),
      carries.declared, carries.read _ _, total length, total length ▸ carries.length⟩

theorem encode_of_conflict {reporter : Address} (h : ¬ report.OfFamily reporter) :
    ∃ a b, report.encode reporter = .error (.malformed (.familyMismatch a b)) := by
  obtain ⟨⟨a, b⟩, conflict⟩ :=
    Option.ne_none_iff_exists'.1 fun none => h (familyConflict_eq_none_iff.1 none)
  exact ⟨a, b, by simp only [encode, conflict]; rfl⟩

theorem encode_of_long {reporter : Address} (family : report.OfFamily reporter)
    (long : maxLength < report.encodedLength) : report.encode reporter = .error (.malformed
      (.lengthOutOfBounds "membership report" report.encodedLength maxLength)) := by
  simp only [encode, familyConflict_eq_none_iff.2 family, if_pos long]
  rfl

/-- **Exactly two things keep a report from being written**: an address that is not of the
reporter's family, and failing that, a length that does not fit a packet. Any other report has a
packet that ends where its header says, and is read back as the same report. -/
theorem encode_roundtrip (report : Report) (reporter : Address) :
    ((∃ a b, report.encode reporter = .error (.malformed (.familyMismatch a b))) ↔
      ¬ report.OfFamily reporter) ∧
    (report.encode reporter = .error (.malformed
        (.lengthOutOfBounds "membership report" report.encodedLength maxLength)) ↔
      report.OfFamily reporter ∧ maxLength < report.encodedLength) ∧
    ((∃ packet, report.encode reporter = .ok packet ∧ decode packet = .ok report ∧
        IpPacket.declaredLength packet = .ok packet.length) ↔
      report.OfFamily reporter ∧ report.encodedLength ≤ maxLength) := by
  by_cases family : report.OfFamily reporter
  · rcases Nat.lt_or_ge maxLength report.encodedLength with long | fits
    · have encoded := encode_of_long family long
      simp [encoded, family, long]
    · obtain ⟨packet, -, encoded, decoded, declared, -⟩ := exists_encode_eq family fits
      simp [encoded, decoded, declared, family, fits]
  · obtain ⟨a, b, encoded⟩ := encode_of_conflict family
    simp [encoded, family]

end Report

end MulticastTunnel
