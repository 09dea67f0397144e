import MulticastTunnel.Proofs.Ip.Grammar

/-!
# Where a packet ends

The length of a packet is read twice: once together with the packet, and once alone, from its
header, with fewer checks. A packet that is accepted ends where its header alone says, and nothing
behind that end has a part in what is read from it.

* `IpPacket.WellFormedV4.alike`, `IpPacket.WellFormedV6.alike` : a packet is told by its bytes.
* `IpPacket.exists_extent` : the two readers agree on the end of a packet.
* `IpPacket.declaredLength_bytesV4`, `IpPacket.declaredLength_bytesV6` : packets that were written
  end where their headers say.
* `IpPacket.parse_cut_iff` : a packet that was cut out of others is the one that was there.
-/

namespace MulticastTunnel

theorem Bytes.between_alike {start stop n : Nat} {bytes other : Bytes}
    (alike : other.take n = bytes.take n) (within : stop ≤ n) :
    other.between start stop = bytes.between start stop := by
  have upTo (b : Bytes) : b.between start stop = ((b.take n).take stop).drop start := by
    rw [List.take_take, Nat.min_eq_left within, List.drop_take]
    rfl
  rw [upTo, alike, ← upTo]

theorem Bytes.field_alike {start stop n : Nat} {bytes other : Bytes}
    (alike : other.take n = bytes.take n) (within : stop ≤ n) :
    other.field start stop = bytes.field start stop := by
  rw [field, between_alike alike within, field]

namespace IpPacket

variable {bytes other rest upper packet trailer : Bytes} {p : IpPacket} {header protocol : UInt8}

/-! ### Packets and what follows them -/

/-- An IPv4 packet is told by the bytes that it declares. -/
theorem WellFormedV4.alike (h : WellFormedV4 bytes)
    (alike : other.take (HeaderV4.total bytes) = bytes.take (HeaderV4.total bytes))
    (room : HeaderV4.total bytes ≤ other.length) :
    WellFormedV4 other ∧ packetV4 other = packetV4 bytes := by
  have long : 20 ≤ HeaderV4.total bytes := Nat.le_trans h.options h.payload
  have field {start stop : Nat} (within : stop ≤ 20) :
      other.field start stop = bytes.field start stop :=
    Bytes.field_alike alike (Nat.le_trans within long)
  have length : HeaderV4.length other = HeaderV4.length bytes := by
    rw [HeaderV4.length, field (by decide), HeaderV4.length]
  have total : HeaderV4.total other = HeaderV4.total bytes := field (by decide)
  have front : other.take (HeaderV4.length bytes) = bytes.take (HeaderV4.length bytes) :=
    @Bytes.between_alike 0 _ _ _ _ alike h.payload
  constructor
  · constructor
    · rw [IpPacket.version, field (by decide), ← IpPacket.version, h.version]
    · exact Nat.le_trans long room
    · rw [length]
      exact h.options
    · rw [length, total]
      exact h.payload
    · rw [total]
      exact room
    · rw [HeaderV4.moreFragments, field (by decide), ← HeaderV4.moreFragments, h.last]
    · rw [HeaderV4.fragmentOffset, field (by decide), ← HeaderV4.fragmentOffset, h.first]
    · rw [length, front, h.valid]
  · rw [packetV4, length, total, field (by decide), field (by decide), field (by decide),
      Bytes.between_alike alike le_rfl, packetV4]

theorem WellFormedV6.alike (h : WellFormedV6 bytes protocol upper)
    (alike : other.take (Ip.headerLengthV6 + HeaderV6.payloadLength bytes) =
      bytes.take (Ip.headerLengthV6 + HeaderV6.payloadLength bytes))
    (room : Ip.headerLengthV6 + HeaderV6.payloadLength bytes ≤ other.length) :
    WellFormedV6 other protocol upper ∧
      packetV6 other protocol upper = packetV6 bytes protocol upper := by
  have field {start stop : Nat} (within : stop ≤ 40) :
      other.field start stop = bytes.field start stop :=
    Bytes.field_alike alike (Nat.le_trans within (Nat.le_add_right ..))
  have length : HeaderV6.payloadLength other = HeaderV6.payloadLength bytes := field (by decide)
  have next : HeaderV6.next other = HeaderV6.next bytes := by
    rw [HeaderV6.next, field (by decide), HeaderV6.next]
  have payload : HeaderV6.payload other = HeaderV6.payload bytes := by
    rw [HeaderV6.payload, length, Bytes.between_alike alike le_rfl, HeaderV6.payload]
  have framed : FramedV6 other := by
    constructor
    · rw [IpPacket.version, field (by decide), ← IpPacket.version, h.version]
    · exact Nat.le_trans (Nat.le_add_right ..) room
    · rw [length]
      exact h.declared
    · rw [length]
      exact room
  refine ⟨⟨framed, ?_, h.passed, h.whole⟩, ?_⟩
  · rw [next, payload]
    exact h.chain
  · rw [packetV6, field (by decide), field (by decide), packetV6]

theorem Leads.isSuffix (h : Leads header bytes protocol upper) : upper <:+ bytes := by
  induction h with
  | arrived => exact List.suffix_rfl
  | passed _ _ _ ih =>
    exact (ih.trans (List.suffix_append ..)).trans
      ((List.suffix_cons ..).trans (List.suffix_cons ..))

/-! ### The declared end -/

theorem declares_of_version_four (four : version bytes = 4) :
    declares bytes = some (Ip.headerLengthV4, HeaderV4.total bytes) := by
  cases bytes with
  | nil => cases four
  | cons first rest =>
    rw [version_cons] at four
    simp only [declares, four]
    rfl

theorem declares_of_version_six (six : version bytes = 6) :
    declares bytes = some (Ip.headerLengthV6,
      Ip.headerLengthV6 + HeaderV6.payloadLength bytes) := by
  cases bytes with
  | nil => cases six
  | cons first rest =>
    rw [version_cons] at six
    simp only [declares, six]
    rfl

theorem WellFormedV4.declaredLength (h : WellFormedV4 bytes) :
    declaredLength bytes = .ok (HeaderV4.total bytes) :=
  declaredLength_eq_ok_iff.2 ⟨_, declares_of_version_four h.version, h.fixed, h.present⟩

theorem FramedV6.declaredLength (h : FramedV6 bytes) :
    declaredLength bytes = .ok (Ip.headerLengthV6 + HeaderV6.payloadLength bytes) :=
  declaredLength_eq_ok_iff.2 ⟨_, declares_of_version_six h.version, h.fixed, h.present⟩

theorem WellFormedV6.reaches (h : WellFormedV6 bytes protocol upper) :
    ∃ start ≤ Ip.headerLengthV6 + HeaderV6.payloadLength bytes,
      upper = bytes.between start (Ip.headerLengthV6 + HeaderV6.payloadLength bytes) := by
  obtain ⟨passed, payload⟩ := h.chain.isSuffix
  have length := congrArg List.length payload
  rw [List.length_append, length_payload h.toFramedV6] at length
  -- it starts behind the headers that were passed
  refine ⟨Ip.headerLengthV6 + passed.length, by omega, ?_⟩
  have behind : upper = (HeaderV6.payload bytes).drop passed.length := by
    rw [← payload, List.drop_left]
  rw [behind, HeaderV6.payload, Bytes.between, Bytes.between, List.drop_take, List.drop_drop]
  congr 1
  omega

/-- **The two readers agree on the end of a packet.** The header alone declares the end of a packet
that is accepted. The end lies within the bytes, the payload reaches exactly to it, and any bytes
that are alike down to there hold the same packet. -/
theorem exists_extent (h : parse bytes = .ok p) : ∃ n, declaredLength bytes = .ok n ∧
    n ≤ bytes.length ∧ (∃ start ≤ n, p.payload = bytes.between start n) ∧
    ∀ other : Bytes, other.take n = bytes.take n → n ≤ other.length → parse other = .ok p := by
  rcases parse_eq_ok_iff.1 h with ⟨w, rfl⟩ | ⟨protocol, upper, w, rfl⟩
  · refine ⟨_, w.declaredLength, w.present, ⟨_, w.payload, rfl⟩, ?_⟩
    intro other alike room
    obtain ⟨w', same⟩ := w.alike alike room
    exact parse_eq_ok_iff.2 (.inl ⟨w', same.symm⟩)
  · refine ⟨_, w.toFramedV6.declaredLength, w.present, w.reaches, ?_⟩
    intro other alike room
    obtain ⟨w', same⟩ := w.alike alike room
    exact parse_eq_ok_iff.2 (.inr ⟨protocol, upper, w', same.symm⟩)

/-- A packet that was cut out where its header says, and is read, ends there. -/
theorem declaredLength_cut (ends : declaredLength (packet ++ trailer) = .ok packet.length)
    (parsed : parse packet = .ok p) : declaredLength packet = .ok packet.length := by
  obtain ⟨n, declared, -⟩ := exists_extent parsed
  have whole := declaredLength_append declared trailer
  obtain rfl : packet.length = n := Except.ok.inj (ends.symm.trans whole)
  exact declared

theorem declaredLength_take {length : Nat} (h : declaredLength bytes = .ok length)
    (parsed : parse (bytes.take length) = .ok p) :
    declaredLength (bytes.take length) = .ok (bytes.take length).length := by
  obtain ⟨_, -, -, room⟩ := declaredLength_eq_ok_iff.1 h
  have ends : declaredLength (bytes.take length ++ bytes.drop length) =
      .ok (bytes.take length).length := by
    rw [List.take_append_drop, List.length_take_of_le room, h]
  exact declaredLength_cut ends parsed

theorem parse_append (h : parse (packet ++ trailer) = .ok p)
    (ends : declaredLength (packet ++ trailer) = .ok packet.length) (extra : Bytes) :
    parse (packet ++ extra) = .ok p ∧ declaredLength (packet ++ extra) = .ok packet.length := by
  obtain ⟨n, declared, -, -, same⟩ := exists_extent h
  obtain rfl : packet.length = n := Except.ok.inj (ends.symm.trans declared)
  have parsed (extra : Bytes) : parse (packet ++ extra) = .ok p :=
    same _ (by rw [List.take_left, List.take_left]) (by simp)
  have alone := parsed []
  rw [List.append_nil] at alone
  exact ⟨parsed extra, declaredLength_append (declaredLength_cut ends alone) extra⟩

/-- A packet that was cut out where its header says is the one that was there. -/
theorem parse_cut_iff (ends : declaredLength (packet ++ trailer) = .ok packet.length) :
    parse packet = .ok p ↔ parse (packet ++ trailer) = .ok p := by
  constructor
  · intro parsed
    have alone : declaredLength (packet ++ []) = .ok packet.length := by
      rw [List.append_nil]
      exact declaredLength_cut ends parsed
    rw [← List.append_nil packet] at parsed
    exact (parse_append parsed alone trailer).1
  · intro inPlace
    have cut := (parse_append inPlace ends []).1
    rwa [List.append_nil] at cut

/-! ### Packets that were written -/

theorem declaredLength_bytesV4 {fields : Ip.FieldsV4} {payload : Bytes} {sum : UInt16}
    (aligned : fields.options.length % 4 = 0) (short : fields.options.length ≤ 40)
    (fits : fields.headerLength + payload.length < 2 ^ 16)
    (valid : Checksum.internet [fields.bytes payload.length sum] = 0) :
    declaredLength (fields.bytes payload.length sum ++ payload) =
      .ok (fields.bytes payload.length sum ++ payload).length := by
  obtain ⟨wellFormed, total⟩ := wellFormed_bytesV4 aligned short fits valid []
  rw [List.append_nil] at wellFormed total
  rw [wellFormed.declaredLength, total, List.length_append, Ip.FieldsV4.length_bytes]

theorem declaredLength_bytesV6 {fields : Ip.FieldsV6} {payload : Bytes} (pos : 0 < payload.length)
    (fits : payload.length < 2 ^ 16) :
    declaredLength (fields.bytes payload.length ++ payload) =
      .ok (fields.bytes payload.length ++ payload).length := by
  obtain ⟨framed, declared⟩ := framed_bytesV6 fields pos fits []
  rw [List.append_nil] at framed declared
  rw [framed.declaredLength, declared, List.length_append, Ip.FieldsV6.length_bytes]

end IpPacket

end MulticastTunnel
