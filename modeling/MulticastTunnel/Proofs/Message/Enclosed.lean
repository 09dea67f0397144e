import MulticastTunnel.Proofs.Message.Wire

/-!
# Queries in messages

A membership query encloses the packet of a query, and the address of the gateway may stand behind
it. The packet is cut out where its header says, before it is read as a packet. What is read from
it is what would have been read in place, whatever stands behind it.

* `Message.exists_enclosing` : where the packet stands in a membership query.
* `Query.decode_cut_iff`, `Query.decode_append` : a query is read from the packet that was cut out
  as it would be in place.
* `Message.lengths_agree` : **the two readers of lengths agree**.
-/

namespace MulticastTunnel

namespace Query

variable {packet trailer : Bytes}

/-- What a packet tells about a query depends on what there is to read from the packet. -/
theorem decode_congr {other : Bytes} (h : IpPacket.parse other = IpPacket.parse packet) :
    decode other = decode packet := by
  rw [decode, ControlPacket.read, h]
  rfl

theorem decode_append {p : IpPacket} (h : IpPacket.parse (packet ++ trailer) = .ok p)
    (ends : IpPacket.declaredLength (packet ++ trailer) = .ok packet.length) (extra : Bytes) :
    decode (packet ++ extra) = decode (packet ++ trailer) :=
  decode_congr ((IpPacket.parse_append h ends extra).1.trans h.symm)

/-- A query is read from a packet that was cut out exactly if it is read in place. -/
theorem decode_cut_iff {q : Query}
    (ends : IpPacket.declaredLength (packet ++ trailer) = .ok packet.length) :
    decode packet = .ok q ↔ decode (packet ++ trailer) = .ok q := by
  constructor
  · intro h
    obtain ⟨p, parsed⟩ := Message.exists_parse_of_decode h
    have same := ((IpPacket.parse_cut_iff ends).1 parsed).trans parsed.symm
    rwa [decode_congr same]
  · intro h
    obtain ⟨p, parsed⟩ := Message.exists_parse_of_decode h
    have same := ((IpPacket.parse_cut_iff ends).2 parsed).trans parsed.symm
    rwa [decode_congr same]

end Query

namespace Message

variable {datagram bytes packet rest : Bytes} {kind : MessageKind} {limited : Bool}
variable {mac : ResponseMac} {nonce : UInt32} {gateway : Option GatewayAddress}

theorem eq_query_of_bodyReader
    (h : bodyReader kind bytes = .ok (query limited mac nonce packet gateway, rest)) :
    kind = .query := by
  cases kind with
  | query => rfl
  | advertisement =>
    simp only [bodyReader, Reader.bind_eq_ok_iff] at h
    obtain ⟨_, _, -, _, _, -, left, _, -, h⟩ := h
    -- the reader is chosen by what is left
    obtain ⟨r, choice, h⟩ : ∃ r : Reader Message, r = _ ∧ r _ = .ok (query _ _ _ _ _, _) :=
      ⟨_, rfl, h⟩
    split at choice
    all_goals
      subst choice
      simp [Reader.map_eq_ok_iff, Reader.reject] at h
  | _ => simp [bodyReader, Reader.bind_eq_ok_iff, Reader.map_eq_ok_iff] at h

/-- The packet of a membership query stands behind flags, authentication code and nonce, and ends
where its header says. -/
theorem exists_enclosing (h : decode datagram = .ok (query limited mac nonce packet gateway)) :
    ∃ head trailer, datagram = head ++ (packet ++ trailer) ∧ head.length = 12 ∧
      IpPacket.declaredLength (packet ++ trailer) = .ok packet.length := by
  obtain ⟨kind, first, bytes, rest, rfl, body⟩ := exists_body_of_decode h
  obtain rfl := eq_query_of_bodyReader body
  obtain ⟨flags, _, readFlags, behindFlags⟩ := Reader.bind_eq_ok_iff.1 body
  obtain ⟨mac', _, readMac, behindMac⟩ := Reader.bind_eq_ok_iff.1 behindFlags
  obtain ⟨nonce', _, readNonce, behindNonce⟩ := Reader.bind_eq_ok_iff.1 behindMac
  obtain rfl := Reader.u8_eq_ok_iff_append.1 readFlags
  obtain ⟨code, rfl, six⟩ := exists_front_of_macReader readMac
  obtain ⟨_, readNumber, -⟩ := Reader.map_eq_ok_iff.1 readNonce
  obtain ⟨number, rfl, four, -⟩ := Reader.word_eq_ok_iff_append.1 readNumber
  simp only [Reader.bind_eq_ok_iff, Reader.rest_eq_ok_iff, Reader.liftM_eq_ok_iff,
    Reader.take_eq_ok_iff_append] at behindNonce
  obtain ⟨_, _, ⟨rfl, rfl⟩, n, _, ⟨declared, rfl⟩, packet', trailer, ⟨rfl, rfl⟩, made⟩ :=
    behindNonce
  obtain rfl : packet' = packet := by
    split at made
    all_goals
      obtain ⟨_, _, -, made⟩ := Reader.bind_eq_ok_iff.1 made
      exact (query.inj (Reader.pure_eq_ok_iff.1 made).1).2.2.2.1.symm
  refine ⟨[first] ++ [flags] ++ code ++ number, trailer, ?_, ?_, declared⟩
  · simp only [List.append_assoc]
  · simp only [List.length_append, List.length_singleton, six, four]

/-- **The two readers of lengths agree.** The header of a packet that is accepted declares where it
ends: within the bytes, and exactly where the payload does. The same packet is read whatever stands
behind that end. So the packet that is cut out of a membership query, which ends where its header
says, tells the same query that it tells in place, whatever trailer stands behind it. -/
theorem lengths_agree :
    (∀ (bytes : Bytes) (p : IpPacket), IpPacket.parse bytes = .ok p → ∃ n,
      IpPacket.declaredLength bytes = .ok n ∧ n ≤ bytes.length ∧
      (∃ start ≤ n, p.payload = bytes.between start n) ∧
      ∀ extra : Bytes, IpPacket.parse (bytes.take n ++ extra) = .ok p) ∧
    ∀ datagram limited mac nonce packet gateway,
      decode datagram = .ok (query limited mac nonce packet gateway) → ∃ head trailer,
        datagram = head ++ (packet ++ trailer) ∧ head.length = 12 ∧
        IpPacket.declaredLength (packet ++ trailer) = .ok packet.length ∧
        (∀ q, Query.decode packet = .ok q ↔ Query.decode (packet ++ trailer) = .ok q) ∧
        ∀ p, IpPacket.parse (packet ++ trailer) = .ok p → ∀ extra : Bytes,
          IpPacket.declaredLength (packet ++ extra) = .ok packet.length ∧
          IpPacket.parse (packet ++ extra) = .ok p ∧
          Query.decode (packet ++ extra) = Query.decode (packet ++ trailer) := by
  constructor
  · intro bytes p h
    obtain ⟨n, declared, room, payload, same⟩ := IpPacket.exists_extent h
    refine ⟨n, declared, room, payload, fun extra => same _ ?_ ?_⟩
    · rw [List.take_append_of_le_length (by simp [room]), List.take_take, Nat.min_self]
    · rw [List.length_append, List.length_take_of_le room]
      exact Nat.le_add_right ..
  · intro datagram limited mac nonce packet gateway h
    obtain ⟨head, trailer, shape, length, ends⟩ := exists_enclosing h
    refine ⟨head, trailer, shape, length, ends, fun q => Query.decode_cut_iff ends, ?_⟩
    intro p inPlace extra
    obtain ⟨parsed, declared⟩ := IpPacket.parse_append inPlace ends extra
    exact ⟨declared, parsed, Query.decode_append inPlace ends extra⟩

/-- A general query in a message, and a gateway address and more bytes behind it. -/
theorem lengths_agree_generalQuery :
    let datagram := [4, 0xff, 1, 2, 3, 4, 5, 6, 0, 0, 0, 22] ++ generalQuery ++
      [0x9c, 0x40, 0, 0, 0, 0, 0, 0, 0, 0, 0, 0, 0, 0, 198, 51, 100, 3, 7, 7]
    let q := Query.general (Duration.ofMillis 10000)
    (∃ n p, IpPacket.declaredLength generalQuery = .ok n ∧
      ∀ extra, IpPacket.parse (generalQuery.take n ++ extra) = .ok p) ∧
    ∃ head trailer, datagram = head ++ (generalQuery ++ trailer) ∧
      ∀ extra, Query.decode (generalQuery ++ extra) = .ok q := by
  intro datagram q
  obtain ⟨agree, enclosed⟩ := lengths_agree
  have carried : Query.decode generalQuery = .ok q := by decide +kernel
  have read : decode datagram = .ok (query true 0x010203040506 22 generalQuery
      (some ⟨40000, .ofOctets 198 51 100 3⟩)) := by decide +kernel
  constructor
  · obtain ⟨p, parsed⟩ := exists_parse_of_decode carried
    obtain ⟨n, declared, -, -, same⟩ := agree _ _ parsed
    exact ⟨n, p, declared, same⟩
  · obtain ⟨head, trailer, shape, -, -, same, others⟩ := enclosed _ _ _ _ _ _ read
    have inPlace := (same q).1 carried
    obtain ⟨p, parsed⟩ := exists_parse_of_decode inPlace
    exact ⟨head, trailer, shape, fun extra => (others p parsed extra).2.2.trans inPlace⟩

end Message

end MulticastTunnel
