import MulticastTunnel.Message.Wire
import MulticastTunnel.Proofs.Ip.Extent
import MulticastTunnel.Query.Packet

/-!
# Tunnel messages as they are written

What `Message.decode` reads from the bytes that `Message.encode` wrote.

* `GatewayAddress.addressOfBits_mapped_eq_iff` : which gateway addresses are told by their bits.
* `Message.decode_encode` : a message with such an address, and a query whose packet ends where
  its header says, is read back.
* `Message.decode_encode_roundtrip` : this holds of every message that was read, too, if the
  packet of a query is one.
-/

namespace MulticastTunnel

/-! ### Gateway addresses -/

namespace Address

/-- The address is not an IPv6 address that stands for an IPv4 address: neither an IPv4-mapped
one nor an IPv4-compatible one, which the unspecified address and the loopback address are not. -/
def IsPlain : Address → Prop
  | v4 _ => True
  | v6 bits => bits.toNat >>> 32 ≠ 0xffff ∧ (bits.toNat >>> 32 = 0 → bits = 0 ∨ bits = 1)

end Address

namespace GatewayAddress

theorem addressOfBits_mapped_eq_iff {a : Address} : addressOfBits a.mapped = a ↔ a.IsPlain := by
  cases a with
  | v4 bits =>
    have bound := bits.isLt
    have number : (Address.v4 bits).mapped.toNat = 0xffff00000000 + bits.toNat := by
      simp only [Address.mapped, BitVec.toNat_ofNat]
      omega
    have high : (0xffff00000000 + bits.toNat) >>> 32 = 0xffff := by
      rw [Nat.shiftRight_eq_div_pow]
      omega
    have low : BitVec.ofNat 32 (0xffff00000000 + bits.toNat) = bits := by
      apply BitVec.eq_of_toNat_eq
      rw [BitVec.toNat_ofNat]
      omega
    simp only [addressOfBits, number, high, low, if_true, Address.IsPlain]
  | v6 bits =>
    have zero : bits = 0 ↔ bits.toNat = 0 := BitVec.toNat_eq
    have one : bits = 1 ↔ bits.toNat = 1 := BitVec.toNat_eq
    simp only [addressOfBits, Address.mapped, Address.IsPlain, zero, one]
    split_ifs
    all_goals
      simp_all
      try omega

theorem addressOfBits_isPlain (bits : BitVec 128) : (addressOfBits bits).IsPlain := by
  have zero : bits = 0 ↔ bits.toNat = 0 := BitVec.toNat_eq
  have one : bits = 1 ↔ bits.toNat = 1 := BitVec.toNat_eq
  unfold addressOfBits
  dsimp only
  split_ifs
  · trivial
  · trivial
  · simp only [Address.IsPlain, zero, one]
    omega

/-- **A plain gateway address is read back.** -/
theorem reads_encode {g : GatewayAddress} (plain : g.address.IsPlain) :
    reader.Reads g.encode g := by
  rw [encode, ← List.append_nil (Bytes.ofNat 16 _)]
  refine (Reader.reads_u16 _).bind ((Reader.reads_addressV6 _).bind ?_)
  rw [addressOfBits_mapped_eq_iff.2 plain]
  exact Reader.Reads.pure g

theorem isPlain_of_reader {g : GatewayAddress} {bytes rest : Bytes}
    (h : reader bytes = .ok (g, rest)) : g.address.IsPlain := by
  obtain ⟨port, _, -, h⟩ := Reader.bind_eq_ok_iff.1 h
  obtain ⟨bits, _, -, h⟩ := Reader.bind_eq_ok_iff.1 h
  rw [(Reader.pure_eq_ok_iff.1 h).1]
  exact addressOfBits_isPlain bits

end GatewayAddress

namespace Message

/-! ### Messages as they are written -/

theorem decode_cons (kind : MessageKind) (bytes : Bytes) :
    decode (kind.code :: bytes) = (bodyReader kind).parse bytes := by
  have version : kind.code.toNat / 16 = 0 := by cases kind <;> rfl
  have code : MessageKind.ofCode? (kind.code.toNat % 16) = some kind := by cases kind <;> rfl
  have split : kind.code :: bytes = [kind.code] ++ bytes := rfl
  rw [decode, (Reader.reads_u8 kind.code).parse_bind split]
  simp only [version, code]
  rfl

theorem reads_mac {what : String} (mac : ResponseMac) :
    (macReader what).Reads (Bytes.ofNat 6 mac.toNat) mac := by
  have read : (Reader.sureWord 6).Reads (Bytes.ofNat 6 mac.toNat) mac.toNat :=
    Reader.reads_sureWord_ofNat mac.isLt
  have mac' := read.map (BitVec.ofNat 48)
  rw [BitVec.ofNat_toNat, BitVec.setWidth_eq] at mac'
  exact Reader.Reads.require mac' (by simp)

theorem exists_front_of_macReader {what : String} {bytes rest : Bytes} {mac : ResponseMac}
    (h : macReader what bytes = .ok (mac, rest)) :
    ∃ front, bytes = front ++ rest ∧ front.length = 6 := by
  obtain ⟨_, _, room, h⟩ := Reader.bind_eq_ok_iff.1 h
  obtain ⟨_, _, read, made⟩ := Reader.bind_eq_ok_iff.1 h
  obtain ⟨-, rfl⟩ := Reader.require_eq_ok_iff.1 room
  obtain ⟨-, rfl⟩ := Reader.pure_eq_ok_iff.1 made
  obtain ⟨front, shape, six, -⟩ := Reader.sureWord_eq_ok_iff_append.1 read
  exact ⟨front, shape, six⟩

theorem bits_of_flags (limited present : Bool) :
    ((UInt8.ofNat (flag 2 limited + flag 1 present)).toNat % 2 = 1 ↔ present = true) ∧
      ((UInt8.ofNat (flag 2 limited + flag 1 present)).toNat / 2 % 2 == 1) = limited := by
  cases limited <;> cases present <;> decide

/-- The message is told apart from every other one by its bytes: the address under which the
relay sees the gateway is plain, and a query's packet ends where its header says. -/
def IsFaithful : Message → Prop
  | query _ _ _ packet gateway =>
    IpPacket.declaredLength packet = .ok packet.length ∧ ∀ g ∈ gateway, g.address.IsPlain
  | teardown _ _ gateway => gateway.address.IsPlain
  | _ => True

/-- **A message is read back**, whatever its packet, numbers and flags are. -/
theorem decode_encode {m : Message} (h : m.IsFaithful) : decode m.encode = .ok m := by
  rw [encode, decode_cons]
  cases m with
  | discovery nonce =>
    rw [body, kind, bodyReader, (Reader.reads_skip (by rfl)).parse_bind rfl,
      (Reader.reads_u32 nonce).parse_bind (List.append_nil _).symm, Reader.parse_pure]
  | advertisement nonce relay =>
    rw [body, kind, bodyReader, List.append_assoc, (Reader.reads_skip (by rfl)).parse_bind rfl,
      (Reader.reads_u32 nonce).parse_bind rfl, Reader.parse_rest_bind, Address.length_toBytes]
    cases relay with
    | v4 bits => exact (Reader.reads_addressV4 bits).parse_bind (List.append_nil _).symm
    | v6 bits => exact (Reader.reads_addressV6 bits).parse_bind (List.append_nil _).symm
  | request nonce preferMld =>
    have flag : ((UInt8.ofNat (flag 1 preferMld)).toNat % 2 == 1) = preferMld := by
      cases preferMld <;> rfl
    show (bodyReader .request).parse ([UInt8.ofNat _] ++ ([0, 0] ++ Bytes.ofNat 4 nonce.toNat)) = _
    rw [bodyReader, (Reader.reads_u8 _).parse_bind rfl, (Reader.reads_skip (by rfl)).parse_bind rfl,
      (Reader.reads_u32 nonce).parse_bind (List.append_nil _).symm, Reader.parse_pure, flag]
  | query limited mac nonce packet gateway =>
    obtain ⟨ends, plain⟩ := h
    obtain ⟨first, second⟩ := bits_of_flags limited gateway.isSome
    simp only [body, kind, bodyReader, List.append_assoc]
    rw [(Reader.reads_u8 _).parse_bind rfl, (reads_mac mac).parse_bind rfl,
      (Reader.reads_u32 nonce).parse_bind rfl, Reader.parse_rest_bind,
      Reader.parse_liftM_bind (IpPacket.declaredLength_append ends _),
      (Reader.reads_take rfl).parse_bind rfl, second]
    simp only [first]
    cases gateway with
    | none => rfl
    | some g =>
      have trailer := (GatewayAddress.reads_encode (plain g rfl)).map some
      exact trailer.parse_bind (List.append_nil _).symm
  | update mac nonce packet =>
    simp only [body, kind, bodyReader, List.append_assoc]
    rw [(Reader.reads_skip (by rfl)).parse_bind rfl, (reads_mac mac).parse_bind rfl,
      (Reader.reads_u32 nonce).parse_bind rfl, Reader.parse_rest_bind, Reader.parse_pure]
  | data packet =>
    rw [body, kind, bodyReader, (Reader.reads_skip (by rfl)).parse_bind rfl,
      Reader.parse_rest_bind, Reader.parse_pure]
  | teardown mac nonce gateway =>
    simp only [body, kind, bodyReader, List.append_assoc]
    rw [(Reader.reads_skip (by rfl)).parse_bind rfl, (reads_mac mac).parse_bind rfl,
      (Reader.reads_u32 nonce).parse_bind rfl,
      (GatewayAddress.reads_encode h).parse_bind (List.append_nil _).symm, Reader.parse_pure]

/-! ### Messages as they are read -/

/-- Bytes that are read as a message are a first byte, which tells the kind, and what the kind's
reader accepts. -/
theorem exists_body_of_decode {datagram : Bytes} {m : Message} (h : decode datagram = .ok m) :
    ∃ kind code bytes rest, datagram = [code] ++ bytes ∧ bodyReader kind bytes = .ok (m, rest) := by
  obtain ⟨rest, h⟩ := Reader.parse_eq_ok_iff.1 h
  obtain ⟨code, bytes, start, h⟩ := Reader.bind_eq_ok_iff.1 h
  obtain ⟨-, h⟩ := Reader.ite_reject_eq_ok_iff.1 h
  cases known : MessageKind.ofCode? (code.toNat % 16) with
  | none =>
    rw [known] at h
    nomatch h
  | some kind =>
    rw [known] at h
    exact ⟨kind, code, bytes, rest, Reader.u8_eq_ok_iff_append.1 start, h⟩

theorem exists_kind_of_decode {datagram : Bytes} {m : Message} (h : decode datagram = .ok m) :
    ∃ kind bytes, (bodyReader kind).parse bytes = .ok m := by
  obtain ⟨kind, -, bytes, rest, -, h⟩ := exists_body_of_decode h
  exact ⟨kind, bytes, Reader.parse_eq_ok_iff.2 ⟨rest, h⟩⟩

/-- A message that was read can be written faithfully, if a query's packet is one. -/
theorem isFaithful_of_parse {kind : MessageKind} {bytes : Bytes} {m : Message}
    (h : (bodyReader kind).parse bytes = .ok m)
    (valid : ∀ limited mac nonce packet gateway, m = query limited mac nonce packet gateway →
      ∃ p, IpPacket.parse packet = .ok p) : m.IsFaithful := by
  obtain ⟨_, h⟩ := Reader.parse_eq_ok_iff.1 h
  cases kind with
  | discovery =>
    simp only [bodyReader, Reader.bind_eq_ok_iff, Reader.pure_eq_ok_iff] at h
    obtain ⟨_, _, -, _, _, -, rfl, -⟩ := h
    trivial
  | advertisement =>
    simp only [bodyReader, Reader.bind_eq_ok_iff] at h
    obtain ⟨_, _, -, nonce, _, -, left, _, -, h⟩ := h
    -- the reader is chosen by what is left
    obtain ⟨r, choice, h⟩ : ∃ r : Reader Message, r = _ ∧ r _ = .ok (m, _) := ⟨_, rfl, h⟩
    split at choice
    · subst choice
      simp only [Reader.bind_eq_ok_iff, Reader.pure_eq_ok_iff] at h
      obtain ⟨_, _, -, rfl, -⟩ := h
      trivial
    · subst choice
      simp only [Reader.bind_eq_ok_iff, Reader.pure_eq_ok_iff] at h
      obtain ⟨_, _, -, rfl, -⟩ := h
      trivial
    · subst choice
      nomatch h
  | request =>
    simp only [bodyReader, Reader.bind_eq_ok_iff, Reader.pure_eq_ok_iff] at h
    obtain ⟨_, _, -, _, _, -, _, _, -, rfl, -⟩ := h
    trivial
  | query =>
    simp only [bodyReader, Reader.bind_eq_ok_iff, Reader.rest_eq_ok_iff, Reader.liftM_eq_ok_iff,
      Reader.take_eq_ok_iff] at h
    obtain ⟨flags, _, -, mac, _, -, nonce, _, -, _, _, ⟨rfl, rfl⟩, length, left, ⟨declared, rfl⟩,
      packet, _, ⟨room, rfl, rfl⟩, h⟩ := h
    have ends {limited gateway} (read : m = query limited mac nonce (left.take length) gateway) :
        IpPacket.declaredLength (left.take length) = .ok (left.take length).length := by
      obtain ⟨p, parsed⟩ := valid _ _ _ _ _ read
      exact IpPacket.declaredLength_take declared parsed
    split at h
    · simp only [Reader.bind_eq_ok_iff, Reader.map_eq_ok_iff, Reader.pure_eq_ok_iff] at h
      obtain ⟨_, _, ⟨g, read, rfl⟩, rfl, -⟩ := h
      exact ⟨ends rfl, fun g' hg => by cases hg; exact GatewayAddress.isPlain_of_reader read⟩
    · simp only [Reader.bind_eq_ok_iff, Reader.pure_eq_ok_iff] at h
      obtain ⟨_, _, ⟨rfl, -⟩, rfl, -⟩ := h
      exact ⟨ends rfl, by simp⟩
  | update =>
    simp only [bodyReader, Reader.bind_eq_ok_iff, Reader.pure_eq_ok_iff] at h
    obtain ⟨_, _, -, _, _, -, _, _, -, _, _, -, rfl, -⟩ := h
    trivial
  | data =>
    simp only [bodyReader, Reader.bind_eq_ok_iff, Reader.pure_eq_ok_iff] at h
    obtain ⟨_, _, -, _, _, -, rfl, -⟩ := h
    trivial
  | teardown =>
    simp only [bodyReader, Reader.bind_eq_ok_iff, Reader.pure_eq_ok_iff] at h
    obtain ⟨_, _, -, _, _, -, _, _, -, g, _, read, rfl, -⟩ := h
    exact GatewayAddress.isPlain_of_reader read

theorem exists_parse_of_decode {packet : Bytes} {q : Query} (h : Query.decode packet = .ok q) :
    ∃ p, IpPacket.parse packet = .ok p := by
  obtain ⟨p, parsed, -⟩ := Outcome.bind_eq_ok_iff.1 h
  exact ⟨p, parsed⟩

/-- **Writing and reading messages agree.** A message is read back from what was written of it if
the address under which the relay sees the gateway is plain and a query's packet ends where its
header says, and so is every message that was itself read, if a query's packet holds a query:
whatever the reserved bits, the spelling of the address and the bytes at the end were, they are
gone once the message is written anew. -/
theorem decode_encode_roundtrip :
    (∀ m : Message, m.IsFaithful → decode m.encode = .ok m) ∧
    (∀ (datagram : Bytes) (m : Message), decode datagram = .ok m →
      (∀ limited mac nonce packet gateway, m = query limited mac nonce packet gateway →
        ∃ q, Query.decode packet = .ok q) →
      decode m.encode = .ok m) := by
  refine ⟨fun m => decode_encode, fun datagram m read valid => decode_encode ?_⟩
  obtain ⟨kind, bytes, parsed⟩ := exists_kind_of_decode read
  refine isFaithful_of_parse parsed fun limited mac nonce packet gateway hm => ?_
  obtain ⟨q, decoded⟩ := valid limited mac nonce packet gateway hm
  exact exists_parse_of_decode decoded

/-- The packet of a general IGMPv3 query. -/
def generalQuery : Bytes :=
  [0x46, 192, 0, 36, 0, 0, 0, 0, 1, 2, 130, 17, 192, 0, 2, 1, 224, 0, 0, 1, 0x94, 4, 0, 0,
    0x11, 100, 238, 155, 0, 0, 0, 0, 0, 0, 0, 0]

/-- A query whose reserved bits are set, whose gateway address is an IPv4-compatible one, and that
bytes follow; and a teardown with the loopback address. -/
theorem decode_encode_roundtrip_spellings :
    let m := query true 0x010203040506 22 generalQuery (some ⟨40000, .ofOctets 198 51 100 3⟩)
    decode ([4, 0xff, 1, 2, 3, 4, 5, 6, 0, 0, 0, 22] ++ generalQuery ++
        [0x9c, 0x40, 0, 0, 0, 0, 0, 0, 0, 0, 0, 0, 0, 0, 198, 51, 100, 3, 7, 7]) = .ok m ∧
      decode m.encode = .ok m ∧
      decode (teardown 1 2 ⟨40000, .v6 1⟩).encode = .ok (teardown 1 2 ⟨40000, .v6 1⟩) := by
  intro m
  have read : decode ([4, 0xff, 1, 2, 3, 4, 5, 6, 0, 0, 0, 22] ++ generalQuery ++
      [0x9c, 0x40, 0, 0, 0, 0, 0, 0, 0, 0, 0, 0, 0, 0, 198, 51, 100, 3, 7, 7]) = .ok m := by
    rfl
  have carried : Query.decode generalQuery = .ok (Query.general (Duration.ofMillis 10000)) := by
    decide +kernel
  refine ⟨read, decode_encode_roundtrip.2 _ m read ?_, decode_encode_roundtrip.1 _ ?_⟩
  · intro _ _ _ packet _ hm
    obtain ⟨-, -, -, rfl, -⟩ := query.inj hm
    exact ⟨_, carried⟩
  · exact ⟨by decide, fun _ => .inr rfl⟩

end Message

end MulticastTunnel
