import MulticastTunnel.Proofs.Ip.Packet

/-!
# Which bytes are an IP packet

A byte string starts with an IPv4 packet if the fields of its header say so: version, lengths that
lie within one another and within the bytes, no fragment, and a checksum that holds. It starts with
an IPv6 packet if the payload that its header declares is there, and is a chain of extension
headers, each within what is left, that ends in the upper layer. The reader accepts exactly these.

* `IpPacket.WellFormedV4`, `IpPacket.WellFormedV6` : the packets, by the fields of their headers.
* `IpPacket.Leads` : the chains of extension headers.
* `IpPacket.parseV4_eq_ok_iff`, `IpPacket.parseV6_eq_ok_iff` : what the reader accepts.
* `IpPacket.Leads.upperLayer`, `IpPacket.leads_of_upperLayer` : the reader follows a chain to its
  end, and nothing else.
* `IpPacket.parse_bytesV4`, `IpPacket.parse_bytesV6` : a header that was written and the payload
  behind it are read back.
* `IpPacket.parse_exact` : **the reader accepts exactly the well-formed packets**.
-/

namespace MulticastTunnel

/-- The number in the bytes from `start` up to, but not including, `stop`. -/
def Bytes.field (start stop : Nat) (bytes : Bytes) : Nat := toNat (bytes.between start stop)

theorem Bytes.toNat_ofNat_take_one (bytes : Bytes) :
    (UInt8.ofNat (toNat (bytes.take 1))).toNat = bytes.field 0 1 := by
  cases bytes <;> simp [field, between, toNat]

namespace IpPacket

variable {bytes rest upper : Bytes} {p : IpPacket} {header protocol : UInt8} {fuel : Nat}

/-- The version of a packet, by its first byte. -/
def version (bytes : Bytes) : Nat := bytes.field 0 1 / 16

theorem version_cons (first : UInt8) (rest : Bytes) :
    version (first :: rest) = first.toNat / 16 := by
  simp [version, Bytes.field, Bytes.between, Bytes.toNat]

theorem parse_of_version_four (four : version bytes = 4) : parse bytes = parseV4 bytes := by
  cases bytes with
  | nil => cases four
  | cons first rest =>
    rw [version_cons] at four
    simp only [parse, four]

theorem parse_of_version_six (six : version bytes = 6) : parse bytes = parseV6 bytes := by
  cases bytes with
  | nil => cases six
  | cons first rest =>
    rw [version_cons] at six
    simp only [parse, six]

theorem version_of_parse (h : parse bytes = .ok p) : version bytes = 4 ∨ version bytes = 6 := by
  cases bytes with
  | nil => cases h
  | cons first rest =>
    rw [version_cons]
    simp only [parse] at h
    split at h
    · next four => exact .inl four
    · next six => exact .inr six
    · cases h

/-! ### IPv4 -/

namespace HeaderV4

/-- The length of the header, with its options. -/
def length (bytes : Bytes) : Nat := bytes.field 0 1 % 16 * 4

/-- The length of the packet. -/
def total (bytes : Bytes) : Nat := bytes.field 2 4

/-- Whether this is a fragment, and not the last one. -/
def moreFragments (bytes : Bytes) : Bool := bytes.field 6 8 / 0x2000 % 2 == 1

/-- Where the fragment stands among the others. -/
def fragmentOffset (bytes : Bytes) : Nat := bytes.field 6 8 % 0x2000

end HeaderV4

/-- The bytes start with an IPv4 packet. -/
structure WellFormedV4 (bytes : Bytes) : Prop where
  version : version bytes = 4
  fixed : Ip.headerLengthV4 ≤ bytes.length
  options : Ip.headerLengthV4 ≤ HeaderV4.length bytes
  payload : HeaderV4.length bytes ≤ HeaderV4.total bytes
  present : HeaderV4.total bytes ≤ bytes.length
  last : HeaderV4.moreFragments bytes = false
  first : HeaderV4.fragmentOffset bytes = 0
  valid : Checksum.internet [bytes.take (HeaderV4.length bytes)] = 0

/-- What the header says besides its lengths and checksum. -/
def fieldsV4 (bytes : Bytes) : Ip.FieldsV4 where
  source := BitVec.ofNat 32 (bytes.field 12 16)
  destination := BitVec.ofNat 32 (bytes.field 16 20)
  protocol := UInt8.ofNat (bytes.field 9 10)
  timeToLive := UInt8.ofNat (bytes.field 8 9)
  typeOfService := UInt8.ofNat (bytes.field 1 2)
  options := bytes.between Ip.headerLengthV4 (HeaderV4.length bytes)

/-- What there is to read from an IPv4 packet. -/
def packetV4 (bytes : Bytes) : IpPacket where
  source := .v4 (BitVec.ofNat 32 (bytes.field 12 16))
  destination := .v4 (BitVec.ofNat 32 (bytes.field 16 20))
  protocol := UInt8.ofNat (bytes.field 9 10)
  payload := bytes.between (HeaderV4.length bytes) (HeaderV4.total bytes)

theorem parseV4_eq_ok_iff (four : version bytes = 4) :
    parseV4 bytes = .ok p ↔ WellFormedV4 bytes ∧ p = packetV4 bytes := by
  have total : Bytes.toNat (List.take 2 (List.drop (1 + 1) bytes)) = HeaderV4.total bytes := rfl
  have fragment : Bytes.toNat (List.take 2 (List.drop (1 + (1 + (2 + 2))) bytes)) =
      bytes.field 6 8 := rfl
  have front (n : Nat) : bytes.between 0 n = bytes.take n := rfl
  simp only [parseV4, Reader.parse_eq_ok_iff, Reader.bind_eq_ok_iff, Reader.require_eq_ok_iff,
    Reader.u8, Reader.map_eq_ok_iff, Reader.word_eq_ok_iff, Reader.ite_reject_eq_ok_iff,
    Reader.skip_eq_ok_iff, Reader.liftM_eq_ok_iff, Outcome.slice_eq_ok_iff, Reader.addressV4,
    Reader.pure_eq_ok_iff, and_assoc, exists_and_left, List.drop_drop, List.length_drop,
    ↓existsAndEq, true_and, and_true, exists_const, Bytes.toNat_ofNat_take_one, total, fragment,
    front]
  constructor
  · rintro ⟨fixed, -, options, -, -, lengths, -, -, whole, -, -, valid, -, -, -, -, -, -, -, rfl⟩
    obtain ⟨present, payload⟩ := not_or.1 lengths
    obtain ⟨last, first⟩ := not_or.1 whole
    exact ⟨⟨four, fixed, Nat.not_lt.1 options, Nat.not_lt.1 payload, Nat.not_lt.1 present,
      by simpa [HeaderV4.moreFragments] using last, not_not.1 first, not_not.1 valid⟩, rfl⟩
  · rintro ⟨⟨-, fixed, options, payload, present, last, first, valid⟩, rfl⟩
    have whole : ¬ bytes.field 6 8 / 8192 % 2 = 1 := by
      simpa [HeaderV4.moreFragments] using last
    have room : 20 ≤ bytes.length := fixed
    -- the reads of the fields behind the length need what the length says
    refine ⟨fixed, by omega, Nat.not_lt.2 options, by omega, by omega,
      not_or.2 ⟨Nat.not_lt.2 present, Nat.not_lt.2 payload⟩, by omega, by omega,
      not_or.2 ⟨whole, not_not.2 first⟩, Nat.zero_le _, le_trans payload present, not_not.2 valid,
      by omega, by omega, by omega, by omega, by omega, payload, present, rfl⟩

/-! ### Extension headers -/

/-- The types of headers that are passed over: hop-by-hop options, routing, and destination
options. -/
def extensionTypes : List UInt8 := [0, 43, 60]

theorem isExtension_iff : isExtension header = true ↔ header ∈ extensionTypes := by
  simp [isExtension, extensionTypes, Ip.hopByHop, Ip.routing, Ip.destinationOptions, or_assoc]

/-- Passing over zero or more extension headers, a header of the first type at the start of the
first bytes leads to one of the second type at the start of the second bytes. An extension header
tells the type of the one that follows, and how many more than eight bytes it takes, in units of
eight. -/
inductive Leads : UInt8 → Bytes → UInt8 → Bytes → Prop
  | arrived {header : UInt8} {bytes : Bytes} : Leads header bytes header bytes
  | passed {header following units protocol : UInt8} {options rest upper : Bytes} :
    header ∈ extensionTypes → options.length + 2 = (units.toNat + 1) * 8 →
    Leads following rest protocol upper →
    Leads header (following :: units :: (options ++ rest)) protocol upper

theorem leads_routerAlert (message : Bytes) :
    Leads Ip.hopByHop (Ip.routerAlertV6 ++ message) Ip.icmpV6 message :=
  @Leads.passed Ip.hopByHop Ip.icmpV6 0 Ip.icmpV6 [0x05, 0x02, 0x00, 0x00, 0x01, 0x00] message
    message (by decide) rfl .arrived

theorem extension_cons {following units : UInt8} {tail : Bytes} {length : Nat}
    (hlength : (following :: units :: tail).length = length) (room : 8 ≤ length) :
    extension (following :: units :: tail) =
      if length < (units.toNat + 1) * 8 then
        .error (.malformed (.lengthOutOfBounds "IPv6 extension header" ((units.toNat + 1) * 8)
          length))
      else .ok (following, (units.toNat + 1) * 8) := by
  have shape : following :: units :: tail = [following] ++ ([units] ++ tail) := rfl
  unfold extension
  rw [Reader.parse_require_bind (by omega), (Reader.reads_u8 _).parse_bind shape,
    (Reader.reads_u8 _).parse_bind rfl, Reader.parse_pure]
  simp only [Outcome.ok_bind, hlength]
  rfl

theorem extension_of_short (short : bytes.length < 8) :
    extension bytes = .error (.malformed (.tooShort "IPv6 extension header" 8 bytes.length)) := by
  rw [extension, Reader.parse_require_of_short short]
  rfl

theorem extension_append {following units : UInt8} {options : Bytes}
    (length : options.length + 2 = (units.toNat + 1) * 8) (rest : Bytes) :
    extension (following :: units :: (options ++ rest)) =
        .ok (following, (units.toNat + 1) * 8) ∧
      Outcome.slice ((units.toNat + 1) * 8) (following :: units :: (options ++ rest)).length
        (following :: units :: (options ++ rest)) = .ok rest := by
  have total : (following :: units :: (options ++ rest)).length =
      (units.toNat + 1) * 8 + rest.length := by
    simp only [List.length_cons, List.length_append]
    omega
  constructor
  · rw [extension_cons total (by omega), if_neg (by omega)]
  · have shape : following :: units :: (options ++ rest) =
        (following :: units :: options) ++ (rest ++ []) := by simp
    rw [total, shape]
    exact Outcome.slice_append (by simpa using length) rfl

theorem exists_of_extension {read : UInt8 × Nat} (h : extension bytes = .ok read) :
    ∃ (units : UInt8) (options rest : Bytes), bytes = read.1 :: units :: (options ++ rest) ∧
      options.length + 2 = (units.toNat + 1) * 8 ∧ read.2 = (units.toNat + 1) * 8 := by
  rcases Nat.lt_or_ge bytes.length 8 with short | room
  · rw [extension_of_short short] at h
    cases h
  · match bytes, room with
    | following :: units :: tail, room =>
      rw [extension_cons rfl room] at h
      split at h
      · cases h
      · next fits =>
        obtain rfl := Except.ok.inj h
        simp only [List.length_cons] at fits
        refine ⟨units, tail.take ((units.toNat + 1) * 8 - 2), tail.drop _,
          by rw [List.take_append_drop], ?_, rfl⟩
        rw [List.length_take]
        omega

theorem extension_ne_fragmented : extension bytes ≠ .error (.malformed .fragmented) := by
  intro h
  rcases Nat.lt_or_ge bytes.length 8 with short | room
  · rw [extension_of_short short] at h
    cases h
  · match bytes, room with
    | following :: units :: tail, room =>
      rw [extension_cons rfl room] at h
      split at h
      · cases h
      · cases h

/-- The reader follows a chain of extension headers to its end. -/
theorem Leads.upperLayer (h : Leads header bytes protocol upper) (enough : bytes.length < fuel) :
    ∃ left, upper.length < left ∧
      upperLayer fuel header bytes = IpPacket.upperLayer left protocol upper := by
  -- each header that is passed takes one unit of fuel, and at least eight bytes
  induction h generalizing fuel with
  | arrived => exact ⟨fuel, enough, rfl⟩
  | @passed header following units protocol options rest upper type length _ ih =>
    obtain ⟨read, slice⟩ := @extension_append following units options length rest
    simp only [List.length_cons, List.length_append] at enough
    obtain ⟨fuel, rfl⟩ : ∃ less, fuel = less + 1 := ⟨fuel - 1, by omega⟩
    have less : rest.length < fuel := by omega
    obtain ⟨left, enough', follows⟩ := ih less
    refine ⟨left, enough', ?_⟩
    rw [IpPacket.upperLayer, if_pos (isExtension_iff.2 type), read]
    simp only [Outcome.ok_bind, slice]
    exact follows

theorem Leads.upperLayer_eq_ok (h : Leads header bytes protocol upper)
    (enough : bytes.length < fuel) (passed : protocol ∉ extensionTypes)
    (whole : protocol ≠ Ip.fragment) :
    IpPacket.upperLayer fuel header bytes = .ok (protocol, upper) := by
  obtain ⟨left, enough', follows⟩ := h.upperLayer enough
  obtain ⟨left, rfl⟩ : ∃ less, left = less + 1 := ⟨left - 1, by omega⟩
  rw [follows, IpPacket.upperLayer, if_neg (isExtension_iff.not.2 passed), if_neg whole]
  rfl

theorem Leads.upperLayer_eq_fragmented (h : Leads header bytes Ip.fragment rest)
    (enough : bytes.length < fuel) :
    IpPacket.upperLayer fuel header bytes = .error (.malformed .fragmented) := by
  obtain ⟨left, enough', follows⟩ := h.upperLayer enough
  obtain ⟨left, rfl⟩ : ∃ less, left = less + 1 := ⟨left - 1, by omega⟩
  rw [follows, IpPacket.upperLayer, if_neg (by decide), if_pos rfl]

/-- What the reader accepts is a chain that ends in the upper layer. -/
theorem leads_of_upperLayer (h : upperLayer fuel header bytes = .ok (protocol, upper)) :
    Leads header bytes protocol upper ∧ protocol ∉ extensionTypes ∧ protocol ≠ Ip.fragment := by
  induction fuel generalizing header bytes with
  | zero => cases h
  | succ fuel ih =>
    rw [upperLayer] at h
    split at h
    · next type =>
      obtain ⟨read, ext, h⟩ := Outcome.bind_eq_ok_iff.1 h
      obtain ⟨rest, slice, h⟩ := Outcome.bind_eq_ok_iff.1 h
      obtain ⟨units, options, rest', rfl, length, stop⟩ := exists_of_extension ext
      -- the reader goes on where the header ends
      obtain rfl : rest' = rest := by
        rw [stop, (extension_append length rest').2] at slice
        exact Except.ok.inj slice
      obtain ⟨leads, arrives⟩ := ih h
      exact ⟨.passed (isExtension_iff.1 type) length leads, arrives⟩
    · next type =>
      split at h
      · cases h
      · next whole =>
        cases h
        exact ⟨.arrived, isExtension_iff.not.1 type, whole⟩

/-- The reader only speaks of fragments if the chain reaches one. -/
theorem exists_leads_of_fragmented
    (h : upperLayer fuel header bytes = .error (.malformed .fragmented)) :
    ∃ rest, Leads header bytes Ip.fragment rest := by
  induction fuel generalizing header bytes with
  | zero => cases h
  | succ fuel ih =>
    rw [upperLayer] at h
    split at h
    · next type =>
      -- the header itself is not what was rejected
      obtain h | ⟨⟨following, stop⟩, ext, h⟩ := Outcome.bind_eq_error_iff.1 h
      · exact absurd h extension_ne_fragmented
      obtain ⟨units, options, rest, rfl, length, rfl⟩ := exists_of_extension ext
      dsimp only at h
      rw [(extension_append length rest).2] at h
      obtain ⟨upper, leads⟩ := ih h
      exact ⟨upper, .passed (isExtension_iff.1 type) length leads⟩
    · split at h
      · next fragment =>
        subst fragment
        exact ⟨bytes, .arrived⟩
      · cases h

/-! ### IPv6 -/

namespace HeaderV6

/-- The number of bytes after the header without extensions. -/
def payloadLength (bytes : Bytes) : Nat := bytes.field 4 6

/-- The type of the first header after this one. -/
def next (bytes : Bytes) : UInt8 := UInt8.ofNat (bytes.field 6 7)

/-- The bytes after the header, down to the declared end. -/
def payload (bytes : Bytes) : Bytes :=
  bytes.between Ip.headerLengthV6 (Ip.headerLengthV6 + payloadLength bytes)

end HeaderV6

/-- The bytes start with an IPv6 header and the payload that it declares. -/
structure FramedV6 (bytes : Bytes) : Prop where
  version : version bytes = 6
  fixed : Ip.headerLengthV6 ≤ bytes.length
  declared : 0 < HeaderV6.payloadLength bytes
  present : Ip.headerLengthV6 + HeaderV6.payloadLength bytes ≤ bytes.length

/-- The bytes start with an IPv6 packet: its payload is a chain of extension headers that ends in
the upper layer. -/
structure WellFormedV6 (bytes : Bytes) (protocol : UInt8) (upper : Bytes) : Prop
    extends FramedV6 bytes where
  chain : Leads (HeaderV6.next bytes) (HeaderV6.payload bytes) protocol upper
  passed : protocol ∉ extensionTypes
  whole : protocol ≠ Ip.fragment

/-- What there is to read from an IPv6 packet with this upper layer. -/
def packetV6 (bytes : Bytes) (protocol : UInt8) (upper : Bytes) : IpPacket where
  source := .v6 (BitVec.ofNat 128 (bytes.field 8 24))
  destination := .v6 (BitVec.ofNat 128 (bytes.field 24 40))
  protocol := protocol
  payload := upper

theorem length_payload (framed : FramedV6 bytes) :
    (HeaderV6.payload bytes).length = HeaderV6.payloadLength bytes := by
  have := framed.present
  rw [HeaderV6.payload, Bytes.between, List.length_take, List.length_drop]
  omega

theorem parseV6_of_fixed (fixed : Ip.headerLengthV6 ≤ bytes.length) :
    parseV6 bytes =
      if HeaderV6.payloadLength bytes = 0 ∨
          bytes.length - Ip.headerLengthV6 < HeaderV6.payloadLength bytes then
        .error (.malformed (.lengthOutOfBounds "IPv6 payload length"
          (HeaderV6.payloadLength bytes) (bytes.length - Ip.headerLengthV6)))
      else do
        let payload ← Outcome.slice 0 (HeaderV6.payloadLength bytes)
          (bytes.drop Ip.headerLengthV6)
        let read ← upperLayer (HeaderV6.payloadLength bytes + 1) (HeaderV6.next bytes) payload
        return packetV6 bytes read.1 read.2 := by
  have room : 40 ≤ bytes.length := fixed
  rw [← List.length_drop]
  refine Outcome.bind_of_ok (a := (HeaderV6.payloadLength bytes, HeaderV6.next bytes,
    BitVec.ofNat 128 (bytes.field 8 24), BitVec.ofNat 128 (bytes.field 24 40),
    bytes.drop Ip.headerLengthV6)) ?_
  simp only [Reader.parse_eq_ok_iff, Reader.bind_eq_ok_iff, Reader.require_eq_ok_iff,
    Reader.u8, Reader.map_eq_ok_iff, Reader.word_eq_ok_iff, Reader.skip_eq_ok_iff,
    Reader.addressV6, Reader.rest_eq_ok_iff, Reader.pure_eq_ok_iff, and_assoc, exists_and_left,
    List.drop_drop, List.length_drop, ↓existsAndEq, true_and, and_true, exists_const]
  exact ⟨fixed, by omega, by omega, by omega, by omega, by omega, by omega, rfl⟩

/-- In a frame, everything depends on the chain of extension headers. -/
theorem parseV6_of_framed (framed : FramedV6 bytes) :
    parseV6 bytes =
      (upperLayer (HeaderV6.payloadLength bytes + 1) (HeaderV6.next bytes)
        (HeaderV6.payload bytes) >>= fun read => .ok (packetV6 bytes read.1 read.2)) := by
  obtain ⟨-, fixed, declared, present⟩ := framed
  have slice : Outcome.slice 0 (HeaderV6.payloadLength bytes) (bytes.drop Ip.headerLengthV6) =
      .ok (HeaderV6.payload bytes) := by
    refine Outcome.slice_eq_ok_iff.2 ⟨⟨Nat.zero_le _, ?_⟩, ?_⟩
    · rw [List.length_drop]
      omega
    · simp [HeaderV6.payload, Bytes.between]
  rw [parseV6_of_fixed fixed, if_neg (by omega), slice]
  rfl

theorem framed_of_parseV6 (six : version bytes = 6) (h : parseV6 bytes = .ok p) :
    FramedV6 bytes := by
  have fixed : Ip.headerLengthV6 ≤ bytes.length := by
    obtain ⟨_, header, -⟩ := Outcome.bind_eq_ok_iff.1 h
    obtain ⟨_, read⟩ := Reader.parse_eq_ok_iff.1 header
    obtain ⟨_, _, room, -⟩ := Reader.bind_eq_ok_iff.1 read
    exact (Reader.require_eq_ok_iff.1 room).1
  rw [parseV6_of_fixed fixed] at h
  split at h
  · cases h
  · next lengths => exact ⟨six, fixed, by omega, by omega⟩

theorem parseV6_eq_ok_iff (six : version bytes = 6) : parseV6 bytes = .ok p ↔
    ∃ protocol upper, WellFormedV6 bytes protocol upper ∧ p = packetV6 bytes protocol upper := by
  constructor
  · intro h
    have framed := framed_of_parseV6 six h
    rw [parseV6_of_framed framed] at h
    obtain ⟨read, layer, h⟩ := Outcome.bind_eq_ok_iff.1 h
    obtain ⟨leads, passed, whole⟩ := leads_of_upperLayer layer
    exact ⟨read.1, read.2, ⟨framed, leads, passed, whole⟩, (Except.ok.inj h).symm⟩
  · rintro ⟨protocol, upper, ⟨framed, leads, passed, whole⟩, rfl⟩
    rw [parseV6_of_framed framed, leads.upperLayer_eq_ok (by rw [length_payload framed]; omega)
      passed whole]
    rfl

/-! ### Both versions -/

theorem parse_eq_ok_iff : parse bytes = .ok p ↔ (WellFormedV4 bytes ∧ p = packetV4 bytes) ∨
    ∃ protocol upper, WellFormedV6 bytes protocol upper ∧ p = packetV6 bytes protocol upper := by
  constructor
  · intro h
    rcases version_of_parse h with four | six
    · rw [parse_of_version_four four] at h
      exact .inl ((parseV4_eq_ok_iff four).1 h)
    · rw [parse_of_version_six six] at h
      exact .inr ((parseV6_eq_ok_iff six).1 h)
  · rintro (⟨wellFormed, same⟩ | ⟨protocol, upper, wellFormed, same⟩)
    · rw [parse_of_version_four wellFormed.version]
      exact (parseV4_eq_ok_iff wellFormed.version).2 ⟨wellFormed, same⟩
    · rw [parse_of_version_six wellFormed.version]
      exact (parseV6_eq_ok_iff wellFormed.version).2 ⟨protocol, upper, wellFormed, same⟩

theorem parse_eq_fragmented_iff (framed : FramedV6 bytes) :
    parse bytes = .error (.malformed .fragmented) ↔
      ∃ rest, Leads (HeaderV6.next bytes) (HeaderV6.payload bytes) Ip.fragment rest := by
  rw [parse_of_version_six framed.version, parseV6_of_framed framed]
  constructor
  · intro h
    obtain h | ⟨read, -, h⟩ := Outcome.bind_eq_error_iff.1 h
    · exact exists_leads_of_fragmented h
    · cases h
  · rintro ⟨rest, leads⟩
    exact Outcome.bind_eq_error_iff.2 (.inl (leads.upperLayer_eq_fragmented
      (by rw [length_payload framed]; omega)))

/-! ### Reading what was written -/

theorem first_byte_v4 {words : Nat} (h : words < 16) :
    (UInt8.ofNat (0x40 ||| words)).toNat / 16 = 4 ∧
      (UInt8.ofNat (0x40 ||| words)).toNat % 16 = words := by
  have all : ∀ w : Fin 16, (UInt8.ofNat (0x40 ||| w.val)).toNat / 16 = 4 ∧
      (UInt8.ofNat (0x40 ||| w.val)).toNat % 16 = w.val := by decide
  exact all ⟨words, h⟩

section

open Ip (FieldsV4 FieldsV6)

variable {fields : FieldsV4} {payload : Bytes} {n : Nat} {sum : UInt16}

theorem length_bytesV4 (aligned : fields.options.length % 4 = 0)
    (short : fields.options.length ≤ 40) (tail : Bytes) :
    HeaderV4.length (fields.bytes n sum ++ tail) = fields.headerLength := by
  have words : fields.headerLength = 20 + fields.options.length := rfl
  show Bytes.toNat [UInt8.ofNat (0x40 ||| fields.headerLength / 4)] % 16 * 4 = _
  rw [Bytes.toNat_singleton, (first_byte_v4 (by omega)).2]
  omega

theorem fieldsV4_bytes (aligned : fields.options.length % 4 = 0)
    (short : fields.options.length ≤ 40) (tail : Bytes) :
    fieldsV4 (fields.bytes n sum ++ tail) = fields := by
  have source : Bytes.toNat (Bytes.ofNat 4 fields.source.toNat) = fields.source.toNat :=
    Bytes.toNat_ofNat_of_lt fields.source.isLt
  have destination : Bytes.toNat (Bytes.ofNat 4 fields.destination.toNat) =
      fields.destination.toNat := Bytes.toNat_ofNat_of_lt fields.destination.isLt
  have options : Bytes.between 20 (20 + fields.options.length) (fields.bytes n sum ++ tail) =
      fields.options := by
    show ((fields.options ++ tail).take _) = _
    simp
  show (⟨BitVec.ofNat 32 (Bytes.toNat (Bytes.ofNat 4 fields.source.toNat)),
    BitVec.ofNat 32 (Bytes.toNat (Bytes.ofNat 4 fields.destination.toNat)),
    UInt8.ofNat (Bytes.toNat [fields.protocol]), UInt8.ofNat (Bytes.toNat [fields.timeToLive]),
    UInt8.ofNat (Bytes.toNat [fields.typeOfService]),
    Bytes.between 20 (HeaderV4.length (fields.bytes n sum ++ tail))
      (fields.bytes n sum ++ tail)⟩ : FieldsV4) = fields
  rw [source, destination, length_bytesV4 aligned short, FieldsV4.headerLength, Ip.headerLengthV4,
    options]
  simp [Bytes.toNat_singleton]

/-- A header that was written with a checksum that holds, and a payload of the length it was
written for, are a packet, whatever follows it. -/
theorem wellFormed_bytesV4 (aligned : fields.options.length % 4 = 0)
    (short : fields.options.length ≤ 40) (fits : fields.headerLength + payload.length < 2 ^ 16)
    (valid : Checksum.internet [fields.bytes payload.length sum] = 0) (extra : Bytes) :
    WellFormedV4 (fields.bytes payload.length sum ++ (payload ++ extra)) ∧
      HeaderV4.total (fields.bytes payload.length sum ++ (payload ++ extra)) =
        fields.headerLength + payload.length := by
  have words : fields.headerLength = 20 + fields.options.length := rfl
  have present : (fields.bytes payload.length sum ++ (payload ++ extra)).length =
      fields.headerLength + (payload.length + extra.length) := by simp
  have length : HeaderV4.length (fields.bytes payload.length sum ++ (payload ++ extra)) =
      fields.headerLength := length_bytesV4 aligned short _
  have total : HeaderV4.total (fields.bytes payload.length sum ++ (payload ++ extra)) =
      fields.headerLength + payload.length := by
    show Bytes.toNat (Bytes.ofNat 2 (fields.headerLength + payload.length)) = _
    exact Bytes.toNat_ofNat_of_lt fits
  have front : (fields.bytes payload.length sum ++ (payload ++ extra)).take fields.headerLength =
      fields.bytes payload.length sum := List.take_left' FieldsV4.length_bytes
  have fixed : Ip.headerLengthV4 ≤ fields.headerLength := Nat.le_add_right ..
  have whole : (fields.bytes payload.length sum ++ (payload ++ extra)).field 6 8 = 0 := by
    show Bytes.toNat (Bytes.ofNat 2 0) = _
    exact Bytes.toNat_ofNat_of_lt (by decide)
  refine ⟨⟨?_, ?_, ?_, ?_, ?_, ?_, ?_, ?_⟩, total⟩
  · show Bytes.toNat [UInt8.ofNat (0x40 ||| fields.headerLength / 4)] / 16 = 4
    rw [Bytes.toNat_singleton, (first_byte_v4 (by omega)).1]
  · omega
  · rwa [length]
  · rw [length, total]
    exact Nat.le_add_right ..
  · omega
  · rw [HeaderV4.moreFragments, whole]
    rfl
  · rw [HeaderV4.fragmentOffset, whole]
  · rw [length, front]
    exact valid

/-- **A written IPv4 header is read back**, with the payload behind it, whatever follows the
packet. -/
theorem parse_bytesV4 (aligned : fields.options.length % 4 = 0)
    (short : fields.options.length ≤ 40) (fits : fields.headerLength + payload.length < 2 ^ 16)
    (valid : Checksum.internet [fields.bytes payload.length sum] = 0) (extra : Bytes) :
    parse (fields.bytes payload.length sum ++ (payload ++ extra)) =
      .ok ⟨.v4 fields.source, .v4 fields.destination, fields.protocol, payload⟩ := by
  obtain ⟨wellFormed, total⟩ := wellFormed_bytesV4 aligned short fits valid extra
  have told : fieldsV4 (fields.bytes payload.length sum ++ (payload ++ extra)) = fields :=
    fieldsV4_bytes aligned short _
  have length : HeaderV4.length (fields.bytes payload.length sum ++ (payload ++ extra)) =
      fields.headerLength := length_bytesV4 aligned short _
  have behind : Bytes.between fields.headerLength (fields.headerLength + payload.length)
      (fields.bytes payload.length sum ++ (payload ++ extra)) = payload :=
    Bytes.between_append FieldsV4.length_bytes rfl
  refine parse_eq_ok_iff.2 (.inl ⟨wellFormed, ?_⟩)
  rw [packetV4, length, total, behind]
  nth_rewrite 1 2 3 [← told]
  rfl

variable {fields : FieldsV6} {upper : Bytes} {protocol : UInt8}

theorem framed_bytesV6 (fields : FieldsV6) (pos : 0 < payload.length)
    (fits : payload.length < 2 ^ 16) (extra : Bytes) :
    FramedV6 (fields.bytes payload.length ++ (payload ++ extra)) ∧
      HeaderV6.payloadLength (fields.bytes payload.length ++ (payload ++ extra)) =
        payload.length := by
  have declared : HeaderV6.payloadLength (fields.bytes payload.length ++ (payload ++ extra)) =
      payload.length := by
    show Bytes.toNat (Bytes.ofNat 2 payload.length) = _
    exact Bytes.toNat_ofNat_of_lt fits
  have present : (fields.bytes payload.length ++ (payload ++ extra)).length =
      Ip.headerLengthV6 + (payload.length + extra.length) := by simp
  refine ⟨⟨?_, by omega, by omega, by omega⟩, declared⟩
  show Bytes.toNat [0x60] / 16 = 6
  rw [Bytes.toNat_singleton]
  rfl

/-- **A written IPv6 header is read back**, with the upper layer behind it, whatever follows the
packet. -/
theorem parse_bytesV6 (pos : 0 < payload.length) (fits : payload.length < 2 ^ 16)
    (chain : Leads fields.nextHeader payload protocol upper) (passed : protocol ∉ extensionTypes)
    (whole : protocol ≠ Ip.fragment) (extra : Bytes) :
    parse (fields.bytes payload.length ++ (payload ++ extra)) =
      .ok ⟨.v6 fields.source, .v6 fields.destination, protocol, upper⟩ := by
  obtain ⟨framed, declared⟩ := framed_bytesV6 fields pos fits extra
  have source : Bytes.toNat (Bytes.ofNat 16 fields.source.toNat) = fields.source.toNat :=
    Bytes.toNat_ofNat_of_lt fields.source.isLt
  have destination : Bytes.toNat (Bytes.ofNat 16 fields.destination.toNat) =
      fields.destination.toNat := Bytes.toNat_ofNat_of_lt fields.destination.isLt
  have next : HeaderV6.next (fields.bytes payload.length ++ (payload ++ extra)) =
      fields.nextHeader := by
    show UInt8.ofNat (Bytes.toNat [fields.nextHeader]) = _
    rw [Bytes.ofNat_toNat_singleton]
  have behind : HeaderV6.payload (fields.bytes payload.length ++ (payload ++ extra)) = payload := by
    rw [HeaderV6.payload, declared]
    exact Bytes.between_append FieldsV6.length_bytes rfl
  refine parse_eq_ok_iff.2 (.inr ⟨protocol, upper, ⟨framed, ?_, passed, whole⟩, ?_⟩)
  · rw [next, behind]
    exact chain
  · show _ = (⟨.v6 (BitVec.ofNat 128 (Bytes.toNat (Bytes.ofNat 16 fields.source.toNat))),
      .v6 (BitVec.ofNat 128 (Bytes.toNat (Bytes.ofNat 16 fields.destination.toNat))), protocol,
      upper⟩ : IpPacket)
    rw [source, destination]
    simp

end

/-! ### What is accepted -/

/-- **The reader accepts exactly the well-formed packets.** It accepts an IPv4 packet if the header
with its options lies within the packet and the packet within the bytes, it is no fragment, and the
checksum of the header holds; and an IPv6 packet if the declared payload is there and is a chain of
extension headers that ends in the upper layer. What it reads are the addresses, the protocol and
the bytes from there to the declared end. An IPv4 header that was written, behind whatever a buffer
held, is read back as it was written, whatever follows the payload. A chain of extension headers
that reaches a fragment is rejected as one, and is the only one that is. -/
theorem parse_exact :
    (∀ (bytes : Bytes) (p : IpPacket), parse bytes = .ok p ↔
      (WellFormedV4 bytes ∧ p = packetV4 bytes) ∨ ∃ protocol upper,
        WellFormedV6 bytes protocol upper ∧ p = packetV6 bytes protocol upper) ∧
    (∀ (buffer payload extra : Bytes) (fields : Ip.FieldsV4), fields.options.length % 4 = 0 →
      fields.options.length ≤ 40 → fields.headerLength + payload.length < 2 ^ 16 →
      ∃ header, Ip.appendHeaderV4 buffer fields payload.length = .ok (buffer ++ header) ∧
        fieldsV4 (header ++ (payload ++ extra)) = fields ∧
        parse (header ++ (payload ++ extra)) =
          .ok ⟨.v4 fields.source, .v4 fields.destination, fields.protocol, payload⟩) ∧
    ∀ bytes : Bytes, FramedV6 bytes → (parse bytes = .error (.malformed .fragmented) ↔
      ∃ rest, Leads (HeaderV6.next bytes) (HeaderV6.payload bytes) Ip.fragment rest) := by
  refine ⟨fun _ _ => parse_eq_ok_iff, ?_, fun _ => parse_eq_fragmented_iff⟩
  intro buffer payload extra fields aligned short fits
  have hlength : fields.headerLength = 20 + fields.options.length := rfl
  have sealed := Ip.FieldsV4.internet_bytes fields payload.length
  exact ⟨_, Ip.appendHeaderV4_eq buffer (by omega) fits, fieldsV4_bytes aligned short _,
    parse_bytesV4 aligned short fits sealed extra⟩

/-- A packet with a router alert behind what a buffer held; an IPv6 packet with two extension
headers, the first of them 16 bytes long, and bytes behind it; and one whose extension header is
followed by a fragment. -/
theorem parse_exact_chains :
    let fields : Ip.FieldsV4 := ⟨0x0a000001, 0xe0000016, Ip.igmp, 1, 0xc0, Ip.routerAlertV4⟩
    let addresses := Bytes.ofNat 16 1 ++ Bytes.ofNat 16 2
    let last : Bytes := [17, 0, 7, 7, 7, 7, 7, 7] ++ [1, 2, 3]
    let passing := [43, 1] ++ List.replicate 14 7 ++ last
    let whole := [0x60, 0, 0, 0, 0, 27, 60, 64] ++ addresses ++ passing ++ [9, 9]
    let part := [0x60, 0, 0, 0, 0, 10, 0, 64] ++ addresses ++ [44, 0, 7, 7, 7, 7, 7, 7, 1, 2]
    (∃ header, Ip.appendHeaderV4 [1, 2, 3] fields 2 = .ok ([1, 2, 3] ++ header) ∧
      parse (header ++ ([9, 9] ++ [0, 0, 0])) =
        .ok ⟨.v4 0x0a000001, .v4 0xe0000016, Ip.igmp, [9, 9]⟩) ∧
    parse whole = .ok ⟨.v6 1, .v6 2, Ip.udp, [1, 2, 3]⟩ ∧
    FramedV6 part ∧ parse part = .error (.malformed .fragmented) := by
  intro fields addresses last passing whole part
  obtain ⟨exactly, written, fragmented⟩ := parse_exact
  have frame : FramedV6 whole := ⟨by decide, by decide, by decide, by decide⟩
  have frame' : FramedV6 part := ⟨by decide, by decide, by decide, by decide⟩
  have short : Leads 43 last 17 [1, 2, 3] :=
    @Leads.passed 43 17 0 17 [7, 7, 7, 7, 7, 7] _ _ (by decide) rfl .arrived
  have long : Leads 60 passing 17 [1, 2, 3] :=
    @Leads.passed 60 43 1 17 (List.replicate 14 7) _ _ (by decide) rfl short
  have reaches : Leads 0 [44, 0, 7, 7, 7, 7, 7, 7, 1, 2] Ip.fragment [1, 2] :=
    @Leads.passed 0 44 0 44 [7, 7, 7, 7, 7, 7] _ _ (by decide) rfl .arrived
  refine ⟨?_, ?_, frame', (fragmented part frame').2 ⟨_, reaches⟩⟩
  · obtain ⟨header, appended, -, read⟩ := written [1, 2, 3] [9, 9] [0, 0, 0] fields (by decide)
      (by decide) (by decide)
    exact ⟨header, appended, read⟩
  · exact (exactly _ _).2 (.inr ⟨17, [1, 2, 3], ⟨frame, long, by decide, by decide⟩, by decide⟩)

end IpPacket

end MulticastTunnel
