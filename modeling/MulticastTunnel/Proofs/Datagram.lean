import MulticastTunnel.Datagram
import MulticastTunnel.Proofs.Ip.Grammar

/-!
# Datagrams as they are written

The packet that `Datagram.encapsulate` writes carries a UDP message with a valid checksum that is
never zero, so `Datagram.decapsulate` gets the datagram back whether or not it verifies the
checksum, and whatever follows the packet; only the flow labels and scopes of its ends are lost, for
which there is no place in the packet. There is such a packet if the datagram's addresses are of
one family and its payload fits, and otherwise the error says what is wrong.

* `Datagram.decapsulate_of_parse` : what is read from a packet with a datagram's message.
* `Datagram.Carriage` : what the two families of addresses provide for a message.
* `Datagram.exists_encapsulate_eq` : the packet that is written.
* `Datagram.IsSentAs` : a packet from which a datagram is read back.
* `Datagram.decapsulate_encapsulate` : **writing and reading datagrams agree**.
-/

namespace MulticastTunnel

namespace Datagram

variable {d : Datagram}

/-! ### The UDP message -/

/-- The header in front of the checksum. -/
def front (d : Datagram) : Bytes :=
  Bytes.ofNat 2 d.source.port.toNat ++ (Bytes.ofNat 2 d.destination.port.toNat ++
    Bytes.ofNat 2 (headerLength + d.payload.length))

/-- Header and payload, with a given checksum. -/
def message (d : Datagram) (sum : UInt16) : Bytes :=
  d.front ++ Bytes.ofNat 2 sum.toNat ++ d.payload

theorem length_front : d.front.length = 6 := by simp [front]

theorem length_message {sum : UInt16} :
    (d.message sum).length = headerLength + d.payload.length := by
  simp only [message, List.length_append, length_front, Bytes.length_ofNat, headerLength]

/-- The checksum that is written for a computed one. -/
def sent (sum : UInt16) : UInt16 := if sum = 0 then 0xffff else sum

theorem sent_ne_zero (sum : UInt16) : sent sum ≠ 0 := by
  unfold sent
  split_ifs with zero
  · decide
  · exact zero

/-- The checksum stands where words begin, after a pseudo header of even length. -/
theorem even_front (d : Datagram) {pseudo : Bytes} (even : Even pseudo.length) :
    Even ([pseudo].flatten ++ d.front).length := by
  rw [List.flatten_singleton, List.length_append, length_front]
  exact even.add (by decide)

theorem internet_message {pseudo : Bytes} (even : Even pseudo.length) :
    Checksum.internet [pseudo, d.message (sent (Checksum.internet [pseudo, d.message 0]))] = 0 := by
  unfold sent
  split_ifs with zero
  · exact Checksum.internet_sealed_ones [pseudo] (d.even_front even) zero
  · exact Checksum.internet_sealed [pseudo] (d.even_front even)

/-! ### The packet -/

/-- The datagram is read back from the packet, without flow labels and scopes, whether or not the
checksum is verified and whatever follows the packet, and the checksum field does not say that there
is none. -/
structure IsSentAs (d : Datagram) (packet : Bytes) : Prop where
  read : ∀ (extra : Bytes) (verify : Bool), decapsulate (packet ++ extra) verify = .ok d.bare
  checksum : ∃ ip, IpPacket.parse packet = .ok ip ∧
    Bytes.toNat (Bytes.between 6 8 ip.payload) ≠ 0

/-- A datagram is read from a packet that carries its message, unless the checksum is verified,
there is one, and it is wrong. -/
theorem decapsulate_of_parse {packet : Bytes} {sum computed : UInt16}
    (parsed : IpPacket.parse packet =
      .ok ⟨d.source.address, d.destination.address, Ip.udp, d.message sum⟩)
    (fits : d.payload.length ≤ maxPayload)
    (checked : Datagram.checksum d.source.address d.destination.address (d.message sum) =
      .ok computed) (verify : Bool) :
    decapsulate packet verify =
      if verify ∧ ¬ (sum = 0 ∧ d.source.address.isV4) ∧ computed ≠ 0 then
        .error (.malformed (.checksumMismatch "UDP"))
      else .ok d.bare := by
  have length : (d.message sum).length = headerLength + d.payload.length := length_message
  have small : headerLength + d.payload.length < 256 ^ 2 := by
    simp only [headerLength, maxPayload] at fits ⊢
    omega
  have whole : Outcome.slice 0 (headerLength + d.payload.length) (d.message sum) =
      .ok (d.message sum) := by
    rw [← length, Outcome.slice, if_pos ⟨Nat.zero_le _, le_rfl⟩, Bytes.between, List.drop_zero,
      Nat.sub_zero, List.take_length]
  have payload : Outcome.slice headerLength (headerLength + d.payload.length) (d.message sum) =
      .ok d.payload := by
    have lengthHeader : (d.front ++ Bytes.ofNat 2 sum.toNat).length = headerLength := by
      rw [List.length_append, length_front, Bytes.length_ofNat]
      rfl
    have slice : Outcome.slice headerLength (headerLength + d.payload.length)
        ((d.front ++ Bytes.ofNat 2 sum.toNat) ++ (d.payload ++ [])) = .ok d.payload :=
      Outcome.slice_append lengthHeader rfl
    rwa [List.append_nil] at slice
  -- the message is its four header words and the payload
  have header : Reader.parse (do
      Reader.require "UDP header" headerLength
      let sourcePort ← Reader.u16 "UDP header"
      let destinationPort ← Reader.u16 "UDP header"
      let length ← Reader.word "UDP header" 2
      let sum ← Reader.word "UDP header" 2
      return (sourcePort, destinationPort, length, sum)) (d.message sum) =
        .ok (d.source.port, d.destination.port, headerLength + d.payload.length, sum.toNat) := by
    have shape : d.message sum = Bytes.ofNat 2 d.source.port.toNat ++
        (Bytes.ofNat 2 d.destination.port.toNat ++
        (Bytes.ofNat 2 (headerLength + d.payload.length) ++ (Bytes.ofNat 2 sum.toNat ++
        d.payload))) := by
      simp only [message, front, List.append_assoc]
    rw [Reader.parse_require_bind (by omega), (Reader.reads_u16 _).parse_bind shape,
      (Reader.reads_u16 _).parse_bind rfl, (Reader.reads_word_ofNat small).parse_bind rfl,
      (Reader.reads_word_ofNat sum.toNat_lt).parse_bind rfl, Reader.parse_pure]
  have present : sum.toNat = 0 ↔ sum = 0 := by rw [← UInt16.toNat_inj, UInt16.toNat_zero]
  unfold decapsulate
  rw [parsed, Outcome.ok_bind, if_neg (by simp)]
  simp only [header, Outcome.ok_bind, whole, checked, payload, length, present]
  rw [if_neg (by omega)]
  -- only a checksum that is there and is to be verified can be wrong
  by_cases verified : verify = true ∧ ¬ (sum = 0 ∧ d.source.address.isV4 = true)
  · by_cases wrong : computed ≠ 0
    · rw [if_pos verified, if_pos wrong, if_pos ⟨verified.1, verified.2, wrong⟩]
      rfl
    · rw [if_pos verified, if_neg wrong, if_neg fun all => wrong all.2.2]
      rfl
  · rw [if_neg verified, if_neg fun all => verified ⟨all.1, all.2.1⟩]
    rfl

theorem IsSentAs.of_parse {packet : Bytes} {sum : UInt16} (nonzero : sum ≠ 0)
    (parsed : ∀ extra, IpPacket.parse (packet ++ extra) =
      .ok ⟨d.source.address, d.destination.address, Ip.udp, d.message sum⟩)
    (fits : d.payload.length ≤ maxPayload)
    (valid : Datagram.checksum d.source.address d.destination.address (d.message sum) = .ok 0) :
    d.IsSentAs packet where
  read extra verify := by
    rw [decapsulate_of_parse (parsed extra) fits valid, if_neg fun wrong => wrong.2.2 rfl]
  checksum := by
    have field : Bytes.between 6 8 (d.message sum) = Bytes.ofNat 2 sum.toNat := by
      rw [message, List.append_assoc]
      exact Bytes.between_append length_front rfl
    refine ⟨_, by simpa using parsed [], ?_⟩
    rw [field, Bytes.toNat_ofNat_of_lt sum.toNat_lt]
    exact fun zero => nonzero (UInt16.toNat_inj.1 zero)

/-! ### Writing -/

theorem encapsulate_eq (fits : d.payload.length ≤ maxPayload) : d.encapsulate = (do
    let header ← ipHeader d.source.address d.destination.address (d.message 0).length
    let sum ← Datagram.checksum d.source.address d.destination.address (d.message 0)
    return header ++ d.message (sent sum)) := by
  have small : headerLength + d.payload.length < 2 ^ 16 := by
    simp only [headerLength, maxPayload] at fits ⊢
    omega
  have patched (sum : UInt16) : Bytes.patchWord 6 sum (d.message 0) = d.message sum :=
    Bytes.patchWord_append length_front (Bytes.ofNat 2 0) d.payload rfl sum
  have unsealed : Bytes.ofNat 2 d.source.port.toNat ++ Bytes.ofNat 2 d.destination.port.toNat ++
      Bytes.ofNat 2 (headerLength + d.payload.length) ++ [0, 0] ++ d.payload = d.message 0 := by
    simp [message, front]
    rfl
  rw [encapsulate]
  simp only [Outcome.fitting_of_lt small, Outcome.ok_bind, unsealed, length_message]
  rw [if_neg (Nat.not_lt.2 fits)]
  simp only [patched, sent]

/-- Where the UDP message starts in a packet from an address. -/
def messageStart (source : Address) : Nat :=
  if source.isV4 then Ip.headerLengthV4 else Ip.headerLengthV6

/-- What each family provides for messages of one length: a pseudo header, and an IP header that is
read back. -/
structure Carriage (source destination : Address) (length : Nat) (pseudo header : Bytes) :
    Prop where
  even : Even pseudo.length
  length_header : header.length = messageStart source
  written : ipHeader source destination length = .ok header
  sum {message : Bytes} : message.length = length →
    Datagram.checksum source destination message = .ok (Checksum.internet [pseudo, message])
  parsed {message : Bytes} : message.length = length → ∀ extra,
    IpPacket.parse (header ++ (message ++ extra)) = .ok ⟨source, destination, Ip.udp, message⟩

theorem exists_carriage_v4 (source destination : BitVec 32) {length : Nat}
    (short : length < 65516) :
    ∃ pseudo header, Carriage (.v4 source) (.v4 destination) length pseudo header := by
  generalize hfields : (⟨source, destination, Ip.udp, 64, 0, []⟩ : Ip.FieldsV4) = fields
  have options : fields.options = [] := by rw [← hfields]
  have headerLength : fields.headerLength = 20 := by rw [Ip.FieldsV4.headerLength, options]; rfl
  have written : Ip.headerV4 fields length = _ :=
    Ip.headerV4_eq (by rw [headerLength]; decide) (by omega)
  refine ⟨Checksum.pseudoHeaderV4 source destination Ip.udp length,
    fields.bytes length (Checksum.internet [fields.bytes length 0]), ?_, ?_,
    by rw [ipHeader, hfields, written], fun same => ?_, fun same extra => ?_⟩
  · simp [Checksum.pseudoHeaderV4]
    decide
  · rw [Ip.FieldsV4.length_bytes, headerLength]
    rfl
  · rw [Datagram.checksum, same, Outcome.fitting_of_lt (by omega), Outcome.ok_bind]
    rfl
  · subst same
    rw [IpPacket.parse_bytesV4 (by rw [options]; rfl) (by rw [options]; decide) (by omega)
      (Ip.FieldsV4.internet_bytes fields _) extra, ← hfields]

theorem exists_carriage_v6 (source destination : BitVec 128) {length : Nat} (pos : 0 < length)
    (short : length < 2 ^ 16) :
    ∃ pseudo header, Carriage (.v6 source) (.v6 destination) length pseudo header := by
  generalize hfields : (⟨source, destination, Ip.udp, 64⟩ : Ip.FieldsV6) = fields
  have written : Ip.headerV6 fields length = _ := Ip.headerV6_eq short
  refine ⟨Checksum.pseudoHeaderV6 source destination length Ip.udp, fields.bytes length, ?_,
    Ip.FieldsV6.length_bytes, by rw [ipHeader, hfields, written], fun same => ?_,
    fun {message} same extra => ?_⟩
  · simp [Checksum.pseudoHeaderV6]
    decide
  · rw [Datagram.checksum, same]
    rfl
  · have chain : IpPacket.Leads fields.nextHeader message Ip.udp message := by
      rw [← hfields]
      exact .arrived
    subst same
    rw [IpPacket.parse_bytesV6 pos short chain (by decide) (by decide) extra, ← hfields]

theorem exists_carriage {source destination : Address} {length : Nat}
    (family : source.isV4 = destination.isV4) (pos : 0 < length) (short : length < 65516) :
    ∃ pseudo header, Carriage source destination length pseudo header := by
  cases source with
  | v4 source =>
    cases destination with
    | v4 destination => exact exists_carriage_v4 source destination short
    | v6 destination => cases family
  | v6 source =>
    cases destination with
    | v4 destination => cases family
    | v6 destination => exact exists_carriage_v6 source destination pos (by omega)

theorem exists_encapsulate_eq (family : d.source.address.isV4 = d.destination.address.isV4)
    (fits : d.payload.length ≤ maxPayload) : ∃ pseudo header sum,
      Carriage d.source.address d.destination.address (headerLength + d.payload.length) pseudo
        header ∧
      sum ≠ 0 ∧ Checksum.internet [pseudo, d.message sum] = 0 ∧
      d.encapsulate = .ok (header ++ d.message sum) := by
  have bounds : 0 < headerLength + d.payload.length ∧
      headerLength + d.payload.length < 65516 := by
    simp only [headerLength, maxPayload] at fits ⊢
    omega
  obtain ⟨pseudo, header, carriage⟩ := exists_carriage family bounds.1 bounds.2
  refine ⟨pseudo, header, _, carriage, sent_ne_zero _, internet_message carriage.even, ?_⟩
  rw [encapsulate_eq fits, carriage.sum length_message, length_message, carriage.written]
  rfl

theorem exists_isSentAs (family : d.source.address.isV4 = d.destination.address.isV4)
    (fits : d.payload.length ≤ maxPayload) :
    ∃ packet, d.encapsulate = .ok packet ∧ d.IsSentAs packet := by
  obtain ⟨pseudo, header, sum, carriage, nonzero, valid, written⟩ :=
    exists_encapsulate_eq family fits
  refine ⟨_, written, .of_parse nonzero (fun extra => ?_) fits ?_⟩
  · rw [List.append_assoc, carriage.parsed length_message]
  · rw [carriage.sum length_message, valid]

theorem encapsulate_of_long (long : maxPayload < d.payload.length) : d.encapsulate =
    .error (.malformed (.lengthOutOfBounds "UDP payload" d.payload.length maxPayload)) := by
  rw [encapsulate]
  simp only [if_pos long]
  rfl

theorem encapsulate_of_mixed (family : d.source.address.isV4 ≠ d.destination.address.isV4)
    (fits : d.payload.length ≤ maxPayload) : d.encapsulate =
      .error (.malformed (.familyMismatch d.source.address d.destination.address)) := by
  rw [encapsulate_eq fits]
  cases hs : d.source.address with
  | v4 source =>
    cases hd : d.destination.address with
    | v4 destination => exact absurd (by rw [hs, hd]; rfl) family
    | v6 destination => rfl
  | v6 source =>
    cases hd : d.destination.address with
    | v4 destination => rfl
    | v6 destination => exact absurd (by rw [hs, hd]; rfl) family

theorem bare_eq_self_iff : d.bare = d ↔ (d.source.flow = 0 ∧ d.source.scope = 0) ∧
    d.destination.flow = 0 ∧ d.destination.scope = 0 := by
  obtain ⟨source, destination, payload⟩ := d
  simp [bare, Endpoint.bare_eq_self_iff]

/-- A datagram from a link-local address comes back without the link. -/
theorem decapsulate_ne_of_scoped :
    let source : Endpoint := ⟨.v6 0xfe800000000000000000000000000001, 5000, 0, 2⟩
    let d : Datagram := ⟨source, .of (.v6 0xff3e0000000000000000000000000001) 5000, [1]⟩
    ∃ packet, d.encapsulate = .ok packet ∧ ∀ extra verify,
      decapsulate (packet ++ extra) verify = .ok { d with source := .of source.address 5000 } ∧
      decapsulate (packet ++ extra) verify ≠ .ok d := by
  intro source d
  obtain ⟨packet, written, sent⟩ := exists_isSentAs (d := d) (by decide) (by decide)
  refine ⟨packet, written, fun extra verify => ?_⟩
  rw [sent.read]
  exact ⟨rfl, by decide⟩

/-- **Writing and reading datagrams agree**: a datagram is written exactly if its addresses are of
one family and its payload fits, and it is then read back, whether or not its checksum is verified
and whatever follows the packet, while the checksum that is sent is never zero. Of its ends, the
addresses and ports are read back, which is all of them unless there is a flow label or a scope.
Otherwise the error is for the payload, or else for the addresses; a number never fails to fit its
field. -/
theorem decapsulate_encapsulate (d : Datagram) :
    ((∃ packet, d.encapsulate = .ok packet ∧ d.IsSentAs packet) ↔
      d.source.address.isV4 = d.destination.address.isV4 ∧ d.payload.length ≤ maxPayload) ∧
    (d.bare = d ↔ (d.source.flow = 0 ∧ d.source.scope = 0) ∧
      d.destination.flow = 0 ∧ d.destination.scope = 0) ∧
    (d.encapsulate =
        .error (.malformed (.lengthOutOfBounds "UDP payload" d.payload.length maxPayload)) ↔
      maxPayload < d.payload.length) ∧
    (d.encapsulate =
        .error (.malformed (.familyMismatch d.source.address d.destination.address)) ↔
      d.source.address.isV4 ≠ d.destination.address.isV4 ∧ d.payload.length ≤ maxPayload) ∧
    ∀ cause, d.encapsulate ≠ .error (.fault cause) := by
  have whole : d.bare = d ↔ _ := bare_eq_self_iff
  rcases Nat.lt_or_ge maxPayload d.payload.length with long | fits
  · rw [encapsulate_of_long long]
    simp [long, whole]
  · by_cases family : d.source.address.isV4 = d.destination.address.isV4
    · obtain ⟨packet, written, sent⟩ := exists_isSentAs family fits
      rw [written]
      simp [family, fits, sent, whole]
    · rw [encapsulate_of_mixed family fits]
      simp [family, fits, whole]

end Datagram

end MulticastTunnel
