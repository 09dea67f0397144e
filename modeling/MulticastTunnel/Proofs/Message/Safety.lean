import MulticastTunnel.Datagram
import MulticastTunnel.Message.Wire
import MulticastTunnel.Proofs.Bytes.Safety
import MulticastTunnel.Proofs.Checksum
import MulticastTunnel.Query.Packet
import MulticastTunnel.Report.Wire

/-!
# Reading what came in

No byte string leads the readers of tunnel messages, or those of the packets that messages carry,
to a fault, however its length fields contradict each other: it is rejected as malformed, or
something is read from it, and then the parts that are handed on are parts of it.

* `IpPacket.parse_meets` : IP packets, whose extension headers never use up the fuel.
* `Query.decode_safe`, `Report.decode_safe`, `Datagram.decapsulate_safe` : what packets carry.
* `Message.decode_safe` : tunnel messages.
* `Message.receive_safe` : **nothing that came in leads to a fault**.
-/

namespace MulticastTunnel

variable {bytes packet : Bytes}

/-! ### IP packets -/

namespace IpPacket

theorem declaredLength_safe : (declaredLength bytes).Safe fun length => length ≤ bytes.length := by
  simp [declaredLength, Reader.u8]
  intros
  split <;> simp [Ip.headerLengthV4, Ip.headerLengthV6] <;> omega

/-- A rejection for the payload length of an IPv6 packet tells how many bytes there are after the
header, which is there. -/
def TellsRest (packet : Bytes) (cause : Malformed) : Prop := ∀ declared available,
  cause = .lengthOutOfBounds "IPv6 payload length" declared available →
    Ip.headerLengthV6 + available = packet.length

@[simp] theorem tellsRest_tooShort {what : String} {needed available : Nat} :
    TellsRest packet (.tooShort what needed available) := nofun

@[simp] theorem tellsRest_fragmented : TellsRest packet .fragmented := nofun

@[simp] theorem tellsRest_checksumMismatch {what : String} :
    TellsRest packet (.checksumMismatch what) := nofun

@[simp] theorem tellsRest_iff {declared available : Nat} :
    TellsRest packet (.lengthOutOfBounds "IPv6 payload length" declared available) ↔
      Ip.headerLengthV6 + available = packet.length := by
  simp [TellsRest]

theorem parseV4_meets : (parseV4 bytes).Meets (fun ip => ip.payload <:+: bytes)
    (TellsRest packet) := by
  have header {declared available : Nat} :
      TellsRest packet (.lengthOutOfBounds "IPv4 header length" declared available) := by
    simp [TellsRest]
  have total {declared available : Nat} :
      TellsRest packet (.lengthOutOfBounds "IPv4 total length" declared available) := by
    simp [TellsRest]
  simp [parseV4, Reader.u8, Reader.addressV4, Bytes.between_isInfix, header, total]
  omega

theorem extension_meets : (extension bytes).Meets (fun read => 8 ≤ read.2 ∧ read.2 ≤ bytes.length)
    (TellsRest packet) := by
  have other {declared available : Nat} :
      TellsRest packet (.lengthOutOfBounds "IPv6 extension header" declared available) := by
    simp [TellsRest]
  have enough (units : Nat) : 8 ≤ (units + 1) * 8 := by omega
  simp [extension, Reader.u8, other, enough]

/-- Each extension header takes fuel, and at least eight bytes. -/
theorem upperLayer_meets (fuel : Nat) (header : UInt8) (h : bytes.length < fuel) :
    (upperLayer fuel header bytes).Meets (fun read => read.2 <:+: bytes) (TellsRest packet) := by
  induction fuel generalizing header bytes with
  | zero => omega
  | succ fuel ih =>
    have shorter {start : Nat} (long : 8 ≤ start) (fits : start ≤ bytes.length) :
        (bytes.between start bytes.length).length < fuel := by
      simp only [Bytes.between, List.length_take, List.length_drop]
      omega
    simp only [upperLayer, Outcome.meets_ite_iff, Outcome.meets_bind_iff, Outcome.meets_slice_iff]
    refine ⟨fun _ => extension_meets.mono fun read room => ⟨⟨room.2, le_rfl⟩, ?_⟩,
      fun _ => by simp⟩
    exact (ih read.1 (shorter room.1 room.2)).mono fun left inside =>
      inside.trans Bytes.between_isInfix

theorem parseV6_meets : (parseV6 bytes).Meets (fun ip => ip.payload <:+: bytes)
    (TellsRest bytes) := by
  have layer {length : Nat} {next : UInt8} : (upperLayer (length + 1) next
      (Bytes.between 0 length (bytes.drop 40))).Meets (fun read => read.2 <:+: bytes)
        (TellsRest bytes) := by
    refine (upperLayer_meets _ _ ?_).mono fun read inside =>
      (inside.trans Bytes.between_isInfix).trans (List.drop_suffix ..).isInfix
    simp only [Bytes.between, List.length_take]
    omega
  simp [parseV6, Reader.u8, Reader.addressV6, layer, Ip.headerLengthV6]
  omega

theorem parse_meets : (parse packet).Meets (fun ip => ip.payload <:+: packet)
    (TellsRest packet) := by
  unfold parse
  split
  · simp
  · split
    · exact parseV4_meets
    · exact parseV6_meets
    · exact nofun

end IpPacket

/-! ### Queries and reports -/

theorem ControlPacket.read_safe {α : Type} {igmp : Bytes → Outcome α}
    {icmp : BitVec 128 → BitVec 128 → Bytes → Outcome α}
    (hi : ∀ message, (igmp message).Safe fun _ => True)
    (hm : ∀ source destination message, (icmp source destination message).Safe fun _ => True) :
    (read igmp icmp packet).Safe fun _ => True := by
  simp only [read, Outcome.meets_bind_iff]
  refine IpPacket.parse_meets.safe fun ip _ => ?_
  split
  · simp [hi]
  · simp [hm]
  · simp

namespace Query

theorem Igmp.decode_safe : (Igmp.decode bytes).Safe fun _ => True := by
  have sources {n : Nat} {bytes : Bytes} (room : 4 * n ≤ bytes.length) :
      (Reader.repeated (Reader.sureWord 4) n).Meets bytes (fun _ _ => True) fun _ => True :=
    Reader.meets_repeated_sureWord room
  simp [Igmp.decode, Igmp.tailReader, Reader.addressV4]
  grind

theorem Mld.decode_safe {source destination : BitVec 128} :
    (Mld.decode source destination bytes).Safe fun _ => True := by
  have sources {n : Nat} {bytes : Bytes} (room : 16 * n ≤ bytes.length) :
      (Reader.repeated (Reader.sureWord 16) n).Meets bytes (fun _ _ => True) fun _ => True :=
    Reader.meets_repeated_sureWord room
  simp [Mld.decode, Mld.tailReader, Reader.addressV6]
  grind

theorem decode_safe (packet : Bytes) : (decode packet).Safe fun _ => True :=
  ControlPacket.read_safe (fun _ => Igmp.decode_safe) fun _ _ _ => Mld.decode_safe

end Query

namespace Report

theorem recordReader_safe (d : Dialect) (bytes : Bytes) :
    (recordReader d).Meets bytes (fun _ _ => True) fun _ => True := by
  have sources {n : Nat} {bytes : Bytes} :
      (Reader.repeated (Reader.word (d.recordName ++ " sources") d.width) n).Meets bytes
        (fun _ _ => True) fun _ => True :=
    Reader.meets_repeated (I := fun _ _ => True) (fun _ _ _ => by simp) trivial
  simp [recordReader, Reader.u8]
  intros
  split <;> simp [sources]

theorem messageReader_safe (d : Dialect) (h : headerLength ≤ bytes.length) :
    (messageReader d).Meets bytes (fun _ _ => True) fun _ => True := by
  have records {n : Nat} {bytes : Bytes} :
      (Reader.repeated (recordReader d) n).Meets bytes (fun _ _ => True) fun _ => True :=
    Reader.meets_repeated (I := fun _ _ => True) (fun _ bytes _ => recordReader_safe d bytes)
      trivial
  simp [messageReader, records, headerLength] at h ⊢
  omega

theorem ofIgmp_safe : (ofIgmp bytes).Safe fun _ => True := by
  simp [ofIgmp]
  exact fun long _ => messageReader_safe _ long

theorem ofMld_safe {source destination : BitVec 128} :
    (ofMld source destination bytes).Safe fun _ => True := by
  simp [ofMld]
  exact fun long _ => messageReader_safe _ long

theorem decode_safe (packet : Bytes) : (decode packet).Safe fun _ => True :=
  ControlPacket.read_safe (fun _ => ofIgmp_safe) fun _ _ _ => ofMld_safe

end Report

/-! ### Datagrams -/

namespace Datagram

/-- Only a datagram that does not fit an IP packet has no checksum. -/
theorem checksum_safe {source destination : Address} {udp : Bytes} (fits : udp.length < 2 ^ 16) :
    (checksum source destination udp).Safe fun _ => True := by
  unfold checksum
  split <;> simp
  exact fits

theorem decapsulate_safe (verify : Bool) :
    (decapsulate packet verify).Safe fun d => d.payload <:+: packet := by
  simp only [decapsulate, Outcome.meets_bind_iff]
  refine IpPacket.parse_meets.safe fun ip inside => ?_
  have part {start stop : Nat} : Bytes.between start stop ip.payload <:+: packet :=
    Bytes.between_isInfix.trans inside
  have sum {stop : Nat} (fits : stop < 2 ^ 16) : (checksum ip.source ip.destination
      (Bytes.between 0 stop ip.payload)).Safe fun _ => True := by
    refine checksum_safe ?_
    simp only [Bytes.between, List.length_take]
    omega
  simp [Reader.u16, part]
  intro _ _ _ _ _ _ low high
  have fits := Bytes.toNat_take_lt 2 (ip.payload.drop 4)
  exact ⟨fun _ _ => ⟨high, (sum fits).mono fun _ _ _ => ⟨low, high⟩⟩, fun _ => ⟨low, high⟩⟩

end Datagram

/-! ### Messages -/

namespace Message

/-- The packet that a message carries. -/
def packet? : Message → Option Bytes
  | query _ _ _ packet _ | update _ _ packet | data packet => some packet
  | _ => none

theorem bodyReader_safe (kind : MessageKind) : (bodyReader kind).Meets bytes
    (fun m _ => ∀ packet ∈ m.packet?, packet <:+: bytes) fun _ => True := by
  cases kind with
  | discovery => simp [bodyReader, Reader.u32, packet?]
  | advertisement =>
    simp [bodyReader, Reader.u32, packet?]
    intros
    split <;> simp [Reader.addressV4, Reader.addressV6]
  | request => simp [bodyReader, Reader.u32, Reader.u8, packet?]
  | query =>
    have part {start n : Nat} : (bytes.drop start).take n <:+: bytes :=
      (List.take_prefix ..).isInfix.trans (List.drop_suffix ..).isInfix
    simp [bodyReader, macReader, Reader.u32, Reader.u8, packet?, part]
    intro _ mac
    refine ⟨mac, fun _ => IpPacket.declaredLength_safe.mono fun length fits => ?_⟩
    simp [GatewayAddress.reader, Reader.u16, Reader.addressV6] at fits ⊢
    omega
  | update =>
    simp [bodyReader, macReader, Reader.u32, packet?, List.drop_suffix, List.IsSuffix.isInfix]
  | data => simp [bodyReader, packet?, (List.tail_suffix bytes).isInfix]
  | teardown =>
    simp [bodyReader, macReader, GatewayAddress.reader, Reader.u16, Reader.addressV6, Reader.u32,
      packet?]

theorem decode_safe (datagram : Bytes) :
    (decode datagram).Safe fun m => ∀ packet ∈ m.packet?, packet <:+: datagram := by
  simp [decode, Reader.u8]
  intros
  split
  · simp
  · refine (bodyReader_safe _).mono fun m _ inside packet hp => ?_
    exact (inside packet hp).trans (List.tail_suffix _).isInfix

/-- **Nothing that came in leads to a fault**: not the reading of a message, and not that of the
packet it carries as an IP packet, a query, a report or a datagram. What is handed on is part of
what came in, and 32 bits hold the sums of all checksums over its parts, with a pseudo header or
without. -/
theorem receive_safe (datagram : Bytes) (short : datagram.length ≤ 65536) :
    ((decode datagram).Safe fun m => ∀ packet ∈ m.packet?, packet <:+: datagram) ∧
    (∀ packet, packet <:+: datagram →
      (IpPacket.parse packet).Meets (fun ip => ip.payload <:+: packet)
        (IpPacket.TellsRest packet) ∧
      ((Query.decode packet).Safe fun _ => True) ∧
      ((Report.decode packet).Safe fun _ => True) ∧
      ∀ verify, (Datagram.decapsulate packet verify).Safe fun d => d.payload <:+: packet) ∧
    ∀ part, part <:+: datagram → Checksum.Fits32 [part] ∧
      (∀ source destination protocol length,
        Checksum.Fits32 [Checksum.pseudoHeaderV4 source destination protocol length, part]) ∧
      ∀ source destination length protocol,
        Checksum.Fits32 [Checksum.pseudoHeaderV6 source destination length protocol, part] := by
  refine ⟨decode_safe datagram, fun packet _ => ⟨IpPacket.parse_meets, Query.decode_safe packet,
    Report.decode_safe packet, Datagram.decapsulate_safe⟩, fun part inside => ?_⟩
  have length := inside.length_le
  refine ⟨Checksum.fits32_of_length ?_, fun _ _ _ _ => Checksum.fits32_of_length ?_,
    fun _ _ _ _ => Checksum.fits32_of_length ?_⟩
  · simp
    omega
  · simp [Checksum.pseudoHeaderV4]
    omega
  · simp [Checksum.pseudoHeaderV6]
    omega

/-- Multicast data over IPv6, behind a hop-by-hop header, whose UDP length reaches beyond its
packet. -/
theorem receive_safe_long_udp :
    let packet : Bytes := [0x60, 0, 0, 0, 0, 17, 0, 1] ++ Bytes.ofNat 16 1 ++ Bytes.ofNat 16 2 ++
      [17, 0, 1, 4, 0, 0, 0, 0, 0, 7, 0, 7, 0xff, 0xff, 0, 0, 42]
    decode ([6, 0] ++ packet) = .ok (data packet) ∧ packet <:+: [6, 0] ++ packet ∧
    (Datagram.decapsulate packet true).Safe (fun d => d.payload <:+: packet) ∧
    Datagram.decapsulate packet true =
      .error (.malformed (.lengthOutOfBounds "UDP length" 65535 9)) := by
  intro packet
  have read : decode ([6, 0] ++ packet) = .ok (data packet) := by decide +kernel
  have safe := receive_safe ([6, 0] ++ packet) (by decide)
  have inside : packet <:+: [6, 0] ++ packet := (Outcome.meets_iff.1 safe.1).1 _ read packet rfl
  exact ⟨read, inside, (safe.2.1 packet inside).2.2.2 true, by decide +kernel⟩

end Message

end MulticastTunnel
