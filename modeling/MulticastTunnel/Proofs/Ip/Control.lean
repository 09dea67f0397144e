import MulticastTunnel.Ip.Control
import MulticastTunnel.Proofs.Ip.Extent

/-!
# Control packets as they are written

The packet that is made of an IGMP or ICMPv6 message carries the message with its checksum filled
in: whoever reads the packet gets that message, the checksum holds, and the packet ends where its
header says.

* `ControlPacket.igmp_carries`, `ControlPacket.icmp_carries` : the packet of a message that fits
  one, and what is read back.
-/

namespace MulticastTunnel

namespace ControlPacket

variable {front back : Bytes} {source destination : BitVec 128}

/-! ### Checksums -/

theorem length_sealed (sum : UInt16) : (front ++ [0, 0] ++ back).length =
    (front ++ Bytes.ofNat 2 sum.toNat ++ back).length := by
  simp only [List.length_append, Bytes.length_ofNat]
  rfl

theorem igmpChecksum_sealed (two : front.length = 2) :
    igmpChecksum (front ++ Bytes.ofNat 2 (igmpChecksum (front ++ [0, 0] ++ back)).toNat ++ back) =
      0 :=
  Checksum.internet_sealed [] (by rw [List.flatten_nil, List.nil_append, two]; decide)

/-- The pseudo header comes first, and has an even length. -/
theorem icmpChecksum_sealed (two : front.length = 2) :
    icmpChecksum source destination (front ++ Bytes.ofNat 2
      (icmpChecksum source destination (front ++ [0, 0] ++ back)).toNat ++ back) = 0 := by
  have even (n : Nat) : Even ([Checksum.pseudoHeaderV6 source destination n
      Ip.icmpV6].flatten ++ front).length := by
    simp [Checksum.pseudoHeaderV6, two]
    decide
  rw [icmpChecksum, ← length_sealed]
  exact Checksum.internet_sealed [_] (even _)

/-! ### Packets -/

/-- What is read from a packet is read from a message by the reader of its family. -/
theorem exists_message_of_read {α : Type} {igmp : Bytes → Outcome α}
    {icmp : BitVec 128 → BitVec 128 → Bytes → Outcome α} {packet : Bytes} {a : α}
    (h : read igmp icmp packet = .ok a) : (∃ message, igmp message = .ok a) ∨
      ∃ source destination message, icmp source destination message = .ok a := by
  obtain ⟨ip, -, h⟩ := Outcome.bind_eq_ok_iff.1 h
  dsimp only at h
  split at h
  · split at h
    · exact .inl ⟨_, h⟩
    · nomatch h
  · split at h
    · exact .inr ⟨_, _, _, h⟩
    · nomatch h
  · nomatch h

/-- The control message that a packet carries. -/
def message (packet : Bytes) : Outcome Bytes := read .ok (fun _ _ => .ok) packet

/-- The packet ends where its header says, and an IGMP message is read from it. In front of the
message is a header with the router alert. -/
structure CarriesIgmp (packet message : Bytes) : Prop where
  declared : IpPacket.declaredLength packet = .ok packet.length
  length : packet.length = 24 + message.length
  valid : igmpChecksum message = 0
  read : ∀ {α : Type} (igmp : Bytes → Outcome α)
    (icmp : BitVec 128 → BitVec 128 → Bytes → Outcome α),
    read igmp icmp packet = igmp message

/-- The packet ends where its header says, and an ICMPv6 message is read from it. In front of the
message are a header and the router alert, which is an extension header here. -/
structure CarriesIcmp (source destination : BitVec 128) (packet message : Bytes) : Prop where
  declared : IpPacket.declaredLength packet = .ok packet.length
  length : packet.length = 48 + message.length
  valid : icmpChecksum source destination message = 0
  read : ∀ {α : Type} (igmp : Bytes → Outcome α)
    (icmp : BitVec 128 → BitVec 128 → Bytes → Outcome α),
    read igmp icmp packet = icmp source destination message

theorem headerV4_carries (source destination : BitVec 32) {message : Bytes}
    (valid : igmpChecksum message = 0) (fits : message.length < 65512) :
    ∃ header, Ip.headerV4 ⟨source, destination, Ip.igmp, 1, networkControl, Ip.routerAlertV4⟩
      message.length = .ok header ∧ CarriesIgmp (header ++ message) message := by
  generalize hfields : (⟨source, destination, Ip.igmp, 1, networkControl, Ip.routerAlertV4⟩ :
    Ip.FieldsV4) = fields
  have options : fields.options.length = 4 := by rw [← hfields]; rfl
  have headerLength : fields.headerLength = 24 := by rw [Ip.FieldsV4.headerLength, options]; rfl
  have sealed := Ip.FieldsV4.internet_bytes fields message.length
  refine ⟨_, Ip.headerV4_eq (by rw [headerLength]; decide) (by omega),
    IpPacket.declaredLength_bytesV4 (by omega) (by omega) (by omega) sealed,
    by rw [List.length_append, Ip.FieldsV4.length_bytes, headerLength], valid, fun f g => ?_⟩
  have parsed := IpPacket.parse_bytesV4 (by omega) (by omega) (by omega) sealed []
  rw [List.append_nil] at parsed
  rw [ControlPacket.read, parsed, ← hfields]
  rfl

/-- **The packet of an IGMP message** that fits one carries the message, its checksum filled in. -/
theorem igmp_carries (source destination : BitVec 32) (two : front.length = 2)
    (fits : back.length < 65508) : ∃ (packet : Bytes) (sum : UInt16),
      igmp source destination (front ++ [0, 0] ++ back) = .ok packet ∧
      CarriesIgmp packet (front ++ Bytes.ofNat 2 sum.toNat ++ back) := by
  generalize hsum : igmpChecksum (front ++ [0, 0] ++ back) = sum
  have patched := Bytes.patchWord_append two [0, 0] back rfl sum
  have valid : igmpChecksum (front ++ Bytes.ofNat 2 sum.toNat ++ back) = 0 := by
    rw [← hsum]
    exact igmpChecksum_sealed two
  obtain ⟨header, written, carries⟩ := headerV4_carries source destination valid
    (by simp only [List.length_append, two, Bytes.length_ofNat]; omega)
  refine ⟨_, sum, ?_, carries⟩
  rw [igmp, hsum, patched, length_sealed, written]
  rfl

theorem headerV6_carries {message : Bytes} (valid : icmpChecksum source destination message = 0)
    (fits : message.length < 65528) :
    ∃ header, Ip.headerV6 ⟨source, destination, Ip.hopByHop, 1⟩
        (Ip.routerAlertV6.length + message.length) = .ok header ∧
      CarriesIcmp source destination (header ++ Ip.routerAlertV6 ++ message) message := by
  generalize hfields : (⟨source, destination, Ip.hopByHop, 1⟩ : Ip.FieldsV6) = fields
  have length : (Ip.routerAlertV6 ++ message).length = 8 + message.length := List.length_append
  have chain : IpPacket.Leads fields.nextHeader (Ip.routerAlertV6 ++ message) Ip.icmpV6
      message := by
    rw [← hfields]
    exact IpPacket.leads_routerAlert message
  rw [← List.length_append]
  refine ⟨_, Ip.headerV6_eq (by omega), ?_, ?_, valid, fun f g => ?_⟩
  · rw [List.append_assoc]
    exact IpPacket.declaredLength_bytesV6 (by omega) (by omega)
  · rw [List.length_append, List.length_append, Ip.FieldsV6.length_bytes]
    rfl
  · have parsed := IpPacket.parse_bytesV6 (by omega) (by omega) chain (by decide) (by decide) []
    rw [List.append_nil] at parsed
    rw [ControlPacket.read, List.append_assoc, parsed, ← hfields]
    rfl

/-- **The packet of an ICMPv6 message** that fits one carries the message, its checksum filled
in. -/
theorem icmp_carries (source destination : BitVec 128) (two : front.length = 2)
    (fits : back.length < 65524) : ∃ (packet : Bytes) (sum : UInt16),
      icmp source destination (front ++ [0, 0] ++ back) = .ok packet ∧
      CarriesIcmp source destination packet (front ++ Bytes.ofNat 2 sum.toNat ++ back) := by
  generalize hsum : icmpChecksum source destination (front ++ [0, 0] ++ back) = sum
  have patched := Bytes.patchWord_append two [0, 0] back rfl sum
  have valid : icmpChecksum source destination (front ++ Bytes.ofNat 2 sum.toNat ++ back) = 0 := by
    rw [← hsum]
    exact icmpChecksum_sealed two
  obtain ⟨header, written, carries⟩ := headerV6_carries valid
    (by simp only [List.length_append, two, Bytes.length_ofNat]; omega)
  refine ⟨_, sum, ?_, carries⟩
  rw [icmp, hsum, patched, length_sealed, written]
  rfl

end ControlPacket

end MulticastTunnel
